import FileTransfer.Archive.Names
import FileTransfer.Binary.Cursor
import FileTransfer.Binary.LittleEndian

/-!
# Strings and extra fields of a directory entry

`zip_string_t` and `zip_extra_field_t` of libzip 1.9.2 and the getters of
`zip_buffer_t`, which give 0 once the buffer has failed. Allocations succeed.
-/

namespace FileTransfer

set_option autoImplicit false

open Binary (encodeLE decodeLE Cursor)

/-- What a reader of the archive fails with: the code, and for `ZIP_ER_INCONS`
the detail and the entry it is about. -/
inductive ReadError where
  | noZip
  | incons (detail : Nat) (index : Option Nat)
  | internal
  | memory
  | eof
  | noEntry
  | seek
  | multidisk
  | encryptionNotSupported
  deriving DecidableEq

def detailCdirOverlapsEocd : Nat := 1
def detailCommentLengthInvalid : Nat := 2
def detailCdirLengthInvalid : Nat := 3
def detailCdirEntryInvalid : Nat := 4
def detailCdirWrongEntriesCount : Nat := 5
def detailEocdLengthInvalid : Nat := 7
def detailEocd64OverlapsEocd : Nat := 8
def detailEocd64WrongMagic : Nat := 9
def detailCdirInvalid : Nat := 11
def detailVariableSizeOverflow : Nat := 12
def detailInvalidUtf8InFilename : Nat := 13
def detailInvalidUtf8InComment : Nat := 13
def detailInvalidZip64Ef : Nat := 14
def detailInvalidWinzipAesEf : Nat := 14
def detailEfTrailingGarbage : Nat := 15
def detailInvalidEfLength : Nat := 16

abbrev ZipBuffer := Cursor UInt8

namespace ZipBuffer

/-- The number in the next `width` bytes; 0 if there are not so many. -/
def getNumber (width : Nat) : StateM ZipBuffer Nat := fun buffer =>
  match buffer.get width with
  | (none, buffer) => (0, buffer)
  | (some data, buffer) => (decodeLE data, buffer)

def get16 : StateM ZipBuffer UInt16 := do return UInt16.ofNat (← getNumber 2)
def get32 : StateM ZipBuffer UInt32 := do return UInt32.ofNat (← getNumber 4)
def get64 : StateM ZipBuffer UInt64 := do return UInt64.ofNat (← getNumber 8)

end ZipBuffer

def put16 (i : UInt16) : Bytes := encodeLE 2 i.toNat
def put32 (i : UInt32) : Bytes := encodeLE 4 i.toNat
def put64 (i : UInt64) : Bytes := encodeLE 8 i.toNat

/-- `zip_encoding_type`; `ZIP_ENCODING_ERROR` is not one a string has. -/
inductive StringEncoding where
  | unknown
  | ascii
  | utf8Known
  | utf8Guessed
  | cp437
  deriving DecidableEq

def Encoding.guessed : Encoding → StringEncoding
  | .ascii => .ascii
  | .utf8 => .utf8Guessed
  | .cp437 => .cp437

def StringEncoding.Suits (raw : Bytes) : StringEncoding → Prop
  | .unknown => True
  | .ascii => guessEncoding raw = .ascii
  | .utf8Known | .utf8Guessed => guessEncoding raw = .utf8
  | .cp437 => guessEncoding raw = .cp437

instance (raw : Bytes) (encoding : StringEncoding) : Decidable (encoding.Suits raw) :=
  match encoding with
  | .unknown => isTrue trivial
  | .ascii => inferInstanceAs (Decidable (guessEncoding raw = .ascii))
  | .utf8Known => inferInstanceAs (Decidable (guessEncoding raw = .utf8))
  | .utf8Guessed => inferInstanceAs (Decidable (guessEncoding raw = .utf8))
  | .cp437 => inferInstanceAs (Decidable (guessEncoding raw = .cp437))

/-- `zip_string_t`, without the converted string. An empty string is NULL. -/
structure ZipString where
  raw : Bytes
  encoding : StringEncoding
  nonempty : raw ≠ []
  short : raw.length < 65536
  suits : encoding.Suits raw
  deriving DecidableEq

namespace ZipString

/-- `_zip_string_new` with `ZIP_FL_ENC_GUESS`. -/
def new (raw : Bytes) : Option ZipString :=
  if kept : raw ≠ [] ∧ raw.length < 65536 then some ⟨raw, .unknown, kept.1, kept.2, trivial⟩
  else none

theorem suits_guessed (raw : Bytes) : (guessEncoding raw).guessed.Suits raw := by
  cases guess : guessEncoding raw <;> exact guess

/-- `_zip_guess_encoding` with `ZIP_ENCODING_UNKNOWN`: the string keeps what it
is guessed to be. -/
def guess (string : ZipString) : ZipString :=
  if string.encoding = .unknown then
    { string with
      encoding := (guessEncoding string.raw).guessed
      suits := suits_guessed string.raw }
  else string

/-- `_zip_guess_encoding` with `ZIP_ENCODING_UTF8_KNOWN`; `none` is
`ZIP_ENCODING_ERROR`. -/
def expectUtf8 (string : ZipString) : Option ZipString :=
  let guessed := string.guess
  if utf8 : guessed.encoding = .utf8Guessed then
    some { guessed with
      encoding := .utf8Known
      suits := by
        have suits := guessed.suits
        rw [utf8] at suits
        exact suits }
  else if guessed.encoding = .utf8Known || guessed.encoding = .ascii then some guessed
  else none

/-- What `_zip_guess_encoding` returns where nothing is expected. -/
def encodingOf : Option ZipString → StringEncoding
  | none => .ascii
  | some string => string.guess.encoding

def length : Option ZipString → Nat
  | none => 0
  | some string => string.raw.length

def bytes : Option ZipString → Bytes
  | none => []
  | some string => string.raw

end ZipString

structure HeaderFlags where
  inLocal : Bool
  inCentral : Bool
  deriving DecidableEq

namespace HeaderFlags

def both : HeaderFlags := ⟨true, true⟩

def of (isLocal : Bool) : HeaderFlags := ⟨isLocal, !isLocal⟩

def meets (flags other : HeaderFlags) : Bool :=
  (flags.inLocal && other.inLocal) || (flags.inCentral && other.inCentral)

end HeaderFlags

/-- `zip_extra_field_t`; a list of them is a chain by `next`. -/
structure ExtraField where
  id : UInt16
  data : Bytes
  flags : HeaderFlags
  short : data.length < 65536
  deriving DecidableEq

def efUtf8Comment : UInt16 := 0x6375
def efUtf8Name : UInt16 := 0x7075
def efWinzipAes : UInt16 := 0x9901
def efZip64 : UInt16 := 0x0001

def efIsInternal (id : UInt16) : Bool :=
  id = efUtf8Comment || id = efUtf8Name || id = efWinzipAes || id = efZip64

/-- `_zip_ef_get_by_id` for the first field of an id. -/
def efGetById (fields : List ExtraField) (id : UInt16) (flags : HeaderFlags) : Option Bytes :=
  (fields.find? fun field => field.id = id && field.flags.meets flags).map (·.data)

/-- `_zip_ef_size`, in 16 bits. -/
def efSize (fields : List ExtraField) (flags : HeaderFlags) : UInt16 :=
  fields.foldl (fun size field =>
    if field.flags.meets flags then size + 4 + UInt16.ofNat field.data.length else size) 0

def efWrite (fields : List ExtraField) (flags : HeaderFlags) : Bytes :=
  (fields.filter fun field => field.flags.meets flags).flatMap fun field =>
    put16 field.id ++ encodeLE 2 field.data.length ++ field.data

theorem length_take_two_bytes (length length' : UInt8) (rest : Bytes) :
    (rest.take (decodeLE [length, length'])).length < 65536 := by
  have bound := Binary.decode_le_lt [length, length']
  rw [List.length_take]
  simp only [List.length_cons, List.length_nil] at bound
  omega

/-- `_zip_ef_parse`. Up to three zero bytes at the end are padding. -/
def efParse (flags : HeaderFlags) : Bytes → Except ReadError (List ExtraField)
  | id :: id' :: length :: length' :: rest =>
      if decodeLE [length, length'] ≤ rest.length then do
        let fields ← efParse flags (rest.drop (decodeLE [length, length']))
        return ⟨UInt16.ofNat (decodeLE [id, id']), rest.take (decodeLE [length, length']), flags,
          length_take_two_bytes length length' rest⟩ :: fields
      else .error (.incons detailInvalidEfLength none)
  | garbage =>
      if garbage.all (· = 0) then .ok [] else .error (.incons detailEfTrailingGarbage none)
  termination_by data => data.length
  decreasing_by simp only [List.length_cons, List.length_drop]; omega

theorem ef_parse_cons (flags : HeaderFlags) (id id' length length' : UInt8) (rest : Bytes) :
    efParse flags (id :: id' :: length :: length' :: rest) =
      if decodeLE [length, length'] ≤ rest.length then
        (efParse flags (rest.drop (decodeLE [length, length']))).map fun fields =>
          ⟨UInt16.ofNat (decodeLE [id, id']), rest.take (decodeLE [length, length']), flags,
            length_take_two_bytes length length' rest⟩ :: fields
      else .error (.incons detailInvalidEfLength none) := by
  rw [efParse]
  rfl

@[simp] theorem ef_parse_nil (flags : HeaderFlags) : efParse flags [] = .ok [] := by
  rw [efParse]
  · rfl
  · intro id id' length length' rest same
    cases same

def efRemoveInternal (fields : List ExtraField) : List ExtraField :=
  fields.filter fun field => !efIsInternal field.id

end FileTransfer
