import FileTransfer.Archive.HeaderFields
import FileTransfer.Archive.Dirent

/-!
# Numbers, strings and extra fields are read as they were written

The parts of a directory entry one by one.
-/

namespace FileTransfer

set_option autoImplicit false

open Binary (encodeLE decodeLE Cursor)
open Binary.Cursor (Reads reads_pure)

namespace ZipBuffer

theorem reads_number {width value : Nat} (fits : value < 256 ^ width) :
    Reads (getNumber width) (encodeLE width value) value := by
  intro cursor rest at'
  have length := Binary.length_encode_le width value
  have got := at'.get
  have data : (cursor.get (encodeLE width value).length).2.data = cursor.data :=
    Cursor.data_get _
  rw [length] at got data
  unfold getNumber
  generalize cursor.get width = taken at got data
  obtain ⟨number, behind⟩ := taken
  obtain ⟨rfl, at''⟩ := got
  exact ⟨Binary.decode_encode_le_of_lt fits, at'', data⟩

theorem reads_map {β γ : Type} {reader : StateM ZipBuffer β} {input : Bytes} {value : β}
    (reads : Reads reader input value) (f : β → γ) :
    Reads (do return f (← reader)) input (f value) := by
  have mapped : Reads (do return f (← reader)) (input ++ []) (f value) :=
    reads.bind (reads_pure (f value))
  rwa [List.append_nil] at mapped

theorem reads_get16 (i : UInt16) : Reads get16 (put16 i) i := by
  have fits : i.toNat < 256 ^ 2 := by
    have bound := i.toNat_lt
    omega
  have reads := reads_map (reads_number fits) UInt16.ofNat
  rwa [UInt16.ofNat_toNat] at reads

theorem reads_get32 (i : UInt32) : Reads get32 (put32 i) i := by
  have fits : i.toNat < 256 ^ 4 := by
    have bound := i.toNat_lt
    omega
  have reads := reads_map (reads_number fits) UInt32.ofNat
  rwa [UInt32.ofNat_toNat] at reads

theorem reads_get64 (i : UInt64) : Reads get64 (put64 i) i := by
  have fits : i.toNat < 256 ^ 8 := by
    have bound := i.toNat_lt
    omega
  have reads := reads_map (reads_number fits) UInt64.ofNat
  rwa [UInt64.ofNat_toNat] at reads

end ZipBuffer

@[simp] theorem length_put16 (i : UInt16) : (put16 i).length = 2 := Binary.length_encode_le ..
@[simp] theorem length_put32 (i : UInt32) : (put32 i).length = 4 := Binary.length_encode_le ..
@[simp] theorem length_put64 (i : UInt64) : (put64 i).length = 8 := Binary.length_encode_le ..

def ExtraField.marked (field : ExtraField) (flags : HeaderFlags) : ExtraField :=
  { field with flags := flags }

theorem ef_write_cons (field : ExtraField) (fields : List ExtraField) (flags : HeaderFlags) :
    efWrite (field :: fields) flags =
      (if field.flags.meets flags then
        put16 field.id ++ encodeLE 2 field.data.length ++ field.data else []) ++
        efWrite fields flags := by
  unfold efWrite
  by_cases meets : field.flags.meets flags = true
  · simp only [List.filter_cons, if_pos meets, List.flatMap_cons]
  · simp only [List.filter_cons, if_neg meets, List.nil_append]

theorem two_bytes (value : Nat) : ∃ low high, encodeLE 2 value = [low, high] :=
  ⟨_, _, rfl⟩

theorem ef_parse_field (id : UInt16) {data : Bytes} (short : data.length < 65536)
    (flags : HeaderFlags) (rest : Bytes) :
    efParse flags (put16 id ++ encodeLE 2 data.length ++ data ++ rest) =
      (efParse flags rest).map fun fields => ⟨id, data, flags, short⟩ :: fields := by
  obtain ⟨id₀, id₁, idBytes⟩ := two_bytes id.toNat
  obtain ⟨len₀, len₁, lenBytes⟩ := two_bytes data.length
  have idValue : decodeLE [id₀, id₁] = id.toNat := by
    rw [← idBytes]
    exact Binary.decode_encode_le_of_lt id.toNat_lt
  have lenValue : decodeLE [len₀, len₁] = data.length := by
    rw [← lenBytes]
    exact Binary.decode_encode_le_of_lt short
  have whole : put16 id ++ encodeLE 2 data.length ++ data ++ rest =
      id₀ :: id₁ :: len₀ :: len₁ :: (data ++ rest) := by
    rw [put16, idBytes, lenBytes]
    simp
  rw [whole, ef_parse_cons]
  have fits : decodeLE [len₀, len₁] ≤ (data ++ rest).length := by
    rw [lenValue, List.length_append]
    omega
  rw [if_pos fits]
  simp only [lenValue, idValue, List.drop_left, List.take_left, UInt16.ofNat_toNat]

theorem ef_parse_write (fields : List ExtraField) (flags : HeaderFlags) (rest : Bytes)
    (of : HeaderFlags) :
    efParse of (efWrite fields flags ++ rest) =
      (efParse of rest).map fun behind =>
        (fields.filter fun field => field.flags.meets flags).map (·.marked of) ++ behind := by
  induction fields with
  | nil =>
      change efParse of rest = _
      cases efParse of rest <;> rfl
  | cons field fields ih =>
      rw [ef_write_cons]
      by_cases meets : field.flags.meets flags = true
      · rw [if_pos meets, List.append_assoc, ef_parse_field field.id field.short, ih]
        simp only [List.filter_cons, if_pos meets]
        cases efParse of rest <;> rfl
      · rw [if_neg meets, List.nil_append, ih]
        simp only [List.filter_cons, if_neg meets]

theorem ef_size_eq (fields : List ExtraField) (flags : HeaderFlags) :
    (efSize fields flags).toNat = (efWrite fields flags).length % 65536 := by
  have step : ∀ size : UInt16, (fields.foldl (fun size field =>
      if field.flags.meets flags then size + 4 + UInt16.ofNat field.data.length else size)
        size).toNat = (size.toNat + (efWrite fields flags).length) % 65536 := by
    induction fields with
    | nil =>
        intro size
        have bound := size.toNat_lt
        simp only [List.foldl_nil, efWrite, List.filter_nil, List.flatMap_nil, List.length_nil]
        omega
    | cons field fields ih =>
        intro size
        rw [List.foldl_cons, ih, ef_write_cons]
        by_cases meets : field.flags.meets flags = true
        · simp only [if_pos meets, List.length_append, length_put16, Binary.length_encode_le,
            UInt16.toNat_add, UInt16.toNat_ofNat', UInt16.reduceToNat]
          omega
        · rw [if_neg meets, if_neg meets, List.nil_append]
  have total := step 0
  rwa [UInt16.toNat_zero, Nat.zero_add] at total

theorem ef_write_append (fields others : List ExtraField) (flags : HeaderFlags) :
    efWrite (fields ++ others) flags = efWrite fields flags ++ efWrite others flags := by
  simp [efWrite]

theorem ef_write_both {fields : List ExtraField} (both : ∀ field ∈ fields, field.flags = .both)
    (isLocal : Bool) : efWrite fields (.of isLocal) = efWrite fields .both := by
  unfold efWrite
  have meets : ∀ field ∈ fields, field.flags.meets (.of isLocal) = field.flags.meets .both := by
    intro field member
    rw [both field member]
    cases isLocal <;> rfl
  rw [List.filter_congr meets]

theorem ZipString.length_eq (string : Option ZipString) :
    ZipString.length string = (ZipString.bytes string).length := by
  cases string <;> rfl

theorem ZipString.to_nat_length (string : Option ZipString) :
    (UInt16.ofNat (ZipString.length string)).toNat = ZipString.length string := by
  rw [UInt16.toNat_ofNat', Nat.mod_eq_of_lt]
  cases string with
  | none => exact (by decide : 0 < 2 ^ 16)
  | some kept => exact kept.short

namespace ZipString

theorem eq_of {left right : ZipString} (raw : left.raw = right.raw)
    (encoding : left.encoding = right.encoding) : left = right := by
  cases left
  cases right
  simp_all

@[simp] theorem raw_guess (string : ZipString) : string.guess.raw = string.raw := by
  unfold guess
  split <;> rfl

def unmarked (string : ZipString) : ZipString :=
  { string with encoding := .unknown, suits := trivial }

theorem new_raw (string : ZipString) : new string.raw = some string.unmarked := by
  rw [new, dif_pos ⟨string.nonempty, string.short⟩]
  rfl

theorem guess_unmarked (string : ZipString) :
    string.unmarked.guess.encoding = (guessEncoding string.raw).guessed := rfl

theorem expect_unmarked {string : ZipString}
    (valid : string.guess.encoding = .ascii ∨ string.guess.encoding = .utf8Known) :
    string.unmarked.expectUtf8 = some string.guess := by
  have suits := string.guess.suits
  rw [raw_guess] at suits
  have read := string.guess_unmarked
  unfold expectUtf8
  rcases valid with ascii | known
  · rw [ascii] at suits
    have plain : string.unmarked.guess.encoding = .ascii := by
      rw [read, show guessEncoding string.raw = .ascii from suits]
      rfl
    rw [dif_neg (by rw [plain]; decide), if_pos (by rw [plain]; rfl)]
    exact congrArg some (eq_of (by simp [unmarked]) (plain.trans ascii.symm))
  · rw [known] at suits
    have utf8 : string.unmarked.guess.encoding = .utf8Guessed := by
      rw [read, show guessEncoding string.raw = .utf8 from suits]
      rfl
    rw [dif_pos utf8]
    exact congrArg some (eq_of (by simp [unmarked]) known.symm)

/-- The string as it is read from a part that is or is not marked as UTF-8. -/
def reread (isUtf8 : Bool) (string : ZipString) : ZipString :=
  if isUtf8 then string.guess else string.unmarked

/-- The string as it is read back: one that is known to be UTF-8 stays so. -/
def readBack (encodes : Bool) (string : ZipString) : ZipString :=
  string.reread (encodes || string.guess.encoding = .utf8Known)

theorem raw_reread (isUtf8 : Bool) (string : ZipString) :
    (string.reread isUtf8).raw = string.raw := by
  unfold reread
  split
  · exact raw_guess string
  · rfl

end ZipString

theorem spaces_of_nul_free {raw : Bytes} (nulFree : 0 ∉ raw) :
    (raw.map fun byte => if byte = 0 then 32 else byte) = raw := by
  have kept : ∀ byte ∈ raw, (if byte = 0 then 32 else byte) = id byte := by
    intro byte member
    apply if_neg
    rintro rfl
    exact nulFree member
  rw [List.map_congr_left kept, List.map_id]

section

variable {buffer : ZipBuffer} {rest : Bytes}

theorem read_string (string : Option ZipString) (nulp isUtf8 : Bool) (detail : Nat)
    (nulFree : nulp = true → ∀ kept ∈ string, 0 ∉ kept.raw)
    (valid : isUtf8 = true → ∀ kept ∈ string,
      kept.guess.encoding = .ascii ∨ kept.guess.encoding = .utf8Known)
    (at' : buffer.At (ZipString.bytes string ++ rest)) :
    ∃ behind, readString (ZipString.length string) nulp isUtf8 detail buffer =
      .ok (string.map (·.reread isUtf8), behind) ∧ behind.At rest := by
  cases string with
  | none => exact ⟨buffer, rfl, at'⟩
  | some kept =>
      have nonempty : kept.raw.length ≠ 0 := fun none =>
        kept.nonempty (List.eq_nil_of_length_eq_zero none)
      obtain ⟨got, at''⟩ := at'.get
      unfold readString
      rw [ZipString.length, if_neg nonempty]
      change (buffer.get kept.raw.length).1 = some kept.raw at got
      change (buffer.get kept.raw.length).2.At rest at at''
      generalize buffer.get kept.raw.length = taken at got at''
      obtain ⟨data, behind⟩ := taken
      cases got
      have same : (if nulp then kept.raw.map fun byte => if byte = 0 then 32 else byte
          else kept.raw) = kept.raw := by
        cases nulp with
        | false => rfl
        | true => exact spaces_of_nul_free (nulFree rfl kept rfl)
      refine ⟨behind, ?_, at''⟩
      simp only [same, ZipString.new_raw]
      cases isUtf8 with
      | false => rfl
      | true =>
          simp only [if_true, ZipString.expect_unmarked (valid rfl kept rfl)]
          rfl

theorem read_extra_fields {data : Bytes} {flags : HeaderFlags} {fields : List ExtraField}
    (parses : efParse flags data = .ok fields) (at' : buffer.At (data ++ rest)) :
    ∃ behind, readExtraFields data.length flags buffer = .ok (fields, behind) ∧
      behind.At rest := by
  unfold readExtraFields
  by_cases empty : data.length = 0
  · have nothing := List.eq_nil_of_length_eq_zero empty
    rw [nothing, ef_parse_nil] at parses
    cases parses
    rw [nothing] at at'
    exact ⟨buffer, by rw [if_pos empty], at'⟩
  · obtain ⟨got, at''⟩ := at'.get
    rw [if_neg empty]
    generalize buffer.get data.length = taken at got at''
    obtain ⟨read, behind⟩ := taken
    cases got
    exact ⟨behind, by simp only [parses]; rfl, at''⟩

end

def dataOf (fields : List ExtraField) (id : UInt16) : Option Bytes :=
  (fields.find? fun field => field.id = id).map (·.data)

theorem data_of_append (fields others : List ExtraField) (id : UInt16) :
    dataOf (fields ++ others) id = (dataOf fields id).or (dataOf others id) := by
  unfold dataOf
  rw [List.find?_append, Option.map_or]

theorem data_of_other {fields : List ExtraField} {id : UInt16}
    (other : ∀ field ∈ fields, field.id ≠ id) : dataOf fields id = none := by
  unfold dataOf
  rw [List.find?_eq_none.mpr, Option.map_none]
  intro field member
  simpa using other field member

theorem ef_get_marked (fields : List ExtraField) (id : UInt16) {of flags : HeaderFlags}
    (meets : of.meets flags = true) :
    efGetById (fields.map (·.marked of)) id flags = dataOf fields id := by
  unfold efGetById dataOf
  rw [List.find?_map, Option.map_map]
  have same : (fun field : ExtraField => field.id = id && field.flags.meets flags) ∘
      (fun field : ExtraField => field.marked of) = fun field => decide (field.id = id) := by
    funext field
    simp [ExtraField.marked, meets]
  rw [same]
  rfl

theorem of_meets_both (isLocal : Bool) : (HeaderFlags.of isLocal).meets .both = true := by
  cases isLocal <;> rfl

theorem of_meets_of (isLocal : Bool) : (HeaderFlags.of isLocal).meets (.of isLocal) = true := by
  cases isLocal <;> rfl

end FileTransfer
