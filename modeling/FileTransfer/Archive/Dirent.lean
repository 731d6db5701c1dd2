import FileTransfer.Archive.HeaderFields

/-!
# Directory entries

`zip_dirent_t` of libzip 1.9.2 with `_zip_dirent_write` and `_zip_dirent_read`,
for the local header and the entry of the central directory. What they take
from outside libzip, the broken-down time and the checksum, is a parameter.
-/

namespace FileTransfer

set_option autoImplicit false

open Binary (encodeLE decodeLE Cursor)

structure Tm where
  year : Int
  mon : Int
  mday : Int
  hour : Int
  min : Int
  sec : Int
  deriving DecidableEq

structure Platform where
  localtime : Int → Option Tm
  mktime : Tm → Int
  crc32 : Bytes → UInt32

/-- `_zip_u2d_time`: the time and the date. -/
def Platform.u2dTime (platform : Platform) (intime : Int) : UInt16 × UInt16 :=
  match platform.localtime intime with
  | none => (0, (1 : UInt16) <<< 5 + 1)
  | some tm =>
      let year := if tm.year < 80 then 80 else tm.year
      (UInt16.ofInt (tm.hour * 2 ^ 11 + tm.min * 2 ^ 5 + tm.sec / 2),
        UInt16.ofInt ((year + 1900 - 1980) * 2 ^ 9 + (tm.mon + 1) * 2 ^ 5 + tm.mday))

def Platform.d2uTime (platform : Platform) (dtime ddate : UInt16) : Int :=
  platform.mktime
    { year := ((ddate >>> 9) &&& 127).toNat + 1980 - 1900
      mon := ((ddate >>> 5) &&& 15).toNat - 1
      mday := (ddate &&& 31).toNat
      hour := ((dtime >>> 11) &&& 31).toNat
      min := ((dtime >>> 5) &&& 63).toNat
      sec := ((dtime <<< 1) &&& 62).toNat }

inductive EncryptionMethod where
  | none
  | tradPkware
  | aes128
  | aes192
  | aes256
  | unknown
  deriving DecidableEq

/-- The low byte of the method for the WinZip AES ones. -/
def EncryptionMethod.aesMode : EncryptionMethod → Option UInt8
  | .aes128 => some 1
  | .aes192 => some 2
  | .aes256 => some 3
  | .none | .tradPkware | .unknown => Option.none

/-- `zip_dirent_t`, without what is neither written nor read: the compression
level, the password, and which parts are shared or changed. -/
structure Dirent where
  localExtraFieldsRead : Bool
  crcValid : Bool
  versionMadeby : UInt16
  versionNeeded : UInt16
  bitflags : UInt16
  compMethod : Int
  lastMod : Int
  crc : UInt32
  compSize : UInt64
  uncompSize : UInt64
  filename : Option ZipString
  extraFields : List ExtraField
  comment : Option ZipString
  diskNumber : UInt32
  intAttrib : UInt16
  extAttrib : UInt32
  offset : UInt64
  encryptionMethod : EncryptionMethod
  deriving DecidableEq

def gpbfEncrypted : UInt16 := 0x0001
def gpbfStrongEncryption : UInt16 := 0x0040
def gpbfEncodingUtf8 : UInt16 := 0x0800

def cmWinzipAes : UInt16 := 99

def uint32Max : UInt64 := 0xffffffff
def uint16Max : UInt32 := 0xffff
def int64Max : UInt64 := 0x7fffffffffffffff

def localMagic : Bytes := [0x50, 0x4b, 3, 4]
def centralMagic : Bytes := [0x50, 0x4b, 1, 2]

def entrySize (isLocal : Bool) : Nat := if isLocal then 30 else 46

namespace Dirent

/-- `ZIP_FL_LOCAL` or `ZIP_FL_CENTRAL`, and `ZIP_FL_FORCE_ZIP64`. -/
structure WriteFlags where
  isLocal : Bool
  forceZip64 : Bool
  deriving DecidableEq

variable (platform : Platform) (de : Dirent) (flags : WriteFlags)

def needsZip64 : Bool :=
  uint32Max ≤ de.uncompSize || uint32Max ≤ de.compSize ||
    (!flags.isLocal && uint32Max ≤ de.offset)

/-- Name and comment are both known to be UTF-8, or one is and the other ASCII. -/
def encodesUtf8 : Bool :=
  let nameEnc := ZipString.encodingOf de.filename
  let comEnc := ZipString.encodingOf de.comment
  (nameEnc = .utf8Known && comEnc = .ascii) || (nameEnc = .ascii && comEnc = .utf8Known) ||
    (nameEnc = .utf8Known && comEnc = .utf8Known)

/-- The entry with the two flags that `_zip_dirent_write` sets or clears. -/
def flagged : Dirent :=
  let encoded :=
    if de.encodesUtf8 then de.bitflags ||| gpbfEncodingUtf8
    else de.bitflags &&& ~~~gpbfEncodingUtf8
  { de with
    bitflags :=
      if de.encryptionMethod = .none then encoded &&& ~~~gpbfEncrypted
      else encoded ||| gpbfEncrypted }

/-- `_zip_ef_utf8`, if the string is known to be UTF-8; `none` for `ZIP_ER_INVAL`. -/
def efUtf8 (id : UInt16) : Option ZipString → Option (List ExtraField)
  | none => some []
  | some string =>
      if string.guess.encoding = .utf8Known then
        if fits : string.raw.length + 5 ≤ 65535 then
          some [⟨id, 1 :: (put32 (platform.crc32 string.raw) ++ string.raw), .both,
            by simp [put32]; omega⟩]
        else none
      else some []

def utf8Fields : Option (List ExtraField) :=
  if de.encodesUtf8 then some []
  else do
    let name ← efUtf8 platform efUtf8Name de.filename
    let comment ← efUtf8 platform efUtf8Comment (if flags.isLocal then none else de.comment)
    return comment ++ name

/-- The data of the Zip64 extra field. It is empty if no number exceeds 32 bits. -/
def zip64Data : Bytes :=
  if flags.isLocal then
    if flags.forceZip64 || uint32Max < de.compSize || uint32Max < de.uncompSize then
      put64 de.uncompSize ++ put64 de.compSize
    else []
  else
    if flags.forceZip64 || uint32Max < de.compSize || uint32Max < de.uncompSize ||
        uint32Max < de.offset then
      (if uint32Max ≤ de.uncompSize then put64 de.uncompSize else []) ++
        (if uint32Max ≤ de.compSize then put64 de.compSize else []) ++
        (if uint32Max ≤ de.offset then put64 de.offset else [])
    else []

theorem length_zip64_data : (de.zip64Data flags).length ≤ 24 := by
  unfold zip64Data put64
  split <;> split <;> simp
  split <;> split <;> split <;> simp

def isZip64 : Bool := (flags.isLocal && flags.forceZip64) || de.needsZip64 flags

def zip64Fields : List ExtraField :=
  if de.isZip64 flags then
    [⟨efZip64, de.zip64Data flags, .both, by have := de.length_zip64_data flags; omega⟩]
  else []

def winzipAesFields : List ExtraField :=
  match de.encryptionMethod.aesMode with
  | some mode =>
      [⟨efWinzipAes, put16 2 ++ ascii "AE" ++ [mode] ++ put16 (UInt16.ofInt de.compMethod), .both,
        by simp [put16, ascii]⟩]
  | none => []

/-- The extra fields `_zip_dirent_write` makes, in the order it writes them. -/
def internalFields : Option (List ExtraField) :=
  (de.utf8Fields platform flags).map fun utf8 =>
    de.winzipAesFields ++ (de.zip64Fields flags ++ utf8)

def clamp (size : UInt64) : UInt32 := if size < uint32Max then size.toUInt32 else 0xffffffff

/-- The compressed and the uncompressed size. A local header that cannot have
one of them has neither. -/
def sizesWritten : UInt32 × UInt32 :=
  if flags.isLocal && (uint32Max ≤ de.compSize || uint32Max ≤ de.uncompSize) then
    (0xffffffff, 0xffffffff)
  else (clamp de.compSize, clamp de.uncompSize)

def versionWritten : UInt16 :=
  if de.needsZip64 flags && de.versionNeeded ≤ 45 then 45 else de.versionNeeded

def compMethodWritten : UInt16 :=
  if de.encryptionMethod.aesMode.isSome then cmWinzipAes else UInt16.ofInt de.compMethod

/-- An AES entry of less than 20 bytes gets no checksum. -/
def crcWritten : UInt32 :=
  if de.encryptionMethod.aesMode.isSome && de.uncompSize < 20 then 0 else de.crc

def putHeader (efTotalSize : UInt16) : Bytes :=
  (if flags.isLocal then [] else put16 de.versionMadeby) ++
  [put16 (de.versionWritten flags), put16 de.bitflags, put16 de.compMethodWritten,
    put16 (platform.u2dTime de.lastMod).1, put16 (platform.u2dTime de.lastMod).2,
    put32 de.crcWritten, put32 (de.sizesWritten flags).1, put32 (de.sizesWritten flags).2,
    put16 (UInt16.ofNat (ZipString.length de.filename)), put16 efTotalSize].flatten ++
  if flags.isLocal then []
  else
    [put16 (UInt16.ofNat (ZipString.length de.comment)), put16 de.diskNumber.toUInt16,
      put16 de.intAttrib, put32 de.extAttrib, put32 (clamp de.offset)].flatten

/-- `_zip_dirent_write`: the bytes written, and whether there is a Zip64 extra
field among them. -/
def write : Option (Bytes × Bool) :=
  (de.internalFields platform flags).map fun internal =>
    ([if flags.isLocal then localMagic else centralMagic,
      de.flagged.putHeader platform flags
        (efSize de.extraFields (.of flags.isLocal) + efSize internal .both),
      ZipString.bytes de.filename,
      efWrite internal .both ++ efWrite de.extraFields (.of flags.isLocal),
      if flags.isLocal then [] else ZipString.bytes de.comment].flatten, de.isZip64 flags)

def encryptionOf (bitflags : UInt16) : EncryptionMethod :=
  if bitflags &&& gpbfEncrypted ≠ 0 then
    if bitflags &&& gpbfStrongEncryption ≠ 0 then .unknown else .tradPkware
  else .none

open ZipBuffer in
/-- The part of fixed length: the entry, and the lengths of its name, its extra
fields and its comment. -/
def readHeader (isLocal : Bool) : StateM ZipBuffer (Dirent × UInt16 × UInt16 × UInt16) := do
  let versionMadeby ← if isLocal then pure 0 else get16
  let versionNeeded ← get16
  let bitflags ← get16
  let compMethod ← get16
  let dostime ← get16
  let dosdate ← get16
  let crc ← get32
  let compSize ← get32
  let uncompSize ← get32
  let filenameLen ← get16
  let efLen ← get16
  let commentLen ← if isLocal then pure 0 else get16
  let diskNumber ← if isLocal then pure 0 else get16
  let intAttrib ← if isLocal then pure 0 else get16
  let extAttrib ← if isLocal then pure 0 else get32
  let offset ← if isLocal then pure 0 else get32
  return ({
    localExtraFieldsRead := false
    crcValid := true
    versionMadeby, versionNeeded, bitflags
    compMethod := compMethod.toNat
    lastMod := platform.d2uTime dostime dosdate
    crc
    compSize := compSize.toUInt64
    uncompSize := uncompSize.toUInt64
    filename := none
    extraFields := []
    comment := none
    diskNumber := diskNumber.toUInt32
    intAttrib, extAttrib
    offset := offset.toUInt64
    encryptionMethod := encryptionOf bitflags }, filenameLen, efLen, commentLen)

end Dirent

/-- `_zip_read_string` and the check of a string that is marked as UTF-8. With
`nulp` NUL bytes become spaces. -/
def readString (len : Nat) (nulp isUtf8 : Bool) (detail : Nat) (buffer : ZipBuffer) :
    Except ReadError (Option ZipString × ZipBuffer) :=
  if len = 0 then .ok (none, buffer)
  else
    match buffer.get len with
    | (none, _) => .error .memory
    | (some data, buffer) =>
        match ZipString.new
            (if nulp then data.map fun byte => if byte = 0 then 32 else byte else data) with
        | none => .error .memory
        | some string =>
            if isUtf8 then
              match string.expectUtf8 with
              | none => .error (.incons detail none)
              | some known => .ok (some known, buffer)
            else .ok (some string, buffer)

/-- `_zip_read_data` and `_zip_ef_parse`. -/
def readExtraFields (len : Nat) (flags : HeaderFlags) (buffer : ZipBuffer) :
    Except ReadError (List ExtraField × ZipBuffer) :=
  if len = 0 then .ok ([], buffer)
  else
    match buffer.get len with
    | (none, _) => .error .memory
    | (some data, buffer) => (efParse flags data).map fun fields => (fields, buffer)

def processEfUtf8 (platform : Platform) (fields : List ExtraField) (id : UInt16)
    (string : Option ZipString) : Option ZipString :=
  match efGetById fields id .both with
  | none => string
  | some ef =>
      if ef.length < 5 || ef.headD 0 ≠ 1 then string
      else if platform.crc32 (ZipString.bytes string) =
          UInt32.ofNat (decodeLE ((ef.drop 1).take 4)) then
        ((ZipString.new (ef.drop 5)).bind (·.expectUtf8)).or string
      else string

namespace Dirent

/-- A number that is all ones is taken from the Zip64 field. -/
def zip64Number (size : UInt64) : StateM ZipBuffer UInt64 :=
  if size = uint32Max then ZipBuffer.get64 else pure size

def zip64Disk (disk : UInt32) : StateM ZipBuffer UInt32 :=
  if disk = uint16Max then ZipBuffer.get32 else pure disk

def readZip64Data (isLocal : Bool) (de : Dirent) : StateM ZipBuffer Dirent := do
  -- a local header has both sizes there even if it needs only one
  modify fun buffer =>
    if isLocal && de.uncompSize ≠ uint32Max then buffer.setOffset (buffer.offset + 8) else buffer
  let uncompSize ← zip64Number de.uncompSize
  let compSize ← zip64Number de.compSize
  if isLocal then return { de with uncompSize, compSize }
  let offset ← zip64Number de.offset
  let diskNumber ← zip64Disk de.diskNumber
  return { de with uncompSize, compSize, offset, diskNumber }

open ZipBuffer in
/-- More data than needed is accepted if the values match. -/
def acceptsZip64Data (de : Dirent) (gotLen : Nat) (buffer : ZipBuffer) : Bool :=
  let (disk, buffer) := get32.run (buffer.setOffset 24)
  let (sizes, _) := (do return (← get64, ← get64, ← get64) : StateM ZipBuffer _).run
    (buffer.setOffset 0)
  (gotLen = 24 || (gotLen = 28 && de.diskNumber = disk)) &&
    sizes = (de.uncompSize, de.compSize, de.offset)

def readZip64 (isLocal : Bool) (de : Dirent) : Except ReadError Dirent :=
  if de.uncompSize = uint32Max || de.compSize = uint32Max || de.offset = uint32Max then
    match efGetById de.extraFields efZip64 (.of isLocal) with
    | none => .error .noEntry
    | some ef =>
        let (de, buffer) := (de.readZip64Data isLocal).run (.start ef)
        if buffer.eof || de.acceptsZip64Data ef.length buffer then .ok de
        else .error (.incons detailInvalidZip64Ef none)
  else .ok de

def processWinzipAes (de : Dirent) : Except ReadError Dirent :=
  if de.compMethod ≠ cmWinzipAes.toNat then .ok de
  else
    match efGetById de.extraFields efWinzipAes .both with
    | none => .error (.incons detailInvalidWinzipAesEf none)
    | some ef =>
        if ef.length < 7 then .error (.incons detailInvalidWinzipAesEf none)
        else if decodeLE (ef.take 2) ≠ 1 && decodeLE (ef.take 2) ≠ 2 then
          .error .encryptionNotSupported
        else if (ef.drop 2).take 2 ≠ ascii "AE" then .error .encryptionNotSupported
        else
          let method : Option EncryptionMethod := match (ef.getD 4 0).toNat with
            | 1 => some .aes128
            | 2 => some .aes192
            | 3 => some .aes256
            | _ => none
          match method with
          | none => .error .encryptionNotSupported
          | some method =>
              if ef.length ≠ 7 then .error (.incons detailInvalidWinzipAesEf none)
              else .ok { de with
                crcValid := decodeLE (ef.take 2) = 1
                encryptionMethod := method
                compMethod := decodeLE ((ef.drop 5).take 2) }

/-- Where an entry is read from: a buffer, or the source at a position. -/
inductive Input where
  | buffer (buffer : ZipBuffer)
  | source (position : Nat)
  deriving DecidableEq

/-- `_zip_buffer_new_from_source`, the source having the bytes of `file`. -/
def newFromSource (file : Bytes) (position size : Nat) : Except ReadError ZipBuffer :=
  if size ≤ (file.drop position).length then .ok (.start ((file.drop position).take size))
  else .error .eof

def Input.fixedPart (file : Bytes) (size : Nat) : Input → Except ReadError ZipBuffer
  | .buffer given => if given.left < size then .error .noZip else .ok given
  | .source position => newFromSource file position size

/-- The buffer with the strings and the extra fields, `buffer` being the one
the part of fixed length was read from. -/
def Input.variablePart (file : Bytes) (size variableSize : Nat) (buffer : ZipBuffer) :
    Input → Except ReadError ZipBuffer
  | .buffer _ =>
      if buffer.left < variableSize then .error (.incons detailVariableSizeOverflow none)
      else .ok buffer
  | .source position => newFromSource file (position + size) variableSize

def Input.behind (size : Nat) (buffer : ZipBuffer) : Input → Input
  | .buffer _ => .buffer buffer
  | .source position => .source (position + size)

/-- The last steps, once the numbers are complete. -/
def finish (de : Dirent) : Except ReadError Dirent :=
  -- a source cannot be set to such an offset
  if int64Max < de.offset then .error .seek
  else de.processWinzipAes.map fun de =>
    { de with extraFields := efRemoveInternal de.extraFields }

def readVariable (platform : Platform) (isLocal : Bool) (de : Dirent)
    (filenameLen efLen commentLen : UInt16) (buffer : ZipBuffer) :
    Except ReadError (Dirent × ZipBuffer) := do
  let isUtf8 := decide (de.bitflags &&& gpbfEncodingUtf8 ≠ 0)
  let (filename, buffer) ←
    readString filenameLen.toNat true isUtf8 detailInvalidUtf8InFilename buffer
  let (extraFields, buffer) ← readExtraFields efLen.toNat (.of isLocal) buffer
  let (comment, buffer) ←
    readString commentLen.toNat false isUtf8 detailInvalidUtf8InComment buffer
  return ({ de with
    extraFields
    localExtraFieldsRead := isLocal && efLen ≠ 0
    filename := processEfUtf8 platform extraFields efUtf8Name filename
    comment := processEfUtf8 platform extraFields efUtf8Comment comment }, buffer)

/-- `_zip_dirent_read`: the entry, its size, and where the next one is. -/
def read (platform : Platform) (file : Bytes) (isLocal : Bool) (input : Input) :
    Except ReadError (Dirent × Nat × Input) := do
  let size := entrySize isLocal
  let buffer ← input.fixedPart file size
  let (magic, buffer) := buffer.get 4
  if magic ≠ some (if isLocal then localMagic else centralMagic) then .error .noZip
  else
    let ((de, filenameLen, efLen, commentLen), buffer) := (readHeader platform isLocal).run buffer
    if !buffer.ok then .error .internal
    else do
      let variableSize := filenameLen.toNat + efLen.toNat + commentLen.toNat
      let buffer ← input.variablePart file size variableSize buffer
      let (de, buffer) ← de.readVariable platform isLocal filenameLen efLen commentLen buffer
      let de ← de.readZip64 isLocal
      if !buffer.ok then .error .internal
      else do
        let de ← de.finish
        return (de, size + variableSize, input.behind (size + variableSize) buffer)

end Dirent

end FileTransfer
