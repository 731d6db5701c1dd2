import FileTransfer.Archive.Dirent

/-!
# The central directory

`_zip_cdir_write`, and how `_zip_open` finds the directory again:
`_zip_find_central_dir`, `_zip_read_cdir`, `_zip_read_eocd`, `_zip_read_eocd64`
and `_zip_checkcons` of libzip 1.9.2. `ZIP_CHECKCONS` is never passed; the file
is given as its bytes, so reading and seeking do not fail.
-/

namespace FileTransfer

set_option autoImplicit false

open Binary (encodeLE Cursor)
open ZipBuffer (getNumber)

def eocdMagic : Bytes := [0x50, 0x4b, 5, 6]
def eocd64LocMagic : Bytes := [0x50, 0x4b, 6, 7]
def eocd64Magic : Bytes := [0x50, 0x4b, 6, 6]

def eocdLen : Nat := 22
def eocd64LocLen : Nat := 20
def eocd64Len : Nat := 56
def cdBufSize : Nat := 65536 + eocdLen + eocd64LocLen

structure Cdir where
  entry : List Dirent
  nentry : Nat
  size : Nat
  offset : Nat
  comment : Option ZipString
  isZip64 : Bool
  deriving DecidableEq

/-- The entries one after the other, and whether one has a Zip64 field. -/
def writeEntries (platform : Platform) : List Dirent → Option (Bytes × Bool)
  | [] => some ([], false)
  | de :: entries => do
      let (bytes, is64) ← de.write platform ⟨false, false⟩
      let (more, more64) ← writeEntries platform entries
      return (bytes ++ more, is64 || more64)

def putEocd64 (survivors size offset : Nat) : Bytes :=
  [eocd64Magic, encodeLE 8 (eocd64Len - 12), encodeLE 2 45, encodeLE 2 45, encodeLE 4 0,
    encodeLE 4 0, encodeLE 8 survivors, encodeLE 8 survivors, encodeLE 8 size, encodeLE 8 offset,
    eocd64LocMagic, encodeLE 4 0, encodeLE 8 (offset + size), encodeLE 4 1].flatten

def putEocd (survivors size offset : Nat) (comment : Option ZipString) : Bytes :=
  [eocdMagic, encodeLE 4 0, encodeLE 2 (min survivors 65535), encodeLE 2 (min survivors 65535),
    encodeLE 4 (min size 0xffffffff), encodeLE 4 (min offset 0xffffffff),
    encodeLE 2 (ZipString.length comment)].flatten

/-- `_zip_cdir_write` at an offset: the bytes, and the size it returns. -/
def cdirWrite (platform : Platform) (offset : Nat) (entries : List Dirent)
    (comment : Option ZipString) : Option (Bytes × Nat) :=
  (writeEntries platform entries).map fun (bytes, any64) =>
    let isZip64 := any64 || 0xffffffff < offset || 65535 < entries.length
    (bytes ++ ((if isZip64 then putEocd64 entries.length bytes.length offset else []) ++
      (putEocd entries.length bytes.length offset comment ++ ZipString.bytes comment)),
      bytes.length)

def bufferAt (data : Bytes) (offset : Nat) : ZipBuffer := (Cursor.start data).setOffset offset

/-- The disks, the two counts of entries, the size and the offset. -/
def readEocdFields : StateM ZipBuffer (Nat × Nat × Nat × Nat × Nat) := do
  let _ ← getNumber 4
  let disks ← getNumber 4
  let i ← getNumber 2
  let nentry ← getNumber 2
  let size ← getNumber 4
  let offset ← getNumber 4
  return (disks, i, nentry, size, offset)

/-- `_zip_read_eocd`. The buffer has the bytes of the file from `bufOffset` on. -/
def readEocd (data : Bytes) (bufOffset eocdOffset : Nat) : Except ReadError Cdir :=
  let buffer := bufferAt data eocdOffset
  if buffer.left < eocdLen then .error (.incons detailEocdLengthInvalid none)
  else
    let ((disks, i, nentry, size, offset), _) := readEocdFields.run buffer
    if disks ≠ 0 then .error .multidisk
    else if nentry ≠ i then .error .noZip
    else if bufOffset + eocdOffset < offset + size then
      .error (.incons detailCdirOverlapsEocd none)
    else .ok ⟨[], nentry, size, offset, none, false⟩

/-- The two disks and the offset in the locator. -/
def readEocd64Loc : StateM ZipBuffer (Nat × Nat × Nat) := do
  let _ ← getNumber 4
  let numDisks ← getNumber 2
  let eocdDisk ← getNumber 2
  let eocdOffset ← getNumber 8
  return (numDisks, eocdDisk, eocdOffset)

/-- After the magic: the disks, the two counts, the size and the offset. -/
def readEocd64Fields : StateM ZipBuffer (Nat × Nat × Nat × Nat × Nat × Nat) := do
  let _ ← getNumber 8
  let _ ← getNumber 4
  let numDisks ← getNumber 4
  let eocdDisk ← getNumber 4
  let nentry ← getNumber 8
  let i ← getNumber 8
  let size ← getNumber 8
  let offset ← getNumber 8
  return (numDisks, eocdDisk, nentry, i, size, offset)

/-- The buffer at the Zip64 end of the directory; what is not in the one at hand
is read from the file. -/
def eocd64Buffer (file data : Bytes) (bufOffset eocdOffset : Nat) : Except ReadError ZipBuffer :=
  if bufOffset ≤ eocdOffset && eocdOffset + eocd64Len ≤ bufOffset + data.length then
    .ok (bufferAt data (eocdOffset - bufOffset))
  else Dirent.newFromSource file eocdOffset eocd64Len

def readEocd64 (file data : Bytes) (bufOffset eocdlocOffset : Nat) : Except ReadError Cdir := do
  let ((numDisks, eocdDisk, eocdOffset), _) := readEocd64Loc.run (bufferAt data eocdlocOffset)
  if int64Max.toNat < eocdOffset then .error .seek
  else if eocdlocOffset + bufOffset < eocdOffset + eocd64Len then
    .error (.incons detailEocd64OverlapsEocd none)
  else do
    let buffer ← eocd64Buffer file data bufOffset eocdOffset
    let (magic, buffer) := buffer.get 4
    if magic ≠ some eocd64Magic then .error (.incons detailEocd64WrongMagic none)
    else
      let ((numDisks64, eocdDisk64, nentry, i, size, offset), buffer) :=
        readEocd64Fields.run buffer
      if (if numDisks = 0xffff then numDisks64 else numDisks) ≠ 0 ||
          (if eocdDisk = 0xffff then eocdDisk64 else eocdDisk) ≠ 0 then .error .multidisk
      else if nentry ≠ i then .error .multidisk
      else if !buffer.ok then .error .internal
      else if int64Max.toNat < offset || 2 ^ 64 ≤ offset + size then .error .seek
      else if bufOffset + eocdOffset < offset + size then
        .error (.incons detailCdirOverlapsEocd none)
      else if size / entrySize false < nentry then .error (.incons detailCdirInvalid none)
      else .ok ⟨[], nentry, size, offset, none, true⟩

def ReadError.atEntry (i : Nat) (grown : Bool) : ReadError → ReadError
  | .incons detail _ => .incons detail (some (min i 0x7fffff))
  | .noZip => if grown then .incons detailCdirEntryInvalid (some (min i 0x7fffff)) else .noZip
  | error => error

/-- The loop of `_zip_read_cdir`, with what is left of the size in 64 bits: the
entries, what is left, how many were read and how many there should be. An
archive without Zip64 may have 65536 more entries than it tells. Every entry
takes some of the file, so that fuel of its length is enough. -/
def readEntries (platform : Platform) (file : Bytes) (isZip64 : Bool) :
    Nat → Nat → Nat → Nat → Dirent.Input → Except ReadError (List Dirent × Nat × Nat × Nat)
  | 0, _, _, _, _ => .error .internal
  | fuel + 1, left, i, nentry, input =>
      if left = 0 then .ok ([], left, i, nentry)
      else if i = nentry && (isZip64 || left < entrySize false) then .ok ([], left, i, nentry)
      else
        match Dirent.read platform file false input with
        | .error error => .error (error.atEntry i (i = nentry))
        | .ok (de, size, input) =>
            (readEntries platform file isZip64 fuel
              (if size ≤ left then left - size else left + 2 ^ 64 - size) (i + 1)
              (if i = nentry then nentry + 0x10000 else nentry) input).map
                fun (entries, counts) => (de :: entries, counts)

def readComment (data : Bytes) (eocdOffset : Nat) : Except ReadError (Option ZipString) :=
  let commentLen := ((getNumber 2).run (bufferAt data (eocdOffset + 20))).1
  if commentLen = 0 then .ok none
  else
    let buffer := bufferAt data (eocdOffset + eocdLen)
    if buffer.left < commentLen then .error (.incons detailCommentLengthInvalid none)
    else
      match (buffer.get commentLen).1.bind ZipString.new with
      | none => .error .memory
      | some comment => .ok (some comment)

def cdirInput (data : Bytes) (bufOffset : Nat) (cd : Cdir) : Except ReadError Dirent.Input :=
  if bufOffset ≤ cd.offset then
    match ((bufferAt data (cd.offset - bufOffset)).get cd.size).1 with
    | none => .error (.incons detailCdirLengthInvalid none)
    | some entries => .ok (.buffer (.start entries))
  else .ok (.source cd.offset)

/-- The end of the directory, of Zip64 if a locator is before it. -/
def readEnd (file data : Bytes) (bufOffset eocdOffset : Nat) : Except ReadError Cdir :=
  if eocd64LocLen ≤ eocdOffset &&
      (data.drop (eocdOffset - eocd64LocLen)).take 4 = eocd64LocMagic then
    readEocd64 file data bufOffset (eocdOffset - eocd64LocLen)
  else readEocd data bufOffset eocdOffset

/-- `_zip_read_cdir` for the end of a directory at a place in the buffer. -/
def readCdir (platform : Platform) (file data : Bytes) (bufOffset eocdOffset : Nat) :
    Except ReadError Cdir := do
  let buffer := bufferAt data eocdOffset
  if buffer.left < eocdLen then .error .noZip
  else if (buffer.get 4).1 ≠ some eocdMagic then .error .noZip
  else do
    let cd ← readEnd file data bufOffset eocdOffset
    if bufOffset + eocdOffset < cd.offset + cd.size then
      .error (.incons detailCdirOverlapsEocd none)
    else do
      let comment ← readComment data eocdOffset
      let input ← cdirInput data bufOffset cd
      let (entries, left, i, nentry) ←
        readEntries platform file cd.isZip64 (file.length + 1) cd.size 0 cd.nentry input
      if i ≠ nentry || left ≠ 0 then .error (.incons detailCdirWrongEntriesCount none)
      else return { cd with entry := entries, nentry := nentry, comment := comment }

def gpbfDataDescriptor : UInt16 := 0x0008

def detailEntryHeaderMismatch : Nat := 6

def headercomp (central other : Dirent) : Bool :=
  other.versionNeeded ≤ central.versionNeeded && central.compMethod = other.compMethod &&
    central.lastMod = other.lastMod &&
    ZipString.bytes central.filename = ZipString.bytes other.filename &&
    ((central.crc = other.crc && central.compSize = other.compSize &&
        central.uncompSize = other.uncompSize) ||
      (other.bitflags &&& gpbfDataDescriptor ≠ 0 && other.crc = 0 && other.compSize = 0 &&
        other.uncompSize = 0))

/-- `_zip_ef_merge`: a field that is there already is only marked. -/
def efMerge (present : List ExtraField) : List ExtraField → List ExtraField
  | [] => present
  | field :: fields =>
      match present.findIdx? fun there => there.id = field.id && there.data = field.data with
      | some position =>
          efMerge (present.modify position fun there => { there with
            flags := ⟨there.flags.inLocal || field.flags.inLocal,
              there.flags.inCentral || field.flags.inCentral⟩ }) fields
      | none => efMerge (present ++ [field]) fields

/-- The loop of `_zip_checkcons`: the lowest and the highest position, and the
entries with the extra fields of their local headers. -/
def checkEntries (platform : Platform) (file : Bytes) (cdOffset : Nat) :
    Nat → Nat → Nat → List Dirent → Except ReadError (Nat × Nat) × List Dirent
  | _, low, high, [] => (.ok (low, high), [])
  | i, low, high, de :: entries =>
      let low := min low de.offset.toNat
      let reached := (de.offset.toNat + de.compSize.toNat + ZipString.length de.filename +
        entrySize true) % 2 ^ 64
      let high := max high reached
      if cdOffset < low || cdOffset < high then (.error .noZip, de :: entries)
      else
        match Dirent.read platform file true (.source de.offset.toNat) with
        | .error error => (.error (error.atEntry i false), de :: entries)
        | .ok (temp, _, _) =>
            if !headercomp de temp then
              (.error (.incons detailEntryHeaderMismatch (some (min i 0x7fffff))), de :: entries)
            else
              let (result, checked) := checkEntries platform file cdOffset (i + 1) low high entries
              (result, { de with
                extraFields := efMerge de.extraFields temp.extraFields
                localExtraFieldsRead := true } :: checked)

/-- `_zip_checkcons`: how far the entries reach, or -1, with the last error. -/
def checkcons (platform : Platform) (file : Bytes) (cd : Cdir) (error : ReadError) :
    Int × Cdir × ReadError :=
  let first := ((cd.entry.head?).map (·.offset.toNat)).getD 0
  match checkEntries platform file cd.offset 0 first first cd.entry with
  | (.ok (low, high), entries) =>
      (min (high - low) int64Max.toNat, { cd with entry := entries }, error)
  | (.error error, entries) => (-1, { cd with entry := entries }, error)

structure Found where
  cdir : Option Cdir
  best : Int
  error : ReadError

def Found.consider (platform : Platform) (file data : Bytes) (bufOffset : Nat) (found : Found)
    (eocdOffset : Nat) : Found :=
  match readCdir platform file data bufOffset eocdOffset with
  | .error error => { found with error := error }
  | .ok new =>
      match found.cdir with
      | none => { found with cdir := some new, best := 0 }
      | some old =>
          let (best, old, error) :=
            if found.best ≤ 0 then checkcons platform file old found.error
            else (found.best, old, found.error)
          let (a, new, error) := checkcons platform file new error
          if best < a then ⟨some new, a, error⟩ else ⟨some old, best, error⟩

/-- The places with the magic and room for the whole record. -/
def eocdCandidates (data : Bytes) (start : Nat) : List Nat :=
  (List.range data.length).filter fun place =>
    start ≤ place && place + eocdLen ≤ data.length && (data.drop place).take 4 = eocdMagic

def bufferStart (file : Bytes) : Nat := file.length - cdBufSize

def findCentralDir (platform : Platform) (file : Bytes) : Except ReadError Cdir :=
  if file.length < eocdLen then .error .noZip
  else
    let data := file.drop (bufferStart file)
    -- a locator may be before the end of the directory
    let start := if cdBufSize ≤ data.length then eocd64LocLen else 0
    let found := (eocdCandidates data start).foldl
      (Found.consider platform file data (bufferStart file)) ⟨none, -1, .noZip⟩
    match found.cdir with
    | some cdir => if found.best < 0 then .error found.error else .ok cdir
    | none => .error found.error

end FileTransfer
