import FileTransfer.Archive.CentralDirectory

/-!
# What zip_close writes

The loop of `zip_close` of libzip 1.9.2 with `add_data`, `copy_data` and
`write_data_descriptor`, down to the bytes, and `_zip_file_get_offset`. The
whole archive is written anew, as where the file system does not clone. The
layers a source goes through (checksum, compression, encryption) are seen by
what they yield. Reading, writing and progress callbacks do not fail.
-/

namespace FileTransfer

set_option autoImplicit false

open Dirent (WriteFlags)
open ZipBuffer (getNumber)

/-- `zip_stat_t`, as far as `add_data` looks at it; what is not valid is `none`. -/
structure SourceStat where
  size : Option UInt64
  compSize : Option UInt64
  compMethod : Option UInt16
  encryptionMethod : Option EncryptionMethod
  crc : Option UInt32
  mtime : Option Int
  deriving DecidableEq

/-- `zip_file_attributes_t`; the flags have a mask of those that are told. -/
structure FileAttributes where
  generalPurposeBits : Option (UInt16 × UInt16)
  ascii : Option Bool
  externalFileAttributes : Option UInt32
  versionNeeded : Option UInt16
  hostSystem : Option UInt8
  deriving DecidableEq

/-- A source: what it tells of itself, and what comes out of its last layer. -/
structure DataSource where
  stat : SourceStat
  data : Bytes
  final : SourceStat
  attributes : FileAttributes
  deriving DecidableEq

/-- Which parts of an entry were set since the archive was opened. -/
structure Changed where
  attributes : Bool
  lastMod : Bool
  password : Bool
  deriving DecidableEq

def cmDeflate : UInt16 := 8
def cmBzip2 : UInt16 := 12
def cmLzma : UInt16 := 14

def cmIsDefault (method : Int) : Bool := method = -1 || method = -2

def cmActual (method : Int) : UInt16 :=
  if cmIsDefault method then cmDeflate else UInt16.ofInt method

/-- The most bytes compression can give, `algorithms` being the ones of the build. -/
def maxCompressedSize (algorithms : UInt16 → Option (UInt64 → UInt64)) (method : UInt16)
    (size : UInt64) : UInt64 :=
  if method = 0 then size
  else
    match algorithms method with
    | none => 0xffffffffffffffff
    | some maximumCompressedSize => maximumCompressedSize size

namespace Dirent

def attributesAllowedMask : UInt16 := 0x0836

def versionFor (de : Dirent) (forceZip64 : Bool) : UInt16 :=
  if de.compMethod = cmLzma.toNat then 63
  else if de.encryptionMethod.aesMode.isSome then 51
  else if de.compMethod = cmBzip2.toNat then 46
  else if forceZip64 || de.needsZip64 ⟨true, false⟩ then 45
  else if de.compMethod = cmDeflate.toNat || de.encryptionMethod = .tradPkware then 20
  else if (ZipString.bytes de.filename).getLast? = some '/'.toUInt8 then 20
  else 10

def applyAttributes (de : Dirent) (attributes : FileAttributes) (forceZip64 : Bool)
    (changed : Changed) : Dirent :=
  let bitflags := match attributes.generalPurposeBits with
    | none => de.bitflags
    | some (flags, mask) =>
        (de.bitflags &&& ~~~(mask &&& attributesAllowedMask)) |||
          (flags &&& (mask &&& attributesAllowedMask))
  let intAttrib := match attributes.ascii with
    | none => de.intAttrib
    | some ascii => (de.intAttrib &&& ~~~(1 : UInt16)) ||| (if ascii then 1 else 0)
  let extAttrib :=
    if changed.attributes then de.extAttrib
    else attributes.externalFileAttributes.getD de.extAttrib
  let versionNeeded := match attributes.versionNeeded with
    | none => de.versionFor forceZip64
    | some needed => max (de.versionFor forceZip64) needed
  let versionMadeby := (63 : UInt16) ||| (de.versionMadeby &&& 0xff00)
  let versionMadeby := match attributes.hostSystem with
    | none => versionMadeby
    | some system =>
        if changed.attributes then versionMadeby
        else (versionMadeby &&& (0xff : UInt16)) ||| (system.toUInt16 <<< (8 : UInt16))
  { de with bitflags, intAttrib, extAttrib, versionNeeded, versionMadeby }

/-- `write_data_descriptor`, where the flags ask for one. -/
def dataDescriptor (de : Dirent) (isZip64 : Bool) : Bytes :=
  if de.bitflags &&& gpbfDataDescriptor ≠ 0 then
    [0x50, 0x4b, 7, 8] ++ (put32 de.crc ++
      if isZip64 then put64 de.compSize ++ put64 de.uncompSize
      else put32 de.compSize.toUInt32 ++ put32 de.uncompSize.toUInt32)
  else []

variable (algorithms : UInt16 → Option (UInt64 → UInt64)) (de : Dirent) (source : DataSource)

/-- The method for the new data, and the compressed size if it is known. -/
def plannedMethod : Int × Option UInt64 :=
  let method := source.stat.compMethod.getD 0
  if cmIsDefault de.compMethod && method ≠ 0 then ((method.toNat : Int), source.stat.compSize)
  else if de.compMethod = 0 && source.stat.size.isSome then (de.compMethod, source.stat.size)
  else (de.compMethod, none)

/-- The entry as its header is written before the data, and whether it gets a
Zip64 field in any case. -/
def planned : Dirent × Bool :=
  let plain := { de with
    compMethod := (plannedMethod de source).1
    bitflags := de.bitflags &&& ~~~gpbfDataDescriptor }
  match source.stat.size, (plannedMethod de source).2 with
  | none, _ => (plain, true)
  | some size, some compSize => ({ plain with uncompSize := size, compSize }, false)
  | some size, none =>
      ({ plain with uncompSize := size },
        0xffffffff < maxCompressedSize algorithms (cmActual plain.compMethod) size)

def encrypts (early : Dirent) (changed : Changed) : Bool :=
  let recompresses := source.stat.compMethod.getD 0 ≠ cmActual early.compMethod
  (recompresses || changed.password ||
    early.encryptionMethod ≠ source.stat.encryptionMethod.getD .none) &&
      early.encryptionMethod ≠ .none

/-- The entry once the data are written; `none` where the source does not tell
all of it. -/
def completed (early : Dirent) (forceZip64 : Bool) (changed : Changed) (now : Int) :
    Option Dirent := do
  let method ← source.final.compMethod
  let crc ← source.final.crc
  let size ← source.final.size
  let bitflags :=
    if encrypts source early changed && early.encryptionMethod = .tradPkware then
      early.flagged.bitflags ||| gpbfDataDescriptor
    else early.flagged.bitflags
  return Dirent.applyAttributes { early with
    bitflags, crc
    compMethod := method.toNat
    lastMod := if changed.lastMod then early.lastMod else source.final.mtime.getD now
    uncompSize := size
    compSize := UInt64.ofNat source.data.length } source.attributes forceZip64 changed

/-- `add_data`: the header is written, then the data, and the header once more
over the first. -/
def addData (platform : Platform) (changed : Changed) (now : Int) : Option (Bytes × Dirent) := do
  let (early, forceZip64) := planned algorithms de source
  let (header, isZip64) ← early.write platform ⟨true, forceZip64⟩
  let final ← completed source early forceZip64 changed now
  let (header', isZip64') ← final.write platform ⟨true, forceZip64⟩
  if isZip64 ≠ isZip64' then none
  else return (header' ++ ((header ++ source.data).drop header'.length ++
    final.dataDescriptor isZip64), final)

end Dirent

/-- `_zip_dirent_size` for a local header. -/
def direntSize (file : Bytes) (offset : Nat) : Option Nat :=
  match Dirent.newFromSource file (offset + 26) 4 with
  | .error _ => none
  | .ok buffer =>
      let ((name, extra), buffer) :=
        (do return (← getNumber 2, ← getNumber 2) : StateM ZipBuffer _).run buffer
      if buffer.eof then some (entrySize true + name + extra) else none

def fileGetOffset (file : Bytes) (de : Dirent) : Option Nat := do
  let size ← direntSize file de.offset.toNat
  if int64Max.toNat < de.offset.toNat + size then none else some (de.offset.toNat + size)

def rawData (file : Bytes) (de : Dirent) : Option Bytes := do
  let offset ← fileGetOffset file de
  if file.length < offset + de.compSize.toNat then none
  else some ((file.drop offset).take de.compSize.toNat)

/-- The part of the loop of `zip_close` that copies the data of an entry from
the archive there was, `orig` being the entry in it. -/
def copyEntry (platform : Platform) (old : Bytes) (orig de : Dirent) : Option (Bytes × Dirent) := do
  let de :=
    if de.encryptionMethod = .tradPkware then de
    else { de with bitflags := de.bitflags &&& ~~~gpbfDataDescriptor }
  let (header, _) ← de.write platform ⟨true, false⟩
  let offset ← fileGetOffset old orig
  if old.length < offset + de.compSize.toNat then none
  else return (header ++ ((old.drop offset).take de.compSize.toNat ++
    de.dataDescriptor (de.needsZip64 ⟨true, false⟩)), de)

/-- An entry of the handle that is not deleted, with the local extra fields it
has: one with new data, or one with the data of the archive there was. -/
inductive Survivor where
  | added (de : Dirent) (changed : Changed) (source : DataSource)
  | kept (orig de : Dirent)
  deriving DecidableEq

structure CloseContext where
  platform : Platform
  algorithms : UInt16 → Option (UInt64 → UInt64)
  now : Int
  old : Bytes

namespace CloseContext

variable (context : CloseContext)

def writeSurvivor (offset : Nat) : Survivor → Option (Bytes × Dirent)
  | .added de changed source =>
      Dirent.addData context.algorithms { de with offset := UInt64.ofNat offset } source
        context.platform changed context.now
  | .kept orig de =>
      copyEntry context.platform context.old orig { de with offset := UInt64.ofNat offset }

/-- The loop: what it writes, and the entries it leaves for the directory. -/
def writeSurvivors (offset : Nat) : List Survivor → Option (Bytes × List Dirent)
  | [] => some ([], [])
  | survivor :: survivors => do
      let (bytes, de) ← context.writeSurvivor offset survivor
      let (more, entries) ← writeSurvivors (offset + bytes.length) survivors
      return (bytes ++ more, de :: entries)

def closeFile (survivors : List Survivor) (comment : Option ZipString) : Option Bytes := do
  let (body, entries) ← context.writeSurvivors 0 survivors
  let (directory, _) ← cdirWrite context.platform body.length entries comment
  return body ++ directory

end CloseContext

end FileTransfer
