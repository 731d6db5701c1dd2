import FileTransfer.Archive.DirectoryRoundTrip
import FileTransfer.Archive.Layout

/-!
# An archive is read as it was written

What `zip_open` finds in the file `zip_close` wrote: the directory, even if the
data of the entries look like the end of another one, and the data of every
entry.
-/

namespace FileTransfer

set_option autoImplicit false

open Binary (encodeLE decodeLE Cursor)
open Binary.Cursor (Reads reads_pure)
open Dirent (WriteFlags recorded)

namespace Dirent

variable {platform : Platform} {de other : Dirent} {flags : WriteFlags}

theorem length_ef_write_one (id : UInt16) (data : Bytes) (short : data.length < 65536) :
    (efWrite [⟨id, data, .both, short⟩] .both).length = 4 + data.length := by
  rw [ef_write_cons]
  simp [efWrite, HeaderFlags.both, HeaderFlags.meets]
  omega

theorem length_winzip_aes_fields (de : Dirent) :
    (efWrite de.winzipAesFields .both).length =
      if de.encryptionMethod.aesMode.isSome then 11 else 0 := by
  unfold winzipAesFields
  cases de.encryptionMethod.aesMode with
  | none => rfl
  | some mode =>
      rw [length_ef_write_one]
      simp [ascii]

theorem length_zip64_fields (isLocal : flags.isLocal = true) (kept : de.zip64Lost flags = false) :
    (efWrite (de.zip64Fields flags) .both).length = if de.isZip64 flags then 20 else 0 := by
  unfold zip64Fields
  split
  · rename_i is64
    have exceeds : (flags.forceZip64 || decide (uint32Max < de.compSize) ||
        decide (uint32Max < de.uncompSize)) = true := by
      have exceeds : de.exceeds32 flags = true := by
        unfold isZip64 at is64
        unfold zip64Lost at kept
        cases needs : de.needsZip64 flags with
        | true => simpa [needs] using kept
        | false =>
            rw [needs, Bool.or_false, Bool.and_eq_true] at is64
            simp [exceeds32, is64.2]
      simpa [exceeds32, isLocal] using exceeds
    rw [length_ef_write_one, zip64Data, if_pos isLocal, if_pos exceeds]
    simp
  · rfl

/-- What of an entry decides how long its header is. -/
structure SameLength (de other : Dirent) : Prop where
  filename : de.filename = other.filename
  comment : de.comment = other.comment
  extraFields : de.extraFields = other.extraFields
  encryptionMethod : de.encryptionMethod = other.encryptionMethod

theorem length_extra_bytes_local (made : (de.internalFields platform flags).isSome)
    (isLocal : flags.isLocal = true) (kept : de.zip64Lost flags = false) :
    ∃ utf8, de.utf8Fields platform flags = some utf8 ∧
      (de.extraBytes platform flags).length =
        (if de.encryptionMethod.aesMode.isSome then 11 else 0) +
          ((if de.isZip64 flags then 20 else 0) + (efWrite utf8 .both).length) +
            (efWrite de.extraFields (.of flags.isLocal)).length := by
  obtain ⟨internal, made⟩ := Option.isSome_iff_exists.mp made
  obtain ⟨utf8, madeUtf8, same⟩ := Option.map_eq_some_iff.mp made
  refine ⟨utf8, madeUtf8, ?_⟩
  rw [extraBytes, made, Option.getD_some, ← same, List.length_append, ef_write_append,
    ef_write_append, List.length_append, List.length_append, length_winzip_aes_fields,
    length_zip64_fields isLocal kept]

theorem is_zip64_of_write {bytes : Bytes} {is64 : Bool}
    (writes : de.write platform flags = some (bytes, is64)) : de.isZip64 flags = is64 := by
  obtain ⟨_, _, same⟩ := Option.map_eq_some_iff.mp writes
  exact (Prod.mk.inj same).2

theorem internal_fields_of_write {bytes : Bytes} {is64 : Bool}
    (writes : de.write platform flags = some (bytes, is64)) :
    (de.internalFields platform flags).isSome := by
  obtain ⟨internal, made, _⟩ := Option.map_eq_some_iff.mp writes
  rw [made]
  rfl

theorem length_header_eq {bytes bytes' : Bytes} {is64 : Bool} (same : de.SameLength other)
    (isLocal : flags.isLocal = true) (kept : de.zip64Lost flags = false)
    (kept' : other.zip64Lost flags = false) (writes : de.write platform flags = some (bytes, is64))
    (writes' : other.write platform flags = some (bytes', is64)) :
    bytes.length = bytes'.length := by
  obtain ⟨utf8, madeUtf8, extra⟩ :=
    length_extra_bytes_local (internal_fields_of_write writes) isLocal kept
  obtain ⟨utf8', madeUtf8', extra'⟩ :=
    length_extra_bytes_local (internal_fields_of_write writes') isLocal kept'
  have sameUtf8 : utf8 = utf8' := by
    rw [utf8Fields, encodesUtf8, same.filename, same.comment] at madeUtf8
    exact Option.some.inj (madeUtf8.symm.trans madeUtf8')
  rw [length_write writes, length_write writes', extra, extra', same.filename, same.comment,
    same.extraFields, same.encryptionMethod, sameUtf8, is_zip64_of_write writes,
    is_zip64_of_write writes']

theorem kept_of_force {forceZip64 : Bool} (kept : de.zip64Lost ⟨true, false⟩ = false) :
    de.zip64Lost ⟨true, forceZip64⟩ = false := by
  cases forceZip64 with
  | false => exact kept
  | true => simp [zip64Lost, exceeds32]

/-- What a turn of the loop writes for an entry: a header, the data and what may
follow them. -/
structure Written (platform : Platform) (de : Dirent) (data bytes : Bytes) : Prop where
  parts : ∃ forceZip64 header is64 rest, de.write platform ⟨true, forceZip64⟩ =
    some (header, is64) ∧ bytes = header ++ (data ++ rest)
  size : de.compSize = UInt64.ofNat data.length

section

variable {algorithms : UInt16 → Option (UInt64 → UInt64)} {source : DataSource} {changed : Changed}
variable {forceZip64 : Bool} {now : Int} {final : Dirent}

theorem planned_same (algorithms : UInt16 → Option (UInt64 → UInt64)) (de : Dirent)
    (source : DataSource) :
    de.SameLength (planned algorithms de source).1 ∧
      (planned algorithms de source).1.offset = de.offset := by
  unfold planned
  dsimp only
  split <;> exact ⟨⟨rfl, rfl, rfl, rfl⟩, rfl⟩

theorem completed_same (completes : completed source de forceZip64 changed now = some final) :
    de.SameLength final ∧ final.offset = de.offset ∧
      final.compSize = UInt64.ofNat source.data.length := by
  simp only [completed, Option.bind_eq_bind, Option.bind_eq_some_iff, Option.pure_def] at completes
  obtain ⟨_, _, _, _, _, _, same⟩ := completes
  cases same
  exact ⟨⟨rfl, rfl, rfl, rfl⟩, rfl, rfl⟩

theorem SameLength.trans {third : Dirent} (first : de.SameLength other)
    (second : other.SameLength third) : de.SameLength third where
  filename := first.filename.trans second.filename
  comment := first.comment.trans second.comment
  extraFields := first.extraFields.trans second.extraFields
  encryptionMethod := first.encryptionMethod.trans second.encryptionMethod

theorem add_data_written {bytes : Bytes}
    (adds : addData algorithms de source platform changed now = some (bytes, final))
    (keptEarly : (planned algorithms de source).1.zip64Lost ⟨true, false⟩ = false)
    (kept : final.zip64Lost ⟨true, false⟩ = false) :
    final.Written platform source.data bytes ∧ final.offset = de.offset := by
  obtain ⟨planSame, planOffset⟩ := planned_same algorithms de source
  unfold addData at adds
  cases plans : planned algorithms de source with
  | mk early forceZip64 =>
  simp only [plans, Option.bind_eq_bind, Option.bind_eq_some_iff, Option.pure_def] at adds
  rw [plans] at keptEarly planSame planOffset
  obtain ⟨⟨header, is64⟩, writes, final', completes, ⟨header', is64'⟩, writes', adds⟩ := adds
  obtain ⟨same, offset, size⟩ := completed_same completes
  split at adds
  · cases adds
  rename_i agree
  cases adds
  obtain rfl : is64 = is64' := by simpa using agree
  have lengths := length_header_eq same rfl (kept_of_force keptEarly) (kept_of_force kept) writes
    writes'
  refine ⟨⟨⟨forceZip64, header', is64, final.dataDescriptor is64, writes', ?_⟩, size⟩,
    offset.trans planOffset⟩
  rw [List.drop_left' lengths]

theorem copy_entry_written {old bytes : Bytes} {orig : Dirent}
    (copies : copyEntry platform old orig de = some (bytes, final)) :
    ∃ data, rawData old { orig with compSize := de.compSize } = some data ∧
      final.Written platform data bytes ∧ final.offset = de.offset := by
  have cleared : ∃ bitflags, (if de.encryptionMethod = .tradPkware then de
      else { de with bitflags := de.bitflags &&& ~~~gpbfDataDescriptor }) =
        { de with bitflags } := by
    split
    · exact ⟨de.bitflags, rfl⟩
    · exact ⟨_, rfl⟩
  obtain ⟨bitflags, cleared⟩ := cleared
  unfold copyEntry at copies
  simp only [cleared, Option.bind_eq_bind, Option.bind_eq_some_iff, Option.pure_def] at copies
  obtain ⟨⟨header, is64⟩, writes, offset, found, copies⟩ := copies
  split at copies
  · cases copies
  rename_i within
  cases copies
  refine ⟨(old.drop offset).take de.compSize.toNat, ?_,
    ⟨⟨false, header, is64, _, writes, rfl⟩, ?_⟩, rfl⟩
  · have same : fileGetOffset old { orig with compSize := de.compSize } = some offset := found
    simp only [rawData, same, Option.bind_eq_bind, Option.bind_some, if_neg within]
  · rw [List.length_take, List.length_drop, Nat.min_eq_left (by omega), UInt64.ofNat_toNat]

end

end Dirent

def Survivor.data (old : Bytes) : Survivor → Option Bytes
  | .added _ _ source => some source.data
  | .kept orig de => rawData old { orig with compSize := de.compSize }

/-- The header that is written first already has all of the Zip64 field. -/
def Survivor.KeepsZip64 (algorithms : UInt16 → Option (UInt64 → UInt64)) : Survivor → Prop
  | .added de _ source => (Dirent.planned algorithms de source).1.zip64Lost ⟨true, false⟩ = false
  | .kept _ _ => True

/-- The header of an entry and its data are in the file, below a limit. -/
structure Placed (platform : Platform) (file : Bytes) (limit : Nat) (data : Bytes) (de : Dirent) :
    Prop where
  there : ∃ forceZip64 header is64 rest, de.write platform ⟨true, forceZip64⟩ =
    some (header, is64) ∧ file.drop de.offset.toNat = header ++ (data ++ rest) ∧
      de.offset.toNat + header.length + data.length ≤ limit
  size : de.compSize.toNat = data.length

section

variable {context : CloseContext} {file body rest : Bytes} {entries : List Dirent}
variable {survivor : Survivor} {survivors : List Survivor} {de : Dirent} {offset limit : Nat}

theorem planned_lost_offset (algorithms : UInt16 → Option (UInt64 → UInt64)) (de : Dirent)
    (source : DataSource) (offset : UInt64) :
    (Dirent.planned algorithms { de with offset } source).1.zip64Lost ⟨true, false⟩ =
      (Dirent.planned algorithms de source).1.zip64Lost ⟨true, false⟩ := by
  have method : Dirent.plannedMethod { de with offset } source =
    Dirent.plannedMethod de source := rfl
  unfold Dirent.planned
  rw [method]
  cases source.stat.size with
  | none => rfl
  | some size => cases (Dirent.plannedMethod de source).2 <;> rfl

theorem write_survivor_written (writes : context.writeSurvivor offset survivor = some (body, de))
    (keeps : survivor.KeepsZip64 context.algorithms) (kept : de.zip64Lost ⟨true, false⟩ = false) :
    ∃ data, survivor.data context.old = some data ∧ de.Written context.platform data body ∧
      de.offset = UInt64.ofNat offset := by
  cases survivor with
  | added entry changed source =>
      refine ⟨source.data, rfl, Dirent.add_data_written writes ?_ kept⟩
      rw [planned_lost_offset]
      exact keeps
  | kept orig entry => exact Dirent.copy_entry_written writes

theorem write_survivors_cons
    (writes : context.writeSurvivors offset (survivor :: survivors) = some (body, entries)) :
    ∃ bytes de more others, context.writeSurvivor offset survivor = some (bytes, de) ∧
      context.writeSurvivors (offset + bytes.length) survivors = some (more, others) ∧
        body = bytes ++ more ∧ entries = de :: others := by
  simp only [CloseContext.writeSurvivors, Option.bind_eq_bind, Option.bind_eq_some_iff,
    Option.pure_def] at writes
  obtain ⟨⟨bytes, de⟩, writesFirst, ⟨more, others⟩, writesMore, same⟩ := writes
  cases same
  exact ⟨bytes, de, more, others, writesFirst, writesMore, rfl, rfl⟩

theorem Dirent.Written.placed {platform : Platform} {data bytes : Bytes}
    (written : de.Written platform data bytes) (offset' : de.offset = UInt64.ofNat offset)
    (there : file.drop offset = bytes ++ rest) (small : file.length < 2 ^ 64)
    (within : offset ≤ file.length) (below : offset + bytes.length ≤ limit) :
    Placed platform file limit data de := by
  obtain ⟨⟨forceZip64, header, is64, more, writes, rfl⟩, size⟩ := written
  have lengths := congrArg List.length there
  simp only [List.length_drop, List.length_append] at lengths below
  have place : de.offset.toNat = offset := by
    rw [offset', UInt64.toNat_ofNat', Nat.mod_eq_of_lt (by omega)]
  refine ⟨⟨forceZip64, header, is64, more ++ rest, writes, ?_, by omega⟩, ?_⟩
  · rw [place, there]
    simp only [List.append_assoc]
  · rw [size, UInt64.toNat_ofNat', Nat.mod_eq_of_lt (by omega)]

theorem write_survivors_placed
    (writes : context.writeSurvivors offset survivors = some (body, entries))
    (keeps : ∀ survivor ∈ survivors, survivor.KeepsZip64 context.algorithms)
    (kept : ∀ de ∈ entries, de.zip64Lost ⟨true, false⟩ = false)
    (there : file.drop offset = body ++ rest) (small : file.length < 2 ^ 64)
    (within : offset ≤ file.length) (below : offset + body.length ≤ limit) :
    List.Forall₂ (fun survivor de => ∃ data, survivor.data context.old = some data ∧
      Placed context.platform file limit data de) survivors entries := by
  induction survivors generalizing offset body entries with
  | nil =>
      cases writes
      exact .nil
  | cons survivor survivors ih =>
      obtain ⟨bytes, de, more, others, writesFirst, writesMore, rfl, rfl⟩ :=
        write_survivors_cons writes
      obtain ⟨keepsFirst, keepsMore⟩ := List.forall_mem_cons.mp keeps
      obtain ⟨keptFirst, keptMore⟩ := List.forall_mem_cons.mp kept
      rw [List.append_assoc] at there
      rw [List.length_append] at below
      obtain ⟨data, same, written, offset'⟩ :=
        write_survivor_written writesFirst keepsFirst keptFirst
      have behind : file.drop (offset + bytes.length) = more ++ rest := by
        rw [← List.drop_drop, there, List.drop_left]
      have lengths := congrArg List.length there
      rw [List.length_drop, List.length_append] at lengths
      apply List.Forall₂.cons
      · exact ⟨data, same, written.placed offset' there small within (by omega)⟩
      · exact ih writesMore keepsMore keptMore behind (by omega) (by omega)

theorem write_survivors_first
    (writes : context.writeSurvivors offset survivors = some (body, de :: entries))
    (keeps : ∀ survivor ∈ survivors, survivor.KeepsZip64 context.algorithms)
    (kept : de.zip64Lost ⟨true, false⟩ = false) : de.offset = UInt64.ofNat offset := by
  cases survivors with
  | nil => cases writes
  | cons survivor survivors =>
      obtain ⟨bytes, de', more, others, writesFirst, _, _, same⟩ := write_survivors_cons writes
      cases same
      obtain ⟨_, _, _, place⟩ :=
        write_survivor_written writesFirst (List.forall_mem_cons.mp keeps).1 kept
      exact place

end

section

variable {platform : Platform} {file rest : Bytes} {de : Dirent}

theorem put_header_local (platform : Platform) (de : Dirent) (forceZip64 : Bool)
    (efTotalSize : UInt16) :
    ∃ front, de.putHeader platform ⟨true, forceZip64⟩ efTotalSize =
      front ++ (put16 (UInt16.ofNat (ZipString.length de.filename)) ++ put16 efTotalSize) ∧
        front.length = 22 := by
  refine ⟨[put16 (de.versionWritten ⟨true, forceZip64⟩), put16 de.bitflags,
    put16 de.compMethodWritten, put16 (platform.u2dTime de.lastMod).1,
    put16 (platform.u2dTime de.lastMod).2, put32 de.crcWritten,
    put32 (de.sizesWritten ⟨true, forceZip64⟩).1,
    put32 (de.sizesWritten ⟨true, forceZip64⟩).2].flatten, ?_, by simp⟩
  simp [Dirent.putHeader]

theorem local_header_lengths {forceZip64 is64 : Bool} {header : Bytes}
    (writes : de.write platform ⟨true, forceZip64⟩ = some (header, is64))
    (fits : (de.extraBytes platform ⟨true, forceZip64⟩).length < 65536) :
    ∃ front name extra behind, header = front ++ ((put16 name ++ put16 extra) ++ behind) ∧
      front.length = 26 ∧ header.length = 30 + name.toNat + extra.toNat := by
  have length := Dirent.length_write writes
  obtain ⟨internal, made, same⟩ := Option.map_eq_some_iff.mp writes
  obtain ⟨whole, _⟩ := Prod.mk.inj same
  rw [Dirent.extraBytes, made, Option.getD_some] at fits length
  have name := ZipString.to_nat_length de.filename
  have extra := Dirent.ef_total_size fits
  obtain ⟨front, header', front22⟩ := put_header_local platform de.flagged forceZip64
    (efSize de.extraFields (.of true) + efSize internal .both)
  refine ⟨localMagic ++ front, UInt16.ofNat (ZipString.length de.filename),
    efSize de.extraFields (.of true) + efSize internal .both, ZipString.bytes de.filename ++
      (efWrite internal .both ++ efWrite de.extraFields (.of true)), ?_, ?_, ?_⟩
  · rw [← whole, header']
    simp [Dirent.flagged]
  · rw [List.length_append, front22]
    rfl
  · rw [name, extra, length]
    rfl

theorem dirent_size_written {forceZip64 is64 : Bool} {header : Bytes} {offset : Nat}
    (writes : de.write platform ⟨true, forceZip64⟩ = some (header, is64))
    (fits : (de.extraBytes platform ⟨true, forceZip64⟩).length < 65536)
    (there : file.drop offset = header ++ rest) : direntSize file offset = some header.length := by
  obtain ⟨front, name, extra, behind, rfl, front26, length⟩ := local_header_lengths writes fits
  have lengths : file.drop (offset + 26) = (put16 name ++ put16 extra) ++ (behind ++ rest) := by
    rw [← List.drop_drop, there, List.append_assoc, List.drop_left' front26, List.append_assoc]
  have taken := Dirent.new_from_source lengths
  have reads : Reads (do return (← ZipBuffer.getNumber 2, ← ZipBuffer.getNumber 2))
      (put16 name ++ (put16 extra ++ [])) (name.toNat, extra.toNat) := by
    have small := name.toNat_lt
    have small' := extra.toNat_lt
    apply (ZipBuffer.reads_number (by omega)).bind
    apply (ZipBuffer.reads_number (by omega)).bind
    exact reads_pure _
  rw [List.append_nil] at reads
  obtain ⟨behind', runs, ended⟩ := reads.run_start
  rw [List.length_append, length_put16, length_put16] at taken
  unfold direntSize
  rw [taken]
  simp only [runs, ended, if_true]
  rw [length]
  rfl

theorem Placed.raw_data {limit : Nat} {data : Bytes} (placed : Placed platform file limit data de)
    (fits : ∀ flags, (de.extraBytes platform flags).length < 65536)
    (within : limit ≤ file.length) (small : file.length ≤ int64Max.toNat)
    {entry : Dirent} (offset : entry.offset = de.offset) (size : entry.compSize = de.compSize) :
    rawData file entry = some data := by
  obtain ⟨⟨forceZip64, header, is64, more, writes, there, below⟩, size'⟩ := placed
  have found := dirent_size_written writes (fits _) there
  have place : fileGetOffset file entry = some (de.offset.toNat + header.length) := by
    rw [fileGetOffset, offset, found, Option.bind_eq_bind, Option.bind_some, if_neg (by omega)]
  simp only [rawData, place, Option.bind_eq_bind, Option.bind_some, size, size']
  rw [if_neg (by omega), ← List.drop_drop, there, List.drop_left, List.take_left]

end

/-- An entry without its extra fields, to which the check adds those of the local
header. -/
def Dirent.withoutExtra (de : Dirent) : Dirent :=
  { de with extraFields := [], localExtraFieldsRead := false }

/-- How far an entry reaches for the check, which leaves out the local extra
fields. -/
def Dirent.reach (de : Dirent) : Nat :=
  de.offset.toNat + de.compSize.toNat + ZipString.length de.filename + entrySize true

section

variable {platform : Platform} {file : Bytes} {de : Dirent} {limit : Nat}

theorem length_read_back (string : Option ZipString) (encodes : Bool) :
    ZipString.length (string.map (·.readBack encodes)) = ZipString.length string := by
  cases string with
  | none => rfl
  | some kept => exact congrArg List.length (ZipString.raw_reread _ kept)

theorem bytes_read_back (string : Option ZipString) (encodes : Bool) :
    ZipString.bytes (string.map (·.readBack encodes)) = ZipString.bytes string := by
  cases string with
  | none => rfl
  | some kept => exact ZipString.raw_reread _ kept

theorem version_written_le (de : Dirent) (forceZip64 : Bool) :
    de.versionWritten ⟨true, forceZip64⟩ ≤ de.versionWritten ⟨false, false⟩ := by
  have needs : de.needsZip64 ⟨true, forceZip64⟩ = true → de.needsZip64 ⟨false, false⟩ = true := by
    simp only [Dirent.needsZip64, Bool.not_true, Bool.false_and, Bool.or_false]
    intro sizes
    rw [sizes, Bool.true_or]
  unfold Dirent.versionWritten
  by_cases small : de.versionNeeded ≤ 45
  · cases localNeeds : de.needsZip64 ⟨true, forceZip64⟩ with
    | true => simp [needs localNeeds, small]
    | false =>
        simp only [Bool.false_eq_true, if_false, small, decide_true, Bool.and_true]
        split
        · exact small
        · exact UInt16.le_refl _
  · simp [small]

theorem headercomp_read_back (de : Dirent) (forceZip64 : Bool) :
    headercomp (recorded platform de) (de.readBack platform ⟨true, forceZip64⟩) = true := by
  have versions := version_written_le de forceZip64
  unfold headercomp recorded Dirent.readBack
  simp [versions, bytes_read_back]

theorem reach_recorded (platform : Platform) (de : Dirent) :
    (recorded platform de).offset.toNat + (recorded platform de).compSize.toNat +
      ZipString.length (recorded platform de).filename + entrySize true = de.reach := by
  unfold recorded Dirent.readBack Dirent.reach
  simp only [length_read_back, Bool.false_eq_true, if_false]

theorem Placed.reach_le {data : Bytes} (placed : Placed platform file limit data de) :
    de.reach ≤ limit := by
  obtain ⟨⟨forceZip64, header, is64, more, writes, there, below⟩, size⟩ := placed
  have length := Dirent.length_write writes
  simp only [if_true] at length
  unfold Dirent.reach
  omega

theorem check_entries_written {entries : List Dirent} (i low high : Nat)
    (all : ∀ de ∈ entries, de.Recorded platform)
    (placed : ∀ de ∈ entries, ∃ data, Placed platform file limit data de)
    (small : limit < 2 ^ 64) (lowest : low ≤ limit) (highest : high ≤ limit) :
    ∃ low' high' checked,
      checkEntries platform file limit i low high (entries.map (recorded platform)) =
        (.ok (low', high'), checked) ∧
      checked.map Dirent.withoutExtra =
        (entries.map (recorded platform)).map Dirent.withoutExtra ∧
      low' ≤ low ∧ high ≤ high' ∧ high' ≤ limit ∧ ∀ de ∈ entries, de.reach ≤ high' := by
  induction entries generalizing i low high with
  | nil =>
      exact ⟨low, high, [], rfl, rfl, le_rfl, le_rfl, highest, fun de member => by cases member⟩
  | cons de entries ih =>
      obtain ⟨⟨storable, kept, fits⟩, allMore⟩ := List.forall_mem_cons.mp all
      obtain ⟨⟨data, placedFirst⟩, placedMore⟩ := List.forall_mem_cons.mp placed
      have reach := placedFirst.reach_le
      obtain ⟨⟨forceZip64, header, is64, more, writes, there, below⟩, size⟩ := placedFirst
      have before : (Dirent.Input.source de.offset.toNat).Before file
          (header ++ (data ++ more)) := there
      have found := Dirent.read_write storable writes (fits _) before
      rw [kept, if_neg (by decide)] at found
      obtain ⟨behind, reads, _⟩ := found
      have offset : (recorded platform de).offset = de.offset := rfl
      have within : de.offset.toNat ≤ limit := by omega
      obtain ⟨low', high', checked, checks, same, lower, higher, bounded, reaches⟩ :=
        ih (i + 1) (min low de.offset.toNat) (max high de.reach) allMore
          placedMore (by omega) (by omega)
      have step : checkEntries platform file limit i low high
          ((de :: entries).map (recorded platform)) = (.ok (low', high'),
            { recorded platform de with
              extraFields := efMerge (recorded platform de).extraFields
                (de.readBack platform ⟨true, forceZip64⟩).extraFields
              localExtraFieldsRead := true } :: checked) := by
        have reached := reach_recorded platform de
        rw [offset] at reached
        rw [List.map_cons, checkEntries]
        simp only [offset, reached, Nat.mod_eq_of_lt (Nat.lt_of_le_of_lt reach small)]
        rw [if_neg (by simp only [Bool.or_eq_true, decide_eq_true_eq]; omega)]
        simp only [reads, headercomp_read_back, Bool.not_true, Bool.false_eq_true, if_false, checks]
      refine ⟨low', high', _, step, ?_, by omega, by omega, bounded, ?_⟩
      · simp only [List.map_cons, same]
        rfl
      · intro other member
        rcases List.mem_cons.mp member with rfl | among
        · omega
        · exact reaches other among

end

section

variable {platform : Platform} {file data : Bytes} {bufOffset limit : Nat}

theorem cdir_input_before {cd : Cdir} {input : Dirent.Input}
    (takes : cdirInput (file.drop bufOffset) bufOffset cd = .ok input) :
    ∃ bytes, input.Before file bytes ∧ bytes.length ≤ file.length := by
  unfold cdirInput at takes
  split at takes
  · split at takes
    · cases takes
    · rename_i entries got
      cases takes
      refine ⟨entries, Cursor.at_start entries, ?_⟩
      unfold Cursor.get at got
      split at got
      · cases got
        have data : (bufferAt (file.drop bufOffset) (cd.offset - bufOffset)).data =
          file.drop bufOffset := Cursor.data_set_offset _
        rw [data, List.length_take, List.length_drop, List.length_drop]
        omega
      · cases got
  · cases takes
    exact ⟨_, rfl, by rw [List.length_drop]; omega⟩

theorem read_cdir_extent {eocdOffset : Nat} {cdir : Cdir} (small : file.length < 2 ^ 64)
    (reads : readCdir platform file (file.drop bufOffset) bufOffset eocdOffset = .ok cdir) :
    cdir.offset + 46 * cdir.entry.length ≤ bufOffset + eocdOffset := by
  unfold readCdir at reads
  simp only [bind, Except.bind] at reads
  split at reads
  · cases reads
  split at reads
  · cases reads
  split at reads
  · cases reads
  rename_i cd ends
  split at reads
  · cases reads
  rename_i before
  split at reads
  · cases reads
  split at reads
  · cases reads
  rename_i input takes
  split at reads
  · cases reads
  rename_i found readsEntries
  obtain ⟨entries, left, i, nentry⟩ := found
  dsimp only at reads
  split at reads
  · cases reads
  rename_i counts
  cases reads
  obtain ⟨bytes, beforeBytes, within⟩ := cdir_input_before takes
  have nothing : left = 0 := by
    simp only [Bool.or_eq_true, decide_eq_true_eq, not_or, not_not] at counts
    exact counts.2
  rw [nothing] at readsEntries
  have extent := read_entries_extent (by omega) beforeBytes readsEntries
  dsimp only
  omega

def Cdir.Within (limit : Nat) (cdir : Cdir) : Prop := cdir.entry = [] ∨ cdir.offset ≤ limit

theorem check_entries_bounded {entries checked : List Dirent} {i low high low' high' : Nat}
    (checks : checkEntries platform file limit i low high entries = (.ok (low', high'), checked))
    (bounded : high ≤ limit ∨ entries ≠ []) : high' ≤ limit := by
  induction entries generalizing i low high checked with
  | nil =>
      cases checks
      exact bounded.resolve_right fun none => none rfl
  | cons de entries ih =>
      rw [checkEntries] at checks
      dsimp only at checks
      split at checks
      · cases checks
      rename_i inside
      split at checks
      · cases checks
      split at checks
      · cases checks
      cases result : checkEntries platform file limit (i + 1) (min low de.offset.toNat)
          (max high ((de.offset.toNat + de.compSize.toNat + ZipString.length de.filename +
            entrySize true) % 2 ^ 64)) entries with
      | mk outcome more =>
      rw [result] at checks
      cases checks
      apply ih result
      simp only [Bool.or_eq_true, decide_eq_true_eq, not_or, Nat.not_lt] at inside
      exact .inl inside.2

theorem checkcons_within (platform : Platform) (file : Bytes) {cdir : Cdir} (error : ReadError)
    (within : cdir.Within limit) :
    (checkcons platform file cdir error).1 ≤ limit ∧
      (checkcons platform file cdir error).2.1.Within limit := by
  obtain ⟨entry, nentry, size, offset, comment, isZip64⟩ := cdir
  cases entry with
  | nil => exact ⟨Int.natCast_nonneg limit, .inl rfl⟩
  | cons de entries =>
      have below : offset ≤ limit := within.resolve_left (List.cons_ne_nil _ _)
      unfold checkcons
      dsimp only
      split
      · rename_i low high checked checks
        have bounded := check_entries_bounded checks (.inr (List.cons_ne_nil _ _))
        refine ⟨?_, .inr below⟩
        dsimp only
        omega
      · exact ⟨by dsimp only; omega, .inr below⟩

structure Found.Within (limit : Nat) (found : Found) : Prop where
  best : found.best ≤ limit
  cdir : ∀ cdir ∈ found.cdir, cdir.Within limit

theorem consider_within {found : Found} {place : Nat} (within : found.Within limit)
    (reaches : ∀ new, readCdir platform file data bufOffset place = .ok new → new.Within limit) :
    (found.consider platform file data bufOffset place).Within limit := by
  obtain ⟨best, cdir⟩ := within
  unfold Found.consider
  split
  · exact ⟨best, cdir⟩
  · rename_i new reads
    have newWithin := reaches new reads
    split
    · exact ⟨Int.natCast_nonneg limit, fun _ same => by cases same; exact newWithin⟩
    · rename_i old same
      have oldWithin := cdir old same
      have oldChecked := checkcons_within platform file found.error oldWithin
      have newChecked := fun error => checkcons_within platform file error newWithin
      dsimp only
      split
      · split
        · exact ⟨(newChecked _).1, fun _ same => by cases same; exact (newChecked _).2⟩
        · exact ⟨oldChecked.1, fun _ same => by cases same; exact oldChecked.2⟩
      · split
        · exact ⟨(newChecked _).1, fun _ same => by cases same; exact (newChecked _).2⟩
        · exact ⟨best, fun _ same => by cases same; exact oldWithin⟩

theorem foldl_within {found : Found} {places : List Nat} (within : found.Within limit)
    (reaches : ∀ place ∈ places, ∀ new,
      readCdir platform file data bufOffset place = .ok new → new.Within limit) :
    (places.foldl (Found.consider platform file data bufOffset) found).Within limit := by
  induction places generalizing found with
  | nil => exact within
  | cons place places ih =>
      obtain ⟨first, others⟩ := List.forall_mem_cons.mp reaches
      exact ih (consider_within within first) others

theorem foldl_unread (found : Found) {places : List Nat}
    (unread : ∀ place ∈ places, ∃ error,
      readCdir platform file data bufOffset place = .error error) :
    ∃ error, places.foldl (Found.consider platform file data bufOffset) found =
      { found with error := error } := by
  induction places generalizing found with
  | nil => exact ⟨found.error, rfl⟩
  | cons place places ih =>
      obtain ⟨⟨error, fails⟩, others⟩ := List.forall_mem_cons.mp unread
      have step : found.consider platform file data bufOffset place =
          { found with error := error } := by
        rw [Found.consider, fails]
      rw [List.foldl_cons, step]
      exact ih _ others

end

theorem filter_range_split {n k : Nat} {p : Nat → Bool} (below : k < n) (holds : p k = true) :
    (List.range n).filter p =
      (List.range k).filter p ++ k :: (List.range' (k + 1) (n - k - 1)).filter p := by
  have split : List.range n = List.range k ++ k :: List.range' (k + 1) (n - k - 1) := by
    rw [List.range_eq_range', List.range_eq_range', ← List.range'_succ,
      show n - k - 1 + 1 = n - k by omega]
    have append := List.range'_append_1 (s := 0) (m := k) (n := n - k)
    rw [Nat.zero_add, Nat.add_sub_cancel' (Nat.le_of_lt below)] at append
    exact append.symm
  rw [split, List.filter_append, List.filter_cons_of_pos holds]

section

variable {platform : Platform} {file data : Bytes} {bufOffset limit : Nat}

theorem consider_taken {found : Found} {place : Nat} {new : Cdir} (within : found.Within limit)
    (reads : readCdir platform file data bufOffset place = .ok new)
    (further : ∀ error, (limit : Int) < (checkcons platform file new error).1) :
    ∃ cdir best error, found.consider platform file data bufOffset place =
      ⟨some cdir, best, error⟩ ∧ 0 ≤ best ∧
        (cdir = new ∨ ∃ error', cdir = (checkcons platform file new error').2.1) := by
  have positive : (0 : Int) ≤ limit := Int.natCast_nonneg limit
  unfold Found.consider
  rw [reads]
  dsimp only
  split
  · exact ⟨new, 0, _, rfl, le_rfl, .inl rfl⟩
  · rename_i old same
    have oldChecked := checkcons_within platform file found.error (within.cdir old same)
    split
    · rw [if_pos (lt_of_le_of_lt oldChecked.1 (further _))]
      exact ⟨_, _, _, rfl, le_of_lt (lt_of_le_of_lt positive (further _)), .inr ⟨_, rfl⟩⟩
    · rw [if_pos (lt_of_le_of_lt within.best (further _))]
      exact ⟨_, _, _, rfl, le_of_lt (lt_of_le_of_lt positive (further _)), .inr ⟨_, rfl⟩⟩

theorem read_cdir_candidate {place : Nat} {cdir : Cdir}
    (reads : readCdir platform file data bufOffset place = .ok cdir) :
    place + eocdLen ≤ data.length ∧ (data.drop place).take 4 = eocdMagic := by
  unfold readCdir at reads
  simp only [bind, Except.bind] at reads
  split at reads
  · cases reads
  rename_i enough
  split at reads
  · cases reads
  rename_i magic
  by_cases within : place ≤ data.length
  · have at' := buffer_at within
    rw [at'.left_eq, List.length_drop] at enough
    unfold eocdLen at enough ⊢
    rw [(at'.get_drop (by rw [List.length_drop]; omega)).1, ne_eq, not_not] at magic
    exact ⟨by omega, Option.some.inj magic⟩
  · have nothing : (bufferAt data place).left = 0 := by
      rw [bufferAt, Cursor.setOffset,
        if_neg (show ¬place ≤ (Cursor.start data).data.length from within)]
      rfl
    rw [nothing] at enough
    exact absurd (by decide) enough

theorem eocd_candidates_split {start place : Nat} (behind : start ≤ place)
    (inside : place + eocdLen ≤ data.length) (magic : (data.drop place).take 4 = eocdMagic) :
    ∃ before after, eocdCandidates data start = before ++ place :: after ∧
      (∀ place' ∈ before, place' < place) ∧ ∀ place' ∈ after, place < place' := by
  have below : place < data.length := by
    unfold eocdLen at inside
    omega
  refine ⟨_, _, filter_range_split below (by
    simp only [behind, inside, magic, decide_true, Bool.and_self]), ?_, ?_⟩
  · intro place' member
    exact List.mem_range.mp (List.mem_of_mem_filter member)
  · intro place' member
    exact (List.mem_range'_1.mp (List.mem_of_mem_filter member)).1

/-- The search finds the directory whose end is at a place, if only places before
it lead elsewhere, and no further than a limit. -/
theorem find_central_dir {place : Nat} {new : Cdir}
    (behind : (if cdBufSize ≤ (file.drop (bufferStart file)).length then eocd64LocLen else 0) ≤
      place)
    (reads : readCdir platform file (file.drop (bufferStart file)) (bufferStart file) place =
      .ok new)
    (further : ∀ error, (limit : Int) < (checkcons platform file new error).1)
    (earlier : ∀ place' < place, ∀ cdir, readCdir platform file (file.drop (bufferStart file))
      (bufferStart file) place' = .ok cdir → cdir.Within limit)
    (later : ∀ place' > place, ∃ error, readCdir platform file (file.drop (bufferStart file))
      (bufferStart file) place' = .error error) :
    ∃ cdir, findCentralDir platform file = .ok cdir ∧
      (cdir = new ∨ ∃ error, cdir = (checkcons platform file new error).2.1) := by
  obtain ⟨inside, magic⟩ := read_cdir_candidate reads
  have long : ¬file.length < eocdLen := by
    rw [List.length_drop] at inside
    omega
  have none : (⟨none, -1, .noZip⟩ : Found).Within limit :=
    ⟨le_trans (by decide : (-1 : Int) ≤ 0) (Int.natCast_nonneg limit), nofun⟩
  obtain ⟨before, after, split, lower, upper⟩ := eocd_candidates_split behind inside magic
  have reached := foldl_within none (fun place' member => earlier place' (lower place' member))
  obtain ⟨cdir, best, error, takes, positive, same⟩ := consider_taken reached reads further
  obtain ⟨error', kept⟩ := foldl_unread ⟨some cdir, best, error⟩
    (fun place' member => later place' (upper place' member))
  unfold findCentralDir
  rw [if_neg long]
  dsimp only
  rw [split, List.foldl_append, List.foldl_cons, takes, kept]
  dsimp only
  rw [if_neg (by omega)]
  exact ⟨cdir, rfl, same⟩

end

def directoryIsZip64 (offset : Nat) (entries : List Dirent) : Bool :=
  (entries.any fun de => de.isZip64 ⟨false, false⟩) || 0xffffffff < offset ||
    65535 < entries.length

def eocdPlace (file : Bytes) (comment : Option ZipString) : Nat :=
  file.length - (eocdLen + ZipString.length comment)

/-- Nothing behind the data of the entries passes for the end of a directory but
the end that was written, and nothing before that for a locator. -/
structure Unambiguous (platform : Platform) (file : Bytes) (comment : Option ZipString)
    (directory size : Nat) (isZip64 : Bool) : Prop where
  plain : Unmistakable file isZip64 size (eocdPlace file comment)
  alone : ∀ place, directory ≤ bufferStart file + place →
    bufferStart file + place ≠ eocdPlace file comment → ∃ error,
      readCdir platform file (file.drop (bufferStart file)) (bufferStart file) place = .error error

theorem write_entries_zip64 {platform : Platform} {entries : List Dirent} {bytes : Bytes}
    {any64 : Bool} (written : writeEntries platform entries = some (bytes, any64)) :
    any64 = entries.any fun de => de.isZip64 ⟨false, false⟩ := by
  induction entries generalizing bytes any64 with
  | nil =>
      cases written
      rfl
  | cons de entries ih =>
      obtain ⟨first, is64, more, more64, writes, writesMore, rfl, rfl⟩ :=
        write_entries_cons written
      rw [List.any_cons, Dirent.is_zip64_of_write writes, ih writesMore]

theorem cdir_write_parts {platform : Platform} {entries : List Dirent} {directory : Bytes}
    {offset size : Nat} {comment : Option ZipString}
    (directs : cdirWrite platform offset entries comment = some (directory, size)) :
    ∃ bytes any64, writeEntries platform entries = some (bytes, any64) ∧
      directory = bytes ++
        writtenEnd (directoryIsZip64 offset entries) entries.length bytes.length offset comment ∧
      size = bytes.length := by
  obtain ⟨⟨bytes, any64⟩, written, same⟩ := Option.map_eq_some_iff.mp directs
  cases same
  refine ⟨bytes, any64, written, ?_, rfl⟩
  rw [directoryIsZip64, ← write_entries_zip64 written]
  rfl

def writtenCdir (platform : Platform) (entries : List Dirent) (offset size : Nat)
    (comment : Option ZipString) : Cdir where
  entry := entries.map (recorded platform)
  nentry := entries.length
  size := size
  offset := offset
  comment := comment.map ZipString.unmarked
  isZip64 := directoryIsZip64 offset entries

section

variable {platform : Platform} {body bytes file : Bytes} {entries : List Dirent}
variable {comment : Option ZipString} {any64 : Bool}

theorem length_written_end (isZip64 : Bool) (survivors size offset : Nat) :
    (writtenEnd isZip64 survivors size offset comment).length =
      eocdDistance isZip64 + (eocdLen + ZipString.length comment) := by
  rw [writtenEnd, List.length_append, List.length_append, length_put_eocd, ZipString.length_eq]
  cases isZip64 with
  | false => rfl
  | true =>
      rw [if_pos rfl, put_eocd64_eq]
      simp [length_eocd64_fields, length_eocd64_locator, eocd64Magic, eocdDistance]

theorem eocd_place_eq {isZip64 : Bool} {survivors : Nat}
    (whole : file = body ++ (bytes ++
      writtenEnd isZip64 survivors bytes.length body.length comment)) :
    eocdPlace file comment = body.length + bytes.length + eocdDistance isZip64 := by
  rw [eocdPlace, whole, List.length_append, List.length_append, length_written_end]
  omega

theorem buffer_start_le {isZip64 : Bool} {survivors : Nat}
    (whole : file = body ++ (bytes ++
      writtenEnd isZip64 survivors bytes.length body.length comment)) :
    bufferStart file + (if isZip64 then eocd64LocLen else 0) ≤ eocdPlace file comment ∧
      (if cdBufSize ≤ (file.drop (bufferStart file)).length then eocd64LocLen else 0) ≤
        eocdPlace file comment - bufferStart file := by
  have place := eocd_place_eq whole
  have short : ZipString.length comment < 65536 := by
    cases comment with
    | none => decide
    | some kept => exact kept.short
  have length : file.length = eocdPlace file comment + (22 + ZipString.length comment) := by
    rw [place, whole, List.length_append, List.length_append, length_written_end, eocdLen]
    omega
  rw [List.length_drop]
  unfold bufferStart cdBufSize eocdLen eocd64LocLen
  cases isZip64 with
  | true =>
      simp only [eocdDistance, if_true] at place ⊢
      split <;> omega
  | false =>
      simp only [Bool.false_eq_true, if_false]
      split <;> omega

end

section

variable {context : CloseContext} {survivors : List Survivor} {comment : Option ZipString}
variable {body directory : Bytes} {entries : List Dirent} {size : Nat}

theorem checkcons_written {platform : Platform} (file : Bytes) (size limit : Nat)
    (comment : Option ZipString) {de : Dirent}
    (all : ∀ de ∈ entries, de.Recorded platform)
    (placed : ∀ de ∈ entries, ∃ data, Placed platform file body.length data de)
    (first : ∀ de ∈ entries.head?, de.offset = 0) (small : body.length < 2 ^ 63)
    (member : de ∈ entries) (further : limit < de.reach) :
    ∃ checked, checked.map Dirent.withoutExtra =
        (entries.map (recorded platform)).map Dirent.withoutExtra ∧
      ∀ error, (limit : Int) <
          (checkcons platform file
            (writtenCdir platform entries body.length size comment) error).1 ∧
        (checkcons platform file
          (writtenCdir platform entries body.length size comment) error).2.1 =
            { writtenCdir platform entries body.length size comment with entry := checked } := by
  obtain ⟨low, high, checked, checks, same, lowest, _, bounded, reaches⟩ :=
    check_entries_written 0 0 0 all placed (by omega) (Nat.zero_le _)
      (Nat.zero_le _)
  refine ⟨checked, same, fun error => ?_⟩
  have start : ((entries.map (recorded platform)).head?.map (·.offset.toNat)).getD 0 = 0 := by
    cases entries with
    | nil => rfl
    | cons de' entries => exact congrArg UInt64.toNat (first de' rfl)
  have reached := reaches de member
  have bound : int64Max.toNat = 9223372036854775807 := rfl
  unfold checkcons writtenCdir
  simp only [start, checks]
  refine ⟨?_, trivial⟩
  omega

theorem earlier_within {platform : Platform} {file : Bytes} {isZip64 : Bool} {place : Nat}
    (clear : Unambiguous platform file comment body.length size isZip64)
    (small : file.length < 2 ^ 64) (earlier : place < eocdPlace file comment - bufferStart file)
    {cdir : Cdir} (reads : readCdir platform file (file.drop (bufferStart file))
      (bufferStart file) place = .ok cdir) : cdir.Within (body.length - 47) := by
  have extent := read_cdir_extent small reads
  by_cases behind : body.length ≤ bufferStart file + place
  · obtain ⟨error, fails⟩ := clear.alone place behind (by omega)
    rw [reads] at fails
    cases fails
  · cases entry : cdir.entry with
    | nil => exact .inl entry
    | cons de entries =>
        rw [entry, List.length_cons] at extent
        exact .inr (by omega)

theorem placed_of_mem {platform : Platform} {file : Bytes} {limit : Nat}
    {survivors : List Survivor} {old : Bytes}
    (placed : List.Forall₂ (fun survivor de => ∃ data, survivor.data old = some data ∧
      Placed platform file limit data de) survivors entries) :
    ∀ de ∈ entries, ∃ data, Placed platform file limit data de := by
  induction placed with
  | nil => exact fun de member => by cases member
  | cons head _ ih =>
      obtain ⟨data, _, placed⟩ := head
      exact List.forall_mem_cons.mpr ⟨⟨data, placed⟩, ih⟩

theorem raw_data_written {platform : Platform} {file old : Bytes} {limit : Nat}
    {found : List Dirent}
    (placed : List.Forall₂ (fun survivor de => ∃ data, survivor.data old = some data ∧
      Placed platform file limit data de) survivors entries)
    (fits : ∀ de ∈ entries, ∀ flags, (de.extraBytes platform flags).length < 65536)
    (within : limit ≤ file.length) (small : file.length ≤ int64Max.toNat)
    (same : found.map Dirent.withoutExtra =
      entries.map (Dirent.withoutExtra ∘ recorded platform)) :
    List.Forall₂ (fun survivor de => rawData file de = survivor.data old) survivors found := by
  induction placed generalizing found with
  | nil =>
      rw [List.map_nil, List.map_eq_nil_iff] at same
      rw [same]
      exact .nil
  | @cons survivor de survivors entries head tail ih =>
      obtain ⟨data, data', placed⟩ := head
      obtain ⟨fitsFirst, fitsMore⟩ := List.forall_mem_cons.mp fits
      cases found with
      | nil => cases same
      | cons entry found =>
          obtain ⟨sameFirst, sameMore⟩ := List.cons.inj same
          apply List.Forall₂.cons
          · have offset : entry.withoutExtra.offset = de.offset :=
              congrArg (·.offset) sameFirst
            have size : entry.withoutExtra.compSize = de.compSize :=
              congrArg (·.compSize) sameFirst
            rw [data']
            exact placed.raw_data fitsFirst within small offset size
          · exact ih fitsMore sameMore

/-- What the parts of an archive have to be like for it to be found again: its
headers tell all of every entry, and one written before its data as one written
after them; some entry, its local extra fields not counted, reaches to less than
47 bytes before the directory; and nothing behind the data passes for an end
that was not written. -/
structure CloseContext.Recoverable (context : CloseContext) (survivors : List Survivor)
    (comment : Option ZipString) (body : Bytes) (entries : List Dirent) (directory : Bytes)
    (size : Nat) : Prop where
  keeps : ∀ survivor ∈ survivors, survivor.KeepsZip64 context.algorithms
  all : ∀ de ∈ entries, de.Recorded context.platform
  small : (body ++ directory).length ≤ int64Max.toNat
  last : ∃ de ∈ entries, body.length < de.reach + 47
  clear : Unambiguous context.platform (body ++ directory) comment body.length size
    (directoryIsZip64 body.length entries)

theorem written_read_back (writes : context.writeSurvivors 0 survivors = some (body, entries))
    (directs : cdirWrite context.platform body.length entries comment = some (directory, size))
    (recoverable : context.Recoverable survivors comment body entries directory size) :
    ∃ cdir, findCentralDir context.platform (body ++ directory) = .ok cdir ∧
      cdir.entry.map Dirent.withoutExtra =
        (entries.map (recorded context.platform)).map Dirent.withoutExtra ∧
      cdir.comment = comment.map ZipString.unmarked ∧ cdir.offset = body.length ∧
      List.Forall₂ (fun survivor de => rawData (body ++ directory) de = survivor.data context.old)
        survivors cdir.entry := by
  obtain ⟨keeps, all, small, ⟨de, member, reaches⟩, clear⟩ := recoverable
  obtain ⟨bytes, any64, written, whole, rfl⟩ := cdir_write_parts directs
  have bound : int64Max.toNat = 9223372036854775807 := rfl
  have inside : body.length ≤ (body ++ directory).length := by
    rw [List.length_append]
    omega
  have placed := write_survivors_placed writes keeps (fun de member => (all de member).kept _)
    (show (body ++ directory).drop 0 = body ++ directory from rfl) (by omega) (Nat.zero_le _)
    (show 0 + body.length ≤ body.length by omega)
  have placedAll := placed_of_mem placed
  have first : ∀ de ∈ entries.head?, de.offset = 0 := by
    intro de head
    cases entries with
    | nil => cases head
    | cons de' entries =>
        cases head
        exact write_survivors_first writes keeps ((all _ List.mem_cons_self).kept _)
  have file : body ++ directory = body ++ (bytes ++ writtenEnd
      (directoryIsZip64 body.length entries) entries.length bytes.length body.length comment) :=
    congrArg (body ++ ·) whole
  have place := eocd_place_eq file
  obtain ⟨inBuffer, behind⟩ := buffer_start_le file
  have zip64 : directoryIsZip64 body.length entries =
      (any64 || 0xffffffff < body.length || 65535 < entries.length) := by
    rw [write_entries_zip64 written]
    rfl
  rw [place] at inBuffer
  have reads := read_cdir_written written all zip64 file small inBuffer (place ▸ clear.plain)
  rw [← place] at reads
  change _ = Except.ok
    (writtenCdir context.platform entries body.length bytes.length comment) at reads
  have least : 30 ≤ de.reach := Nat.le_add_left _ _
  obtain ⟨checked, same, checks⟩ := checkcons_written (body ++ directory) bytes.length
    (body.length - 47) comment all placedAll first
    (by omega) member (by omega)
  have start : bufferStart (body ++ directory) ≤ eocdPlace (body ++ directory) comment := by
    omega
  obtain ⟨cdir, finds, which⟩ := find_central_dir behind reads (fun error => (checks error).1)
    (fun place' earlier cdir => earlier_within clear (by omega) earlier)
    (fun place' later => clear.alone place' (by omega) (by omega))
  have core : cdir.entry.map Dirent.withoutExtra =
      (entries.map (recorded context.platform)).map Dirent.withoutExtra ∧
        cdir.comment = comment.map ZipString.unmarked ∧ cdir.offset = body.length := by
    rcases which with rfl | ⟨error, rfl⟩
    · exact ⟨rfl, rfl, rfl⟩
    · rw [(checks error).2]
      exact ⟨same, rfl, rfl⟩
  refine ⟨cdir, finds, core.1, core.2.1, core.2.2, ?_⟩
  rw [List.map_map] at core
  exact raw_data_written placed (fun de member => (all de member).fits) inside small core.1

theorem close_file_parts {file : Bytes} (closes : context.closeFile survivors comment = some file) :
    ∃ body entries directory size, context.writeSurvivors 0 survivors = some (body, entries) ∧
      cdirWrite context.platform body.length entries comment = some (directory, size) ∧
        file = body ++ directory := by
  obtain ⟨⟨body, entries⟩, writes, closes⟩ := Option.bind_eq_some_iff.mp closes
  obtain ⟨⟨directory, size⟩, directs, closes⟩ := Option.bind_eq_some_iff.mp closes
  exact ⟨body, entries, directory, size, writes, directs, (Option.some.inj closes).symm⟩

theorem unread_of_magic {platform : Platform} {file : Bytes} {place : Nat}
    (magic : (file.drop (bufferStart file + place)).take 4 ≠ eocdMagic) :
    ∃ error, readCdir platform file (file.drop (bufferStart file)) (bufferStart file) place =
      .error error := by
  cases reads : readCdir platform file (file.drop (bufferStart file)) (bufferStart file) place with
  | error error => exact ⟨error, rfl⟩
  | ok cdir =>
      have there := (read_cdir_candidate reads).2
      rw [List.drop_drop] at there
      exact absurd there magic

end

def addedEntry (name : ZipString) : Dirent where
  localExtraFieldsRead := false
  crcValid := true
  versionMadeby := 831
  versionNeeded := 10
  bitflags := 0
  compMethod := -1
  lastMod := 0
  crc := 0
  compSize := 0
  uncompSize := 0
  filename := some name
  extraFields := []
  comment := none
  diskNumber := 0
  intAttrib := 0
  extAttrib := 0x81b60000
  offset := 0
  encryptionMethod := .aes256

/-- Data that no layer changes. -/
def plainSource (data : Bytes) : DataSource where
  stat := ⟨some (UInt64.ofNat data.length), none, none, none, none, none⟩
  data := data
  final := ⟨some (UInt64.ofNat data.length), none, some 0, none, some 7, some 0⟩
  attributes := ⟨none, none, none, none, none⟩

def freshContext : CloseContext := ⟨Dirent.fixedPlatform, fun _ => none, 0, []⟩

/-- The bytes of an archive with a file of three bytes that is to start at an
offset. -/
def innerArchive (offset : Nat) : Option Bytes := do
  let (body, entries) ← freshContext.writeSurvivors offset
    [.added (addedEntry ⟨ascii "b.txt", .ascii, by decide, by decide, by decide⟩)
      ⟨false, false, true⟩ (plainSource [1, 2, 3])]
  let (directory, _) ← cdirWrite Dirent.fixedPlatform (offset + body.length) entries none
  return body ++ directory

/-- An archive with that archive in it, placed so that its directory is read and
found consistent before the right one. -/
def nestedArchive : List Survivor :=
  [.added (addedEntry ⟨ascii "a.zip", .ascii, by decide, by decide, by decide⟩)
    ⟨false, false, true⟩ (plainSource ((innerArchive 66).getD []))]

def nestedEntry : Dirent :=
  { addedEntry ⟨ascii "a.zip", .ascii, by decide, by decide, by decide⟩ with
    versionNeeded := 51
    bitflags := 1
    compMethod := 0
    crc := 7
    compSize := 153
    uncompSize := 153 }

def nestedBody : Bytes := ((freshContext.writeSurvivors 0 nestedArchive).getD ([], [])).1

theorem writes_nested :
    freshContext.writeSurvivors 0 nestedArchive = some (nestedBody, [nestedEntry]) := by
  decide +kernel

theorem recorded_nested : nestedEntry.Recorded Dirent.fixedPlatform where
  storable :=
    { nulFree := by
        intro name there
        cases there
        decide
      external := nofun
      method := by decide
      disk := by decide
      offset := by decide
      encryption := ⟨nofun, nofun⟩ }
  kept := by
    intro flags
    obtain ⟨isLocal, forceZip64⟩ := flags
    cases isLocal <;> cases forceZip64 <;> rfl
  fits := by
    intro flags
    obtain ⟨isLocal, forceZip64⟩ := flags
    cases isLocal <;> cases forceZip64 <;> decide

def nestedDirectory : Bytes :=
  ((cdirWrite Dirent.fixedPlatform nestedBody.length [nestedEntry] none).getD ([], 0)).1

theorem unambiguous_nested : Unambiguous Dirent.fixedPlatform (nestedBody ++ nestedDirectory) none
    nestedBody.length 62 (directoryIsZip64 nestedBody.length [nestedEntry]) where
  plain := by
    intro _
    constructor <;> decide +kernel
  alone := by
    have magic : ∀ place < 303, nestedBody.length ≤ place →
        place ≠ eocdPlace (nestedBody ++ nestedDirectory) none →
          ((nestedBody ++ nestedDirectory).drop place).take 4 ≠ eocdMagic := by
      decide +kernel
    have whole : (nestedBody ++ nestedDirectory).length = 303 := by decide +kernel
    intro place behind other
    apply unread_of_magic
    by_cases inside : bufferStart (nestedBody ++ nestedDirectory) + place < 303
    · exact magic _ inside behind other
    · rw [List.drop_eq_nil_of_le (by omega)]
      decide

theorem directs_nested :
    cdirWrite Dirent.fixedPlatform nestedBody.length [nestedEntry] none =
      some (nestedDirectory, 62) := by
  decide +kernel

theorem recoverable_nested :
    freshContext.Recoverable nestedArchive none nestedBody [nestedEntry] nestedDirectory 62 where
  keeps := by
    intro survivor member
    rw [List.mem_singleton.mp member]
    change (Dirent.planned _ _ _).1.zip64Lost _ = false
    decide +kernel
  all := List.forall_mem_singleton.mpr recorded_nested
  small := by decide +kernel
  last := ⟨nestedEntry, List.mem_singleton_self _, by decide +kernel⟩
  clear := unambiguous_nested

end FileTransfer
