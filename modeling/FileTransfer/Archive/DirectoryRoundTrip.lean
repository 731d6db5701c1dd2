import FileTransfer.Archive.CentralDirectory
import FileTransfer.Archive.DirentRoundTrip

/-!
# The central directory is read as it was written

What `_zip_read_cdir` makes of the bytes of `_zip_cdir_write` when it is given
the place where they end.
-/

namespace FileTransfer

set_option autoImplicit false

open Binary (encodeLE decodeLE Cursor)
open Binary.Cursor (Reads reads_pure Moves moves_pure)

namespace ZipBuffer

theorem moves_number (width : Nat) : Moves (getNumber width) width := by
  intro cursor rest at' enough
  obtain ⟨got, behind⟩ := at'.get_drop enough
  unfold getNumber
  generalize cursor.get width = taken at got behind
  obtain ⟨number, cursor'⟩ := taken
  cases got
  exact behind

theorem moves_map {β γ : Type} {reader : StateM ZipBuffer β} {count : Nat}
    (moves : Moves reader count) (f : β → γ) : Moves (do return f (← reader)) count :=
  (moves.bind fun value => moves_pure (f value)).of_eq (Nat.add_zero count)

theorem moves_get16 : Moves get16 2 := moves_map (moves_number 2) _
theorem moves_get32 : Moves get32 4 := moves_map (moves_number 4) _

end ZipBuffer

namespace Dirent

open ZipBuffer

variable {platform : Platform} {file bytes rest : Bytes} {buffer behind : ZipBuffer}

theorem moves_header (platform : Platform) (isLocal : Bool) :
    Moves (readHeader platform isLocal) (entrySize isLocal - 4) := by
  unfold readHeader
  cases isLocal with
  | true =>
      simp only [if_true, pure_bind]
      apply Moves.of_eq
      · iterate 5 apply moves_get16.bind; intro _
        iterate 3 apply moves_get32.bind; intro _
        iterate 2 apply moves_get16.bind; intro _
        exact moves_pure _
      · rfl
  | false =>
      simp only [Bool.false_eq_true, if_false]
      apply Moves.of_eq
      · iterate 6 apply moves_get16.bind; intro _
        iterate 3 apply moves_get32.bind; intro _
        iterate 5 apply moves_get16.bind; intro _
        iterate 2 apply moves_get32.bind; intro _
        exact moves_pure _
      · rfl

theorem read_string_moves {len : Nat} {nulp isUtf8 : Bool} {detail : Nat}
    {string : Option ZipString} (at' : buffer.At rest)
    (reads : readString len nulp isUtf8 detail buffer = .ok (string, behind)) :
    len ≤ rest.length ∧ behind.At (rest.drop len) := by
  unfold readString at reads
  split at reads
  · rename_i none
    cases reads
    rw [none]
    exact ⟨Nat.zero_le _, at'⟩
  · by_cases enough : len ≤ rest.length
    · obtain ⟨got, at''⟩ := at'.get_drop enough
      generalize buffer.get len = taken at reads got at''
      obtain ⟨data, buffer'⟩ := taken
      cases got
      refine ⟨enough, ?_⟩
      dsimp only at reads
      split at reads
      · cases reads
      · split at reads
        · split at reads
          · cases reads
          · cases reads
            exact at''
        · cases reads
          exact at''
    · rw [Cursor.get_short (by rw [at'.left_eq]; omega)] at reads
      cases reads

theorem read_extra_fields_moves {len : Nat} {flags : HeaderFlags} {fields : List ExtraField}
    (at' : buffer.At rest) (reads : readExtraFields len flags buffer = .ok (fields, behind)) :
    len ≤ rest.length ∧ behind.At (rest.drop len) := by
  unfold readExtraFields at reads
  split at reads
  · rename_i none
    cases reads
    rw [none]
    exact ⟨Nat.zero_le _, at'⟩
  · by_cases enough : len ≤ rest.length
    · obtain ⟨got, at''⟩ := at'.get_drop enough
      generalize buffer.get len = taken at reads got at''
      obtain ⟨data, buffer'⟩ := taken
      cases got
      cases parses : efParse flags (rest.take len) with
      | error error =>
          simp only [parses, Except.map] at reads
          cases reads
      | ok fields' =>
          simp only [parses, Except.map] at reads
          cases reads
          exact ⟨enough, at''⟩
    · rw [Cursor.get_short (by rw [at'.left_eq]; omega)] at reads
      cases reads

theorem read_variable_moves {isLocal : Bool} {de entry : Dirent}
    {filenameLen efLen commentLen : UInt16} (at' : buffer.At rest)
    (reads : de.readVariable platform isLocal filenameLen efLen commentLen buffer =
      .ok (entry, behind)) :
    behind.At (rest.drop (filenameLen.toNat + efLen.toNat + commentLen.toNat)) := by
  unfold readVariable at reads
  simp only [bind, Except.bind] at reads
  split at reads
  · cases reads
  · rename_i name readsName
    split at reads
    · cases reads
    · rename_i fields readsFields
      split at reads
      · cases reads
      · rename_i comment readsComment
        cases reads
        have behindName := (read_string_moves at' readsName).2
        have behindFields := (read_extra_fields_moves behindName readsFields).2
        have behindComment := (read_string_moves behindFields readsComment).2
        rwa [List.drop_drop, List.drop_drop, ← Nat.add_assoc] at behindComment

section

variable {input : Input} {fixed : Bytes}

theorem fixed_part_of_ok {size : Nat} (before : input.Before file bytes)
    (takes : input.fixedPart file size = .ok buffer) :
    size ≤ bytes.length ∧ buffer.At (bytes.take size ++ input.ahead (bytes.drop size)) := by
  by_cases enough : size ≤ bytes.length
  · have length : (bytes.take size).length = size := by rw [List.length_take]; omega
    rw [← List.take_append_drop size bytes] at before
    obtain ⟨buffer', takes', at'⟩ := fixed_part before
    rw [length, takes] at takes'
    cases takes'
    exact ⟨enough, at'⟩
  · cases input with
    | buffer given =>
        rw [Input.fixedPart, if_pos (by rw [before.left_eq]; omega)] at takes
        cases takes
    | source position =>
        rw [Input.fixedPart, newFromSource, before, if_neg enough] at takes
        cases takes

theorem variable_part_of_ok {variableSize : Nat} (before : input.Before file (fixed ++ rest))
    (at' : buffer.At (input.ahead rest))
    (takes : input.variablePart file fixed.length variableSize buffer = .ok behind) :
    variableSize ≤ rest.length ∧
      behind.At (rest.take variableSize ++ input.ahead (rest.drop variableSize)) := by
  by_cases enough : variableSize ≤ rest.length
  · have length : (rest.take variableSize).length = variableSize := by
      rw [List.length_take]
      omega
    rw [← List.take_append_drop variableSize rest] at before at'
    obtain ⟨buffer', takes', at''⟩ := variable_part before at'
    rw [length, takes] at takes'
    cases takes'
    exact ⟨enough, at''⟩
  · cases input with
    | buffer given =>
        rw [Input.variablePart, if_pos (by rw [at'.left_eq, Input.ahead]; omega)] at takes
        cases takes
    | source position =>
        have drop : file.drop (position + fixed.length) = rest := by
          rw [← List.drop_drop, before, List.drop_left]
        rw [Input.variablePart, newFromSource, drop, if_neg enough] at takes
        cases takes

end

/-- Whatever is read as an entry is at least as long as its part of fixed length
and no longer than what is there; the next one is read behind it. -/
theorem read_extent {isLocal : Bool} {input next : Input} {de : Dirent} {size : Nat}
    (before : input.Before file bytes)
    (reads : read platform file isLocal input = .ok (de, size, next)) :
    entrySize isLocal ≤ size ∧ size ≤ bytes.length ∧ next.Before file (bytes.drop size) := by
  unfold read at reads
  simp only [bind, Except.bind] at reads
  split at reads
  · cases reads
  rename_i buffer takesFixed
  obtain ⟨enough, atFixed⟩ := fixed_part_of_ok before takesFixed
  have length : (bytes.take (entrySize isLocal)).length = entrySize isLocal := by
    rw [List.length_take]
    omega
  have four : 4 ≤ entrySize isLocal := by cases isLocal <;> decide
  have enough4 : 4 ≤ (bytes.take (entrySize isLocal) ++
      input.ahead (bytes.drop (entrySize isLocal))).length := by
    rw [List.length_append]
    omega
  have atHeader := (atFixed.get_drop enough4).2
  cases takesMagic : buffer.get 4 with
  | mk magic behindMagic =>
  rw [takesMagic] at atHeader
  simp only [takesMagic] at reads
  generalize (if isLocal = true then localMagic else centralMagic) = expected at reads
  split at reads
  · cases reads
  cases readsHeader : (readHeader platform isLocal).run behindMagic with
  | mk header behindHeader =>
  obtain ⟨entry, filenameLen, efLen, commentLen⟩ := header
  have atVariable := moves_header platform isLocal behindMagic _ atHeader (by
    rw [List.length_drop, List.length_append]
    omega)
  rw [show (readHeader platform isLocal behindMagic).2 = behindHeader from
    congrArg Prod.snd readsHeader, List.drop_drop, Nat.add_sub_cancel' four,
    List.drop_left' length] at atVariable
  simp only [readsHeader] at reads
  split at reads
  · cases reads
  split at reads
  · cases reads
  rename_i buffer' takesVariable
  rw [← List.take_append_drop (entrySize isLocal) bytes] at before
  rw [← length] at takesVariable
  obtain ⟨enough', atVariable'⟩ := variable_part_of_ok before atVariable takesVariable
  split at reads
  · cases reads
  rename_i variable' readsVariable
  obtain ⟨entry', behind⟩ := variable'
  have atRest := read_variable_moves atVariable' readsVariable
  have variableLength : ((bytes.drop (entrySize isLocal)).take (filenameLen.toNat +
      efLen.toNat + commentLen.toNat)).length =
        filenameLen.toNat + efLen.toNat + commentLen.toNat := by
    rw [List.length_take]
    omega
  rw [List.drop_left' variableLength] at atRest
  split at reads
  · cases reads
  split at reads
  · cases reads
  split at reads
  · cases reads
  cases reads
  rw [List.length_drop] at enough'
  rw [← List.take_append_drop (filenameLen.toNat + efLen.toNat + commentLen.toNat)
    (bytes.drop (entrySize isLocal)), ← List.append_assoc] at before
  have next := behind_before before atRest
  rw [List.length_append, length, variableLength, List.drop_drop] at next
  exact ⟨by omega, by omega, next⟩

/-- An entry that its headers tell everything of. -/
structure Recorded (platform : Platform) (de : Dirent) : Prop where
  storable : de.Storable
  kept : ∀ flags, de.zip64Lost flags = false
  fits : ∀ flags, (de.extraBytes platform flags).length < 65536

def recorded (platform : Platform) (de : Dirent) : Dirent :=
  de.readBack platform ⟨false, false⟩

theorem length_write {de : Dirent} {flags : WriteFlags} {is64 : Bool}
    (written : de.write platform flags = some (bytes, is64)) :
    bytes.length = entrySize flags.isLocal + ZipString.length de.filename +
      (de.extraBytes platform flags).length +
        ZipString.length (if flags.isLocal then none else de.comment) := by
  obtain ⟨internal, made, same⟩ := Option.map_eq_some_iff.mp written
  obtain ⟨whole, _⟩ := Prod.mk.inj same
  have header : 4 + (de.flagged.putHeader platform flags
      (efSize de.extraFields (.of flags.isLocal) + efSize internal .both)).length =
        entrySize flags.isLocal := length_put_header _
  rw [← whole, extraBytes, made, Option.getD_some, ZipString.length_eq, ZipString.length_eq]
  simp only [List.flatten_cons, List.flatten_nil, List.append_nil, List.length_append, ← header]
  cases flags.isLocal with
  | true => simp [ZipString.bytes, localMagic]; omega
  | false => simp [centralMagic]; omega

end Dirent

open Dirent (recorded)

section

variable {platform : Platform} {file bytes rest : Bytes} {input : Dirent.Input}
variable {entries : List Dirent} {any64 isZip64 : Bool}

theorem write_entries_cons {de : Dirent}
    (written : writeEntries platform (de :: entries) = some (bytes, any64)) :
    ∃ first is64 more more64, de.write platform ⟨false, false⟩ = some (first, is64) ∧
      writeEntries platform entries = some (more, more64) ∧ bytes = first ++ more ∧
        any64 = (is64 || more64) := by
  simp only [writeEntries, Option.bind_eq_bind, Option.bind_eq_some_iff, Option.pure_def] at written
  obtain ⟨⟨first, is64⟩, writes, ⟨more, more64⟩, writesMore, same⟩ := written
  cases same
  exact ⟨first, is64, more, more64, writes, writesMore, rfl, rfl⟩

theorem length_write_entries (written : writeEntries platform entries = some (bytes, any64)) :
    46 * entries.length ≤ bytes.length := by
  induction entries generalizing bytes any64 with
  | nil => exact Nat.zero_le _
  | cons de entries ih =>
      obtain ⟨first, is64, more, more64, writes, writesMore, rfl, rfl⟩ :=
        write_entries_cons written
      have length := Dirent.length_write writes
      have rest := ih writesMore
      simp only [entrySize, Bool.false_eq_true, if_false] at length
      rw [List.length_append, List.length_cons]
      omega

theorem read_entries_written (isZip64 : Bool) (fuel i : Nat)
    (written : writeEntries platform entries = some (bytes, any64))
    (all : ∀ de ∈ entries, de.Recorded platform) (enough : bytes.length < fuel)
    (before : input.Before file (bytes ++ rest)) :
    readEntries platform file isZip64 fuel bytes.length i (i + entries.length) input =
      .ok (entries.map (recorded platform), 0, i + entries.length, i + entries.length) := by
  induction entries generalizing bytes any64 fuel i input with
  | nil =>
      cases written
      cases fuel with
      | zero => cases enough
      | succ fuel => rfl
  | cons de entries ih =>
      obtain ⟨first, is64, more, more64, writes, writesMore, rfl, rfl⟩ :=
        write_entries_cons written
      obtain ⟨⟨storable, kept, fits⟩, others⟩ := List.forall_mem_cons.mp all
      have length := Dirent.length_write writes
      simp only [entrySize, Bool.false_eq_true, if_false] at length
      rw [List.length_append] at enough ⊢
      rw [List.append_assoc] at before
      have found := Dirent.read_write storable writes (fits _) before
      rw [kept, if_neg (by decide)] at found
      obtain ⟨behind, reads, before'⟩ := found
      rw [List.length_cons]
      cases fuel with
      | zero => cases enough
      | succ fuel =>
          have rest := ih fuel (i + 1) writesMore others (by omega) before'
          have again : i ≠ i + (entries.length + 1) := by omega
          have count : i + 1 + entries.length = i + (entries.length + 1) := by omega
          rw [count] at rest
          rw [readEntries, if_neg (by omega)]
          simp only [again, decide_false, Bool.false_and, Bool.false_eq_true, if_false, reads,
            Nat.le_add_right, if_true, Nat.add_sub_cancel_left, rest]
          rfl

theorem except_map_eq_ok {α β : Type} {f : α → β} {result : Except ReadError α} {value : β}
    (same : result.map f = .ok value) : ∃ given, result = .ok given ∧ f given = value := by
  cases result with
  | error error => cases same
  | ok given => exact ⟨given, rfl, by cases same; rfl⟩

theorem read_entries_extent {fuel left i nentry count total : Nat} (small : bytes.length < 2 ^ 64)
    (before : input.Before file bytes)
    (reads : readEntries platform file isZip64 fuel left i nentry input =
      .ok (entries, 0, count, total)) :
    left ≤ bytes.length ∧ 46 * entries.length ≤ left := by
  induction fuel generalizing left i nentry input entries bytes with
  | zero => cases reads
  | succ fuel ih =>
      rw [readEntries] at reads
      split at reads
      · rename_i none
        cases reads
        rw [none]
        exact ⟨Nat.zero_le _, le_rfl⟩
      · split at reads
        · cases reads
          exact ⟨Nat.zero_le _, le_rfl⟩
        · split at reads
          · cases reads
          · rename_i de size behind readsFirst
            obtain ⟨least, within, before'⟩ := Dirent.read_extent before readsFirst
            obtain ⟨⟨more, counts⟩, readsMore, same⟩ := except_map_eq_ok reads
            cases same
            have shorter : (bytes.drop size).length < 2 ^ 64 := by
              rw [List.length_drop]
              omega
            have rest := ih shorter before' readsMore
            simp only [entrySize, Bool.false_eq_true, if_false] at least
            rw [List.length_drop] at rest
            rw [List.length_cons]
            -- a size that is too small would leave almost all of 64 bits
            split at rest
            · omega
            · omega

end

theorem buffer_at {data : Bytes} {offset : Nat} (within : offset ≤ data.length) :
    (bufferAt data offset).At (data.drop offset) := by
  have set : ((Cursor.start data).setOffset offset).At (data.drop offset) :=
    Cursor.At.set_offset within
  exact set

theorem buffer_at_place (file : Bytes) {bufOffset place : Nat} (from' : bufOffset ≤ place)
    (within : place ≤ file.length) :
    (bufferAt (file.drop bufOffset) (place - bufOffset)).At (file.drop place) := by
  have inside : place - bufOffset ≤ (file.drop bufOffset).length := by
    rw [List.length_drop]
    omega
  have set := buffer_at inside
  rwa [List.drop_drop, Nat.add_sub_cancel' from'] at set

theorem reads_magic : Reads (ZipBuffer.getNumber 4) eocdMagic 0x06054b50 := by
  have fits : 0x06054b50 < 256 ^ 4 := by decide
  exact ZipBuffer.reads_number fits

/-- The end of the directory, without the comment and its length. -/
def eocdFields (survivors size offset : Nat) : Bytes :=
  [eocdMagic, encodeLE 4 0, encodeLE 2 (min survivors 65535), encodeLE 2 (min survivors 65535),
    encodeLE 4 (min size 0xffffffff), encodeLE 4 (min offset 0xffffffff)].flatten

theorem put_eocd_eq (survivors size offset : Nat) (comment : Option ZipString) :
    putEocd survivors size offset comment =
      eocdFields survivors size offset ++ encodeLE 2 (ZipString.length comment) := by
  simp [putEocd, eocdFields]

theorem length_eocd_fields (survivors size offset : Nat) :
    (eocdFields survivors size offset).length = 20 := by
  simp [eocdFields, eocdMagic]

theorem reads_eocd_fields (survivors size offset : Nat) :
    Reads readEocdFields (eocdFields survivors size offset)
      (0, min survivors 65535, min survivors 65535, min size 0xffffffff,
        min offset 0xffffffff) := by
  unfold readEocdFields eocdFields
  simp only [List.flatten_cons, List.flatten_nil]
  apply reads_magic.bind
  apply (ZipBuffer.reads_number (by decide)).bind
  apply (ZipBuffer.reads_number (by omega)).bind
  apply (ZipBuffer.reads_number (by omega)).bind
  apply (ZipBuffer.reads_number (by omega)).bind
  apply (ZipBuffer.reads_number (by omega)).bind
  exact reads_pure _

theorem read_eocd_written {data rest : Bytes} {bufOffset eocdOffset survivors size offset : Nat}
    {comment : Option ZipString}
    (at' : (bufferAt data eocdOffset).At (putEocd survivors size offset comment ++ rest))
    (few : survivors ≤ 65535) (small : size ≤ 0xffffffff) (low : offset ≤ 0xffffffff)
    (before : offset + size ≤ bufOffset + eocdOffset) :
    readEocd data bufOffset eocdOffset = .ok ⟨[], survivors, size, offset, none, false⟩ := by
  have left := at'.left_eq
  rw [put_eocd_eq, List.append_assoc] at at' left
  rw [List.length_append, length_eocd_fields, List.length_append, Binary.length_encode_le] at left
  obtain ⟨behind, reads, _⟩ := (reads_eocd_fields survivors size offset).run at'
  rw [Nat.min_eq_left few, Nat.min_eq_left small, Nat.min_eq_left low] at reads
  unfold readEocd
  simp only [reads, left]
  rw [if_neg (by unfold eocdLen; omega), if_neg (by decide), if_neg (not_not_intro rfl),
    if_neg (by omega)]

def eocd64Fields (survivors size offset : Nat) : Bytes :=
  [encodeLE 8 (eocd64Len - 12), encodeLE 2 45, encodeLE 2 45, encodeLE 4 0, encodeLE 4 0,
    encodeLE 8 survivors, encodeLE 8 survivors, encodeLE 8 size, encodeLE 8 offset].flatten

/-- The locator, without the count of disks at its end. -/
def eocd64Locator (place : Nat) : Bytes :=
  [eocd64LocMagic, encodeLE 4 0, encodeLE 8 place].flatten

theorem put_eocd64_eq (survivors size offset : Nat) :
    putEocd64 survivors size offset = eocd64Magic ++ (eocd64Fields survivors size offset ++
      (eocd64Locator (offset + size) ++ encodeLE 4 1)) := by
  simp [putEocd64, eocd64Fields, eocd64Locator]

theorem length_eocd64_fields (survivors size offset : Nat) :
    (eocd64Fields survivors size offset).length = 52 := by
  simp [eocd64Fields]

theorem length_eocd64_locator (place : Nat) : (eocd64Locator place).length = 16 := by
  simp [eocd64Locator, eocd64LocMagic]

theorem reads_eocd64_loc {place : Nat} (fits : place < 2 ^ 64) :
    Reads readEocd64Loc (eocd64Locator place) (0, 0, place) := by
  have magic : Reads (ZipBuffer.getNumber 4) eocd64LocMagic 0x07064b50 := by
    have fits' : 0x07064b50 < 256 ^ 4 := by decide
    exact ZipBuffer.reads_number fits'
  have disks : encodeLE 4 0 = encodeLE 2 0 ++ encodeLE 2 0 := rfl
  unfold readEocd64Loc eocd64Locator
  simp only [List.flatten_cons, List.flatten_nil, disks, List.append_assoc]
  apply magic.bind
  apply (ZipBuffer.reads_number (by decide)).bind
  apply (ZipBuffer.reads_number (by decide)).bind
  apply (ZipBuffer.reads_number fits).bind
  exact reads_pure _

theorem reads_eocd64_fields {survivors size offset : Nat} (few : survivors < 2 ^ 64)
    (small : size < 2 ^ 64) (low : offset < 2 ^ 64) :
    Reads readEocd64Fields (eocd64Fields survivors size offset)
      (0, 0, survivors, survivors, size, offset) := by
  have versions : encodeLE 2 45 ++ (encodeLE 2 45 ++ (encodeLE 4 0 ++ (encodeLE 4 0 ++
      (encodeLE 8 survivors ++ (encodeLE 8 survivors ++ (encodeLE 8 size ++
        (encodeLE 8 offset ++ []))))))) =
      encodeLE 4 0x2d002d ++ (encodeLE 4 0 ++ (encodeLE 4 0 ++
        (encodeLE 8 survivors ++ (encodeLE 8 survivors ++ (encodeLE 8 size ++
          (encodeLE 8 offset ++ [])))))) := by
    rw [← List.append_assoc]
    rfl
  unfold readEocd64Fields eocd64Fields
  simp only [List.flatten_cons, List.flatten_nil, versions]
  apply (ZipBuffer.reads_number (by decide)).bind
  apply (ZipBuffer.reads_number (by decide)).bind
  iterate 2 apply (ZipBuffer.reads_number (by decide)).bind
  iterate 2 apply (ZipBuffer.reads_number few).bind
  apply (ZipBuffer.reads_number small).bind
  apply (ZipBuffer.reads_number low).bind
  exact reads_pure _

section

variable {file tail : Bytes} {bufOffset survivors size offset : Nat}

theorem eocd64_buffer_written (bufOffset : Nat)
    (there : file.drop (offset + size) = putEocd64 survivors size offset ++ tail) :
    ∃ buffer rest, eocd64Buffer file (file.drop bufOffset) bufOffset (offset + size) = .ok buffer ∧
      buffer.At (eocd64Magic ++ (eocd64Fields survivors size offset ++ rest)) := by
  rw [put_eocd64_eq, List.append_assoc, List.append_assoc] at there
  have length := congrArg List.length there
  simp only [List.length_drop, List.length_append, length_eocd64_fields,
    show eocd64Magic.length = 4 from rfl] at length
  unfold eocd64Buffer
  split
  · rename_i inBuffer
    simp only [Bool.and_eq_true, decide_eq_true_eq] at inBuffer
    have at' := buffer_at_place file inBuffer.1 (by omega)
    rw [there] at at'
    exact ⟨_, _, rfl, at'⟩
  · refine ⟨.start (eocd64Magic ++ eocd64Fields survivors size offset), [], ?_, ?_⟩
    · rw [← List.append_assoc] at there
      have taken := Dirent.new_from_source there
      rwa [List.length_append, length_eocd64_fields] at taken
    · rw [List.append_nil]
      exact Cursor.at_start _

theorem drop_locator
    (there : file.drop (offset + size) = putEocd64 survivors size offset ++ tail) :
    file.drop (offset + size + 56) =
      eocd64Locator (offset + size) ++ (encodeLE 4 1 ++ tail) := by
  have record : (eocd64Magic ++ eocd64Fields survivors size offset).length = 56 := by
    rw [List.length_append, length_eocd64_fields]
    rfl
  rw [← List.drop_drop, there, put_eocd64_eq]
  simp only [List.append_assoc]
  rw [← List.append_assoc, List.drop_left' record]

theorem read_eocd64_written
    (there : file.drop (offset + size) = putEocd64 survivors size offset ++ tail)
    (locates : bufOffset ≤ offset + size + 56) (small : file.length ≤ int64Max.toNat)
    (enough : 46 * survivors ≤ size) :
    readEocd64 file (file.drop bufOffset) bufOffset (offset + size + 56 - bufOffset) =
      .ok ⟨[], survivors, size, offset, none, true⟩ := by
  obtain ⟨buffer, rest, takes, atRecord⟩ := eocd64_buffer_written bufOffset there
  have bound : int64Max.toNat = 9223372036854775807 := rfl
  have length := congrArg List.length (drop_locator there)
  simp only [List.length_drop, List.length_append, length_eocd64_locator,
    Binary.length_encode_le] at length
  have atLocator := buffer_at_place file locates (by omega)
  rw [drop_locator there] at atLocator
  obtain ⟨_, readsLocator, _⟩ :=
    (reads_eocd64_loc (show offset + size < 2 ^ 64 by omega)).run atLocator
  obtain ⟨gotMagic, atFields⟩ := atRecord.get
  rw [show eocd64Magic.length = 4 from rfl] at gotMagic atFields
  cases takesMagic : buffer.get 4 with
  | mk magic behindMagic =>
  rw [takesMagic] at gotMagic atFields
  obtain rfl : magic = some eocd64Magic := gotMagic
  obtain ⟨behind, readsFields, atRest⟩ := (reads_eocd64_fields
    (show survivors < 2 ^ 64 by omega) (show size < 2 ^ 64 by omega)
    (show offset < 2 ^ 64 by omega)).run atFields
  have entries : ¬size / entrySize false < survivors := by
    rw [entrySize, if_neg (by decide), Nat.not_lt, Nat.le_div_iff_mul_le (by decide)]
    omega
  unfold readEocd64
  simp only [readsLocator]
  rw [if_neg (by omega), if_neg (by unfold eocd64Len; omega), takes]
  simp only [bind, Except.bind, takesMagic, readsFields, atRest.ok, entries]
  rw [if_neg (not_not_intro rfl), if_neg (by decide), if_neg (not_not_intro rfl),
    if_neg (by decide), if_neg (by simp; omega), if_neg (by omega), if_neg not_false]

end

def writtenEnd (isZip64 : Bool) (survivors size offset : Nat) (comment : Option ZipString) :
    Bytes :=
  (if isZip64 then putEocd64 survivors size offset else []) ++
    (putEocd survivors size offset comment ++ ZipString.bytes comment)

def eocdDistance (isZip64 : Bool) : Nat := if isZip64 then 76 else 0

/-- No bytes before the end of a directory that is not Zip64 look like a locator,
and its size fits. -/
def Unmistakable (file : Bytes) (isZip64 : Bool) (size eocdPlace : Nat) : Prop :=
  isZip64 = false →
    size ≤ 0xffffffff ∧ (file.drop (eocdPlace - eocd64LocLen)).take 4 ≠ eocd64LocMagic

section

variable {platform : Platform} {file head bytes : Bytes} {entries : List Dirent}
variable {comment : Option ZipString} {isZip64 any64 : Bool} {bufOffset : Nat}

theorem put_eocd_eq_magic (survivors size offset : Nat) (comment : Option ZipString) :
    ∃ rest, putEocd survivors size offset comment = eocdMagic ++ rest := by
  rw [putEocd, List.flatten_cons]
  exact ⟨_, rfl⟩

theorem length_put_eocd (survivors size offset : Nat) (comment : Option ZipString) :
    (putEocd survivors size offset comment).length = eocdLen := by
  rw [put_eocd_eq, List.length_append, length_eocd_fields, Binary.length_encode_le]
  rfl

theorem drop_written_end {survivors : Nat}
    (whole : file = head ++ (bytes ++
      writtenEnd isZip64 survivors bytes.length head.length comment)) :
    file.drop (head.length + bytes.length + eocdDistance isZip64) =
      putEocd survivors bytes.length head.length comment ++ ZipString.bytes comment := by
  rw [← List.drop_drop, whole, ← List.append_assoc, List.drop_left' (List.length_append ..),
    writtenEnd]
  cases isZip64 with
  | false => rfl
  | true =>
      apply List.drop_left'
      simp [put_eocd64_eq, length_eocd64_fields, length_eocd64_locator, eocd64Magic, eocdDistance]

theorem read_comment_written {data : Bytes} {eocdOffset survivors size offset : Nat}
    (there : data.drop eocdOffset =
      putEocd survivors size offset comment ++ ZipString.bytes comment) :
    readComment data eocdOffset = .ok (comment.map ZipString.unmarked) := by
  rw [put_eocd_eq, List.append_assoc] at there
  have lengths := congrArg List.length there
  rw [List.length_drop, List.length_append, length_eocd_fields, List.length_append,
    Binary.length_encode_le] at lengths
  have fits : ZipString.length comment < 256 ^ 2 := by
    cases comment with
    | none => decide
    | some kept => exact kept.short
  have atLength := buffer_at (show eocdOffset + 20 ≤ data.length by omega)
  rw [← List.drop_drop, there, List.drop_left' (length_eocd_fields ..)] at atLength
  obtain ⟨_, reads, _⟩ := (ZipBuffer.reads_number fits).run atLength
  unfold readComment
  rw [reads]
  cases comment with
  | none => rfl
  | some kept =>
      have inside : eocdOffset + eocdLen ≤ data.length := by
        unfold eocdLen
        omega
      have atComment := buffer_at inside
      have behind : data.drop (eocdOffset + eocdLen) = kept.raw ++ [] := by
        rw [show eocdOffset + eocdLen = eocdOffset + 20 + 2 from rfl, ← List.drop_drop,
          ← List.drop_drop, there, List.drop_left' (length_eocd_fields ..),
          List.drop_left' (Binary.length_encode_le ..), List.append_nil]
        rfl
      rw [behind] at atComment
      have nonempty : ¬kept.raw.length = 0 := fun none =>
        kept.nonempty (List.eq_nil_of_length_eq_zero none)
      have left := atComment.left_eq
      rw [List.append_nil] at left
      simp only [ZipString.length, nonempty, if_false, left, lt_irrefl, atComment.get.1,
        Option.bind_some, ZipString.new_raw, Option.map_some]

theorem cdir_input_written (bufOffset : Nat) (cd : Cdir) {rest : Bytes}
    (there : file.drop cd.offset = bytes ++ rest) (within : cd.offset ≤ file.length)
    (size : cd.size = bytes.length) :
    ∃ input rest', cdirInput (file.drop bufOffset) bufOffset cd = .ok input ∧
      input.Before file (bytes ++ rest') := by
  unfold cdirInput
  split
  · rename_i inBuffer
    have at' := buffer_at_place file inBuffer within
    rw [there] at at'
    rw [size, at'.get.1]
    refine ⟨_, [], rfl, ?_⟩
    rw [List.append_nil]
    exact Cursor.at_start bytes
  · exact ⟨_, rest, rfl, there⟩

theorem read_end_written (enough : 46 * entries.length ≤ bytes.length)
    (zip64 : isZip64 = (any64 || 0xffffffff < head.length || 65535 < entries.length))
    (whole : file = head ++ (bytes ++
      writtenEnd isZip64 entries.length bytes.length head.length comment))
    (small : file.length ≤ int64Max.toNat)
    (inBuffer : bufOffset + (if isZip64 then eocd64LocLen else 0) ≤
      head.length + bytes.length + eocdDistance isZip64)
    (plain : Unmistakable file isZip64 bytes.length
      (head.length + bytes.length + eocdDistance isZip64)) :
    readEnd file (file.drop bufOffset) bufOffset
        (head.length + bytes.length + eocdDistance isZip64 - bufOffset) =
      .ok ⟨[], entries.length, bytes.length, head.length, none, isZip64⟩ := by
  have behind : file.drop (head.length + bytes.length) =
      writtenEnd isZip64 entries.length bytes.length head.length comment := by
    rw [whole, ← List.append_assoc, List.drop_left' (List.length_append ..)]
  unfold readEnd
  cases isZip64 with
  | true =>
      simp only [if_true, eocdDistance, eocd64LocLen] at inBuffer
      simp only [writtenEnd, if_true] at behind
      have reads := read_eocd64_written behind
        (show bufOffset ≤ head.length + bytes.length + 56 by omega) small enough
      have place : head.length + bytes.length + 76 - bufOffset - 20 =
          head.length + bytes.length + 56 - bufOffset := by omega
      have locator : ((file.drop bufOffset).drop
          (head.length + bytes.length + 56 - bufOffset)).take 4 = eocd64LocMagic := by
        rw [List.drop_drop, Nat.add_sub_cancel' (by omega), drop_locator behind, eocd64Locator]
        rfl
      simp only [eocdDistance, if_true, eocd64LocLen, place, locator, decide_true, Bool.and_true]
      rw [if_pos (decide_eq_true (by omega)), reads]
  | false =>
      obtain ⟨size, noLocator⟩ := plain rfl
      simp only [Bool.false_eq, Bool.or_eq_false_iff, decide_eq_false_iff_not, Nat.not_lt] at zip64
      simp only [eocdDistance, Bool.false_eq_true, if_false, Nat.add_zero] at inBuffer noLocator ⊢
      simp only [writtenEnd, Bool.false_eq_true, if_false, List.nil_append] at behind
      have lengths := congrArg List.length behind
      rw [List.length_drop, List.length_append, put_eocd_eq, List.length_append,
        length_eocd_fields] at lengths
      have at' := buffer_at_place file inBuffer (by omega)
      rw [behind] at at'
      rw [if_neg, read_eocd_written at' zip64.2 size zip64.1.2 (by omega)]
      simp only [Bool.and_eq_true, decide_eq_true_eq, not_and]
      intro far
      rwa [List.drop_drop, show bufOffset + (head.length + bytes.length - bufOffset -
        eocd64LocLen) = head.length + bytes.length - eocd64LocLen by omega]

theorem read_cdir_written (written : writeEntries platform entries = some (bytes, any64))
    (all : ∀ de ∈ entries, de.Recorded platform)
    (zip64 : isZip64 = (any64 || 0xffffffff < head.length || 65535 < entries.length))
    (whole : file = head ++ (bytes ++
      writtenEnd isZip64 entries.length bytes.length head.length comment))
    (small : file.length ≤ int64Max.toNat)
    (inBuffer : bufOffset + (if isZip64 then eocd64LocLen else 0) ≤
      head.length + bytes.length + eocdDistance isZip64)
    (plain : Unmistakable file isZip64 bytes.length
      (head.length + bytes.length + eocdDistance isZip64)) :
    readCdir platform file (file.drop bufOffset) bufOffset
        (head.length + bytes.length + eocdDistance isZip64 - bufOffset) =
      .ok ⟨entries.map (recorded platform), entries.length, bytes.length, head.length,
        comment.map ZipString.unmarked, isZip64⟩ := by
  have enough := length_write_entries written
  have ends := read_end_written enough zip64 whole small inBuffer plain
  have behind := drop_written_end whole
  obtain ⟨rest, first⟩ := put_eocd_eq_magic entries.length bytes.length head.length comment
  have lengths := congrArg List.length behind
  rw [List.length_drop, List.length_append, length_put_eocd, eocdLen] at lengths
  have place : bufOffset ≤ head.length + bytes.length + eocdDistance isZip64 := by omega
  have atEnd := buffer_at_place file place (by omega)
  have left := atEnd.left_eq
  rw [behind, List.length_append, length_put_eocd] at left
  rw [behind, first, List.append_assoc] at atEnd
  have magic := atEnd.get.1
  rw [show eocdMagic.length = 4 from rfl] at magic
  have behind' : (file.drop bufOffset).drop
      (head.length + bytes.length + eocdDistance isZip64 - bufOffset) =
        putEocd entries.length bytes.length head.length comment ++ ZipString.bytes comment := by
    rw [List.drop_drop, Nat.add_sub_cancel' place, behind]
  have comments := read_comment_written behind'
  have there : file.drop head.length = bytes ++
      writtenEnd isZip64 entries.length bytes.length head.length comment := by
    rw [whole, List.drop_left]
  have lengths' := congrArg List.length there
  rw [List.length_drop, List.length_append] at lengths'
  obtain ⟨input, rest', takes, before⟩ := cdir_input_written bufOffset
    ⟨[], entries.length, bytes.length, head.length, none, isZip64⟩ there
    (show head.length ≤ file.length by omega) rfl
  have reads := read_entries_written isZip64 (file.length + 1) 0
    written all (by omega) before
  rw [Nat.zero_add] at reads
  unfold readCdir
  simp only [bind, Except.bind, ends, comments, takes, reads]
  rw [if_neg (by rw [left]; unfold eocdLen; omega), if_neg (not_not_intro magic),
    if_neg (by omega), if_neg (by simp)]
  rfl

end

end FileTransfer
