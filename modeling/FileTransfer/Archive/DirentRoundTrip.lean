import FileTransfer.Archive.FieldRoundTrip
import FileTransfer.Binary.Masks

/-!
# A directory entry is read as it was written

What `_zip_dirent_read` makes of the bytes of `_zip_dirent_write`, for the
local header and for the entry of the central directory.
-/

namespace FileTransfer

set_option autoImplicit false

open Binary (encodeLE decodeLE Cursor)
open Binary.Cursor (Reads reads_pure)
open Binary (or_mask clear_mask or_other_mask clear_other_mask)

section

variable (size : UInt64)

theorem clamp_lt (small : size < uint32Max) : (Dirent.clamp size).toUInt64 = size := by
  unfold Dirent.clamp
  rw [if_pos small]
  apply UInt64.toNat_inj.mp
  have bound : size.toNat < 4294967295 := small
  simp
  omega

theorem clamp_ge (large : uint32Max ≤ size) : (Dirent.clamp size).toUInt64 = uint32Max := by
  unfold Dirent.clamp
  rw [if_neg (by simpa using large)]
  rfl

theorem clamp_eq_max : (Dirent.clamp size).toUInt64 = uint32Max ↔ uint32Max ≤ size := by
  by_cases large : uint32Max ≤ size
  · simp [clamp_ge size large, large]
  · have small : size < uint32Max := by simpa using large
    rw [clamp_lt size small]
    constructor
    · intro same
      rw [same] at small
      exact absurd small (by decide)
    · intro large'
      exact absurd large' large

theorem reads_clamped :
    Reads (Dirent.zip64Number (Dirent.clamp size).toUInt64)
      (if uint32Max ≤ size then put64 size else []) size := by
  unfold Dirent.zip64Number
  by_cases large : uint32Max ≤ size
  · rw [if_pos ((clamp_eq_max size).mpr large), if_pos large]
    exact ZipBuffer.reads_get64 size
  · have small : size < uint32Max := by simpa using large
    rw [if_neg (mt (clamp_eq_max size).mp large), if_neg large, clamp_lt size small]
    exact reads_pure size

theorem reads_all_ones : Reads (Dirent.zip64Number uint32Max) (put64 size) size :=
  ZipBuffer.reads_get64 size

end

namespace Dirent

open ZipBuffer

variable {platform : Platform} {de : Dirent} {flags : WriteFlags} {internal : List ExtraField}

def headerOf (platform : Platform) (de : Dirent) (flags : WriteFlags) : Dirent where
  localExtraFieldsRead := false
  crcValid := true
  versionMadeby := if flags.isLocal then 0 else de.versionMadeby
  versionNeeded := de.versionWritten flags
  bitflags := de.bitflags
  compMethod := de.compMethodWritten.toNat
  lastMod := platform.d2uTime (platform.u2dTime de.lastMod).1 (platform.u2dTime de.lastMod).2
  crc := de.crcWritten
  compSize := (de.sizesWritten flags).1.toUInt64
  uncompSize := (de.sizesWritten flags).2.toUInt64
  filename := none
  extraFields := []
  comment := none
  diskNumber := if flags.isLocal then 0 else de.diskNumber.toUInt16.toUInt32
  intAttrib := if flags.isLocal then 0 else de.intAttrib
  extAttrib := if flags.isLocal then 0 else de.extAttrib
  offset := if flags.isLocal then 0 else (clamp de.offset).toUInt64
  encryptionMethod := encryptionOf de.bitflags

theorem reads_header (efTotalSize : UInt16) :
    Reads (readHeader platform flags.isLocal) (de.putHeader platform flags efTotalSize)
      (de.headerOf platform flags, UInt16.ofNat (ZipString.length de.filename), efTotalSize,
        if flags.isLocal then 0 else UInt16.ofNat (ZipString.length de.comment)) := by
  unfold readHeader putHeader headerOf
  cases flags.isLocal with
  | false =>
      simp only [Bool.false_eq_true, if_false, List.flatten_cons, List.flatten_nil,
        List.append_assoc, List.nil_append]
      iterate 6 apply (reads_get16 _).bind
      iterate 3 apply (reads_get32 _).bind
      iterate 5 apply (reads_get16 _).bind
      iterate 2 apply (reads_get32 _).bind
      exact reads_pure _
  | true =>
      simp only [if_true, pure_bind, List.flatten_cons, List.flatten_nil, List.append_assoc,
        List.nil_append]
      iterate 5 apply (reads_get16 _).bind
      iterate 3 apply (reads_get32 _).bind
      iterate 2 apply (reads_get16 _).bind
      exact reads_pure _

theorem length_put_header (efTotalSize : UInt16) :
    4 + (de.putHeader platform flags efTotalSize).length = entrySize flags.isLocal := by
  unfold putHeader entrySize
  cases flags.isLocal <;> simp

def allFields (de : Dirent) (flags : WriteFlags) (internal : List ExtraField) :
    List ExtraField :=
  internal ++ de.extraFields.filter fun field => field.flags.meets (.of flags.isLocal)

def utf8Data (platform : Platform) (string : ZipString) : Bytes :=
  1 :: (put32 (platform.crc32 string.raw) ++ string.raw)

def knownUtf8 (string : Option ZipString) : Option ZipString :=
  string.filter fun string => string.guess.encoding = .utf8Known

theorem ef_utf8_data {id : UInt16} {string : Option ZipString} {fields : List ExtraField}
    (made : efUtf8 platform id string = some fields) :
    dataOf fields id = (knownUtf8 string).map (utf8Data platform) ∧
      ∀ field ∈ fields, field.id = id ∧ field.flags = .both := by
  cases string with
  | none =>
      cases made
      exact ⟨rfl, fun field member => by cases member⟩
  | some string =>
      simp only [efUtf8] at made
      unfold knownUtf8
      split at made
      · rename_i known
        split at made
        · cases made
          rw [Option.filter_some, if_pos (by simpa using known)]
          refine ⟨by simp [dataOf, utf8Data], ?_⟩
          intro field member
          rw [List.mem_singleton.mp member]
          exact ⟨rfl, rfl⟩
        · cases made
      · rename_i unknown
        cases made
        rw [Option.filter_some, if_neg (by simpa using unknown)]
        exact ⟨rfl, fun field member => by cases member⟩

def utf8Strings (de : Dirent) (flags : WriteFlags) (id : UInt16) : Option ZipString :=
  if de.encodesUtf8 then none
  else if id = efUtf8Name then knownUtf8 de.filename
  else knownUtf8 (if flags.isLocal then none else de.comment)

theorem utf8_fields_data {utf8 : List ExtraField}
    (made : de.utf8Fields platform flags = some utf8) :
    (∀ id, id = efUtf8Name ∨ id = efUtf8Comment →
      dataOf utf8 id = (de.utf8Strings flags id).map (utf8Data platform)) ∧
      ∀ field ∈ utf8, (field.id = efUtf8Name ∨ field.id = efUtf8Comment) ∧
        field.flags = .both := by
  unfold utf8Fields at made
  unfold utf8Strings
  split at made
  · rename_i encodes
    cases made
    refine ⟨?_, fun field member => by cases member⟩
    intro id _
    rw [if_pos encodes]
    rfl
  · rename_i encodes
    simp only [Option.bind_eq_bind, Option.bind_eq_some_iff, Option.pure_def] at made
    obtain ⟨name, madeName, comment, madeComment, made⟩ := made
    cases made
    obtain ⟨nameData, nameIds⟩ := ef_utf8_data madeName
    obtain ⟨commentData, commentIds⟩ := ef_utf8_data madeComment
    constructor
    · intro id among
      rw [if_neg encodes, data_of_append]
      rcases among with rfl | rfl
      · rw [data_of_other fun field member => by rw [(commentIds field member).1]; decide,
          nameData, Option.none_or, if_pos rfl]
      · rw [commentData, data_of_other fun field member => by
          rw [(nameIds field member).1]; decide, Option.or_none,
          if_neg (by decide : efUtf8Comment ≠ efUtf8Name)]
    · intro field member
      rcases List.mem_append.mp member with among | among
      · exact ⟨.inr (commentIds field among).1, (commentIds field among).2⟩
      · exact ⟨.inl (nameIds field among).1, (nameIds field among).2⟩

def winzipAesData (de : Dirent) (mode : UInt8) : Bytes :=
  put16 2 ++ ascii "AE" ++ [mode] ++ put16 (UInt16.ofInt de.compMethod)

theorem winzip_aes_data (de : Dirent) :
    dataOf de.winzipAesFields efWinzipAes =
      de.encryptionMethod.aesMode.map de.winzipAesData ∧
      ∀ field ∈ de.winzipAesFields, field.id = efWinzipAes ∧ field.flags = .both := by
  unfold winzipAesFields
  cases de.encryptionMethod.aesMode with
  | none => exact ⟨rfl, fun field member => by cases member⟩
  | some mode =>
      refine ⟨by simp [dataOf, winzipAesData], ?_⟩
      intro field member
      rw [List.mem_singleton.mp member]
      exact ⟨rfl, rfl⟩

theorem zip64_data (de : Dirent) (flags : WriteFlags) :
    dataOf (de.zip64Fields flags) efZip64 =
      (if de.isZip64 flags then some (de.zip64Data flags) else none) ∧
      ∀ field ∈ de.zip64Fields flags, field.id = efZip64 ∧ field.flags = .both := by
  unfold zip64Fields
  split
  · refine ⟨by simp [dataOf], ?_⟩
    intro field member
    rw [List.mem_singleton.mp member]
    exact ⟨rfl, rfl⟩
  · exact ⟨rfl, fun field member => by cases member⟩

/-- What is found among the fields of an entry, none of which of its own is
one of those libzip makes. -/
structure Finds (platform : Platform) (de : Dirent) (flags : WriteFlags)
    (fields : List ExtraField) : Prop where
  utf8 : ∀ id, id = efUtf8Name ∨ id = efUtf8Comment →
    dataOf fields id = (de.utf8Strings flags id).map (utf8Data platform)
  winzipAes : dataOf fields efWinzipAes = de.encryptionMethod.aesMode.map de.winzipAesData
  zip64 : dataOf fields efZip64 =
    if de.isZip64 flags then some (de.zip64Data flags) else none

theorem finds_all (made : de.internalFields platform flags = some internal)
    (external : ∀ field ∈ de.extraFields, efIsInternal field.id = false) :
    de.Finds platform flags (de.allFields flags internal) := by
  obtain ⟨utf8, madeUtf8, rfl⟩ := Option.map_eq_some_iff.mp made
  obtain ⟨utf8Data, utf8Ids⟩ := utf8_fields_data madeUtf8
  obtain ⟨aesData, aesIds⟩ := de.winzip_aes_data
  obtain ⟨zip64Data, zip64Ids⟩ := de.zip64_data flags
  have own : ∀ id, efIsInternal id = true →
      dataOf (de.extraFields.filter fun field => field.flags.meets (.of flags.isLocal)) id =
        none := by
    intro id among
    apply data_of_other
    rintro field member rfl
    rw [external field (List.mem_of_mem_filter member)] at among
    cases among
  have utf8Other : ∀ id, id ≠ efUtf8Name → id ≠ efUtf8Comment → dataOf utf8 id = none := by
    intro id name comment
    apply data_of_other
    rintro field member rfl
    rcases (utf8Ids field member).1 with same | same
    · exact name same
    · exact comment same
  have aesOther : ∀ id, id ≠ efWinzipAes → dataOf de.winzipAesFields id = none := by
    intro id other
    apply data_of_other
    rintro field member rfl
    exact other (aesIds field member).1
  have zip64Other : ∀ id, id ≠ efZip64 → dataOf (de.zip64Fields flags) id = none := by
    intro id other
    apply data_of_other
    rintro field member rfl
    exact other (zip64Ids field member).1
  have parts : ∀ id, efIsInternal id = true →
      dataOf (de.allFields flags (de.winzipAesFields ++ (de.zip64Fields flags ++ utf8))) id =
        (dataOf de.winzipAesFields id).or
          ((dataOf (de.zip64Fields flags) id).or (dataOf utf8 id)) := by
    intro id among
    rw [allFields, data_of_append, data_of_append, data_of_append, own id among, Option.or_none]
  constructor
  · intro id among
    have isInternal : efIsInternal id = true := by rcases among with rfl | rfl <;> decide
    have notAes : id ≠ efWinzipAes := by rcases among with rfl | rfl <;> decide
    have notZip64 : id ≠ efZip64 := by rcases among with rfl | rfl <;> decide
    rw [parts id isInternal, aesOther id notAes, zip64Other id notZip64, Option.none_or,
      Option.none_or, utf8Data id among]
  · rw [parts _ (by decide), zip64Other _ (by decide), utf8Other _ (by decide) (by decide),
      Option.or_none, Option.or_none, aesData]
  · rw [parts _ (by decide), aesOther _ (by decide), utf8Other _ (by decide) (by decide),
      Option.or_none, Option.none_or, zip64Data]

theorem flagged_utf8 (de : Dirent) :
    decide (de.flagged.bitflags &&& gpbfEncodingUtf8 ≠ 0) = de.encodesUtf8 := by
  have apart : gpbfEncrypted &&& gpbfEncodingUtf8 = 0 := by decide
  unfold flagged
  cases de.encodesUtf8 with
  | false =>
      simp only [Bool.false_eq_true, if_false]
      split
      · rw [clear_other_mask _ apart, clear_mask]
        decide
      · rw [or_other_mask _ apart, clear_mask]
        decide
  | true =>
      simp only [if_true]
      split
      · rw [clear_other_mask _ apart, or_mask]
        decide
      · rw [or_other_mask _ apart, or_mask]
        decide

theorem flagged_encryption (de : Dirent) :
    encryptionOf de.flagged.bitflags =
      if de.encryptionMethod = .none then .none
      else if de.bitflags &&& gpbfStrongEncryption ≠ 0 then .unknown else .tradPkware := by
  have apart : gpbfEncrypted &&& gpbfStrongEncryption = 0 := by decide
  have apart' : gpbfEncodingUtf8 &&& gpbfStrongEncryption = 0 := by decide
  unfold encryptionOf flagged
  by_cases plain : de.encryptionMethod = .none
  · simp only [if_pos plain, clear_mask]
    rfl
  · simp only [if_neg plain, or_mask, or_other_mask _ apart]
    have strong : (if de.encodesUtf8 = true then de.bitflags ||| gpbfEncodingUtf8
        else de.bitflags &&& ~~~gpbfEncodingUtf8) &&& gpbfStrongEncryption =
          de.bitflags &&& gpbfStrongEncryption := by
      split
      · exact or_other_mask _ apart'
      · exact clear_other_mask _ apart'
    rw [strong]
    rfl

/-- What can be told from the bytes of an entry: none of its extra fields is
one libzip makes itself, its numbers fit, its name has no NUL byte and the
flags tell the encryption where no field does. -/
structure Storable (de : Dirent) : Prop where
  nulFree : ∀ name ∈ de.filename, 0 ∉ name.raw
  external : ∀ field ∈ de.extraFields, efIsInternal field.id = false
  method : 0 ≤ de.compMethod ∧ de.compMethod < 65536 ∧ de.compMethod ≠ cmWinzipAes.toNat
  disk : de.diskNumber < uint16Max
  offset : de.offset ≤ int64Max
  encryption : (de.encryptionMethod = .tradPkware → de.bitflags &&& gpbfStrongEncryption = 0) ∧
    (de.encryptionMethod = .unknown → de.bitflags &&& gpbfStrongEncryption ≠ 0)

theorem process_ef_utf8 {fields : List ExtraField} {id : UInt16} {string : Option ZipString}
    {encodes : Bool}
    (found : efGetById fields id .both =
      (if encodes then none else knownUtf8 string).map (utf8Data platform)) :
    processEfUtf8 platform fields id (string.map (·.reread encodes)) =
      string.map (·.readBack encodes) := by
  unfold processEfUtf8
  cases encodes with
  | true =>
      rw [found]
      rfl
  | false =>
      cases string with
      | none =>
          rw [found]
          rfl
      | some kept =>
          by_cases known : kept.guess.encoding = .utf8Known
          · have is : knownUtf8 (some kept) = some kept := by
              unfold knownUtf8
              rw [Option.filter_some, if_pos (by simpa using known)]
            rw [found, if_neg (by decide), is, Option.map_some]
            have long : ¬ (utf8Data platform kept).length < 5 := by
              simp [utf8Data]
            have crc : ((utf8Data platform kept).drop 1).take 4 =
                put32 (platform.crc32 kept.raw) := by
              simp [utf8Data]
            have raw : (utf8Data platform kept).drop 5 = kept.raw := by
              simp [utf8Data]
            have value : UInt32.ofNat (decodeLE (put32 (platform.crc32 kept.raw))) =
                platform.crc32 kept.raw := by
              rw [put32, Binary.decode_encode_le_of_lt, UInt32.ofNat_toNat]
              have bound := (platform.crc32 kept.raw).toNat_lt
              omega
            have starts : ¬ (decide ((utf8Data platform kept).length < 5) ||
                decide ((utf8Data platform kept).headD 0 ≠ 1)) = true := by
              simp [utf8Data]
            simp only [crc, raw, value]
            have same : ZipString.bytes ((some kept).map (·.reread false)) = kept.raw := rfl
            rw [if_neg starts, same, if_pos rfl, ZipString.new_raw, Option.bind_some,
              ZipString.expect_unmarked (.inr known), Option.some_or, Option.map_some]
            simp [ZipString.readBack, ZipString.reread, known]
          · have isNot : knownUtf8 (some kept) = none := by
              unfold knownUtf8
              rw [Option.filter_some, if_neg (by simpa using known)]
            rw [found, if_neg (by decide), isNot]
            simp [ZipString.readBack, known]

theorem internal_both (made : de.internalFields platform flags = some internal) :
    ∀ field ∈ internal, field.flags = .both := by
  obtain ⟨utf8, madeUtf8, rfl⟩ := Option.map_eq_some_iff.mp made
  intro field member
  rcases List.mem_append.mp member with aes | member
  · exact ((de.winzip_aes_data).2 field aes).2
  · rcases List.mem_append.mp member with zip64 | utf8
    · exact ((de.zip64_data flags).2 field zip64).2
    · exact ((utf8_fields_data madeUtf8).2 field utf8).2

theorem all_fields_meet (de : Dirent) (flags : WriteFlags)
    (both : ∀ field ∈ internal, field.flags = .both) :
    ∀ field ∈ de.allFields flags internal,
      field.flags.meets (.of flags.isLocal) = true := by
  intro field member
  rcases List.mem_append.mp member with among | among
  · rw [both field among]
    cases flags.isLocal <;> rfl
  · exact (List.mem_filter.mp among).2

theorem ef_write_all (both : ∀ field ∈ internal, field.flags = .both) :
    efWrite internal .both ++ efWrite de.extraFields (.of flags.isLocal) =
      efWrite (de.allFields flags internal) (.of flags.isLocal) := by
  rw [allFields, ef_write_append, ef_write_both both]
  simp [efWrite]

theorem ef_total_size
    (fits : (efWrite internal .both ++ efWrite de.extraFields (.of flags.isLocal)).length < 65536) :
    (efSize de.extraFields (.of flags.isLocal) + efSize internal .both).toNat =
      (efWrite internal .both ++ efWrite de.extraFields (.of flags.isLocal)).length := by
  rw [UInt16.toNat_add, ef_size_eq, ef_size_eq]
  rw [List.length_append] at fits ⊢
  omega

theorem parses_all (both : ∀ field ∈ internal, field.flags = .both) :
    efParse (.of flags.isLocal)
        (efWrite internal .both ++ efWrite de.extraFields (.of flags.isLocal)) =
      .ok ((de.allFields flags internal).map (·.marked (.of flags.isLocal))) := by
  have parsed := ef_parse_write (de.allFields flags internal) (.of flags.isLocal) []
    (.of flags.isLocal)
  rw [List.append_nil, ef_parse_nil,
    List.filter_eq_self.mpr (de.all_fields_meet flags both)] at parsed
  rw [ef_write_all both, parsed]
  simp [Except.map]

theorem write_all_eq_nil (both : ∀ field ∈ internal, field.flags = .both) :
    efWrite (de.allFields flags internal) (.of flags.isLocal) = [] ↔
      de.allFields flags internal = [] := by
  have meet := de.all_fields_meet flags both
  generalize de.allFields flags internal = fields at meet ⊢
  cases fields with
  | nil => exact ⟨fun _ => rfl, fun _ => rfl⟩
  | cons field fields =>
      rw [ef_write_cons, if_pos (meet field List.mem_cons_self)]
      simp [put16, encodeLE]

def variableOf (platform : Platform) (de : Dirent) (flags : WriteFlags)
    (internal : List ExtraField) : Dirent :=
  { de.flagged.headerOf platform flags with
    extraFields := (de.allFields flags internal).map (·.marked (.of flags.isLocal))
    localExtraFieldsRead := flags.isLocal && !(de.allFields flags internal).isEmpty
    filename := de.filename.map (·.readBack de.encodesUtf8)
    comment := (if flags.isLocal then none else de.comment).map (·.readBack de.encodesUtf8) }

theorem encodes_valid (encodes : de.encodesUtf8 = true) :
    (∀ kept ∈ de.filename,
      kept.guess.encoding = .ascii ∨ kept.guess.encoding = .utf8Known) ∧
    ∀ kept ∈ de.comment, kept.guess.encoding = .ascii ∨ kept.guess.encoding = .utf8Known := by
  unfold encodesUtf8 at encodes
  simp only [Bool.or_eq_true, Bool.and_eq_true, decide_eq_true_eq] at encodes
  constructor
  · intro kept there
    rw [Option.mem_def.mp there] at encodes
    simp only [ZipString.encodingOf] at encodes
    rcases encodes with (both | both) | both
    · exact .inr both.1
    · exact .inl both.1
    · exact .inr both.1
  · intro kept there
    rw [Option.mem_def.mp there] at encodes
    simp only [ZipString.encodingOf] at encodes
    rcases encodes with (both | both) | both
    · exact .inl both.2
    · exact .inr both.2
    · exact .inr both.2

theorem read_variable (storable : de.Storable)
    (made : de.internalFields platform flags = some internal)
    (fits : (efWrite internal .both ++ efWrite de.extraFields (.of flags.isLocal)).length < 65536)
    {buffer : ZipBuffer} {rest : Bytes}
    (at' : buffer.At (ZipString.bytes de.filename ++
      ((efWrite internal .both ++ efWrite de.extraFields (.of flags.isLocal)) ++
      (ZipString.bytes (if flags.isLocal then none else de.comment) ++ rest)))) :
    ∃ behind, (de.flagged.headerOf platform flags).readVariable platform flags.isLocal
        (UInt16.ofNat (ZipString.length de.filename))
        (efSize de.extraFields (.of flags.isLocal) + efSize internal .both)
        (if flags.isLocal then 0 else UInt16.ofNat (ZipString.length de.comment)) buffer =
      .ok (de.variableOf platform flags internal, behind) ∧ behind.At rest := by
  have both := internal_both made
  have finds := finds_all made storable.external
  have isUtf8 : decide ((de.flagged.headerOf platform flags).bitflags &&& gpbfEncodingUtf8 ≠ 0) =
      de.encodesUtf8 := de.flagged_utf8
  have commentLen : (if flags.isLocal then 0
      else UInt16.ofNat (ZipString.length de.comment)).toNat =
        ZipString.length (if flags.isLocal then none else de.comment) := by
    split
    · rfl
    · exact ZipString.to_nat_length _
  obtain ⟨behindName, readName, atFields⟩ := read_string de.filename true de.encodesUtf8
    detailInvalidUtf8InFilename (fun _ => storable.nulFree)
    (fun encodes => (encodes_valid encodes).1) at'
  obtain ⟨behindFields, readFields, atComment⟩ := read_extra_fields (parses_all both) atFields
  obtain ⟨behind, readComment, atRest⟩ :=
    read_string (if flags.isLocal then none else de.comment) false de.encodesUtf8
      detailInvalidUtf8InComment nofun (fun encodes kept there => by
        split at there
        · cases there
        · exact (encodes_valid encodes).2 kept there) atComment
  refine ⟨behind, ?_, atRest⟩
  unfold readVariable
  simp only [isUtf8, ZipString.to_nat_length, commentLen, ef_total_size fits, readName,
    readFields, readComment, bind, Except.bind, pure, Except.pure]
  have nameFound : efGetById ((de.allFields flags internal).map (·.marked (.of flags.isLocal)))
      efUtf8Name .both =
        (if de.encodesUtf8 then none else knownUtf8 de.filename).map (utf8Data platform) := by
    rw [ef_get_marked _ _ (of_meets_both _), finds.utf8 _ (.inl rfl)]
    rfl
  have commentFound : efGetById ((de.allFields flags internal).map (·.marked (.of flags.isLocal)))
      efUtf8Comment .both =
        (if de.encodesUtf8 then none
          else knownUtf8 (if flags.isLocal then none else de.comment)).map
            (utf8Data platform) := by
    rw [ef_get_marked _ _ (of_meets_both _), finds.utf8 _ (.inr rfl)]
    rfl
  rw [process_ef_utf8 nameFound, process_ef_utf8 commentFound]
  have some' : decide (efSize de.extraFields (.of flags.isLocal) + efSize internal .both ≠ 0) =
      !(de.allFields flags internal).isEmpty := by
    have total := ef_total_size fits
    rw [ef_write_all both] at total
    have zero : efSize de.extraFields (.of flags.isLocal) + efSize internal .both = 0 ↔
        de.allFields flags internal = [] := by
      rw [← write_all_eq_nil both, ← List.length_eq_zero_iff, ← total, ← UInt16.toNat_inj]
      rfl
    rw [Bool.eq_iff_iff]
    simpa using not_congr zero
  rw [some']
  rfl

/-- A number exceeds 32 bits, so that the Zip64 field is not left empty. -/
def exceeds32 (de : Dirent) (flags : WriteFlags) : Bool :=
  flags.forceZip64 || uint32Max < de.compSize || uint32Max < de.uncompSize ||
    (!flags.isLocal && uint32Max < de.offset)

/-- A number is just all ones in 32 bits and none exceeds them: the field that
should tell it is empty. -/
def zip64Lost (de : Dirent) (flags : WriteFlags) : Bool :=
  de.needsZip64 flags && !de.exceeds32 flags

def restored (platform : Platform) (de : Dirent) (flags : WriteFlags)
    (internal : List ExtraField) : Dirent :=
  { de.variableOf platform flags internal with
    compSize := de.compSize
    uncompSize := de.uncompSize
    offset := if flags.isLocal then 0 else de.offset }

theorem disk_number_kept (disk : de.diskNumber < uint16Max) :
    de.diskNumber.toUInt16.toUInt32 = de.diskNumber := by
  apply UInt32.toNat_inj.mp
  have bound : de.diskNumber.toNat < 65535 := disk
  simp
  omega

theorem sizes_written_central (central : flags.isLocal = false) :
    (de.sizesWritten flags) = (clamp de.compSize, clamp de.uncompSize) := by
  simp [sizesWritten, central]

theorem sizes_written_local (isLocal : flags.isLocal = true) (needs : de.needsZip64 flags = true) :
    (de.sizesWritten flags) = (0xffffffff, 0xffffffff) := by
  unfold sizesWritten
  apply if_pos
  simp only [needsZip64, isLocal, Bool.not_true, Bool.false_and, Bool.or_false] at needs
  rw [isLocal, Bool.true_and, Bool.or_comm, needs]

theorem all_ones_iff (platform : Platform) (de : Dirent) (flags : WriteFlags)
    (internal : List ExtraField) :
    (decide ((de.variableOf platform flags internal).uncompSize = uint32Max) ||
      decide ((de.variableOf platform flags internal).compSize = uint32Max) ||
      decide ((de.variableOf platform flags internal).offset = uint32Max)) =
        de.needsZip64 flags := by
  have zero : (0 : UInt64) ≠ uint32Max := by decide
  have ones : (0xffffffff : UInt32).toUInt64 = uint32Max := rfl
  have uncomp : (de.variableOf platform flags internal).uncompSize =
    (de.sizesWritten flags).2.toUInt64 := rfl
  have comp : (de.variableOf platform flags internal).compSize =
    (de.sizesWritten flags).1.toUInt64 := rfl
  have offset : (de.variableOf platform flags internal).offset =
    if flags.isLocal then 0 else (clamp de.offset).toUInt64 := rfl
  rw [uncomp, comp, offset, needsZip64, Bool.eq_iff_iff]
  by_cases isLocal : flags.isLocal = true
  · by_cases large : uint32Max ≤ de.compSize ∨ uint32Max ≤ de.uncompSize
    · have sizes : de.sizesWritten flags = (0xffffffff, 0xffffffff) := by
        unfold sizesWritten
        rw [if_pos]
        simpa [isLocal] using large
      rw [sizes]
      simp only [ones, true_or, Bool.or_eq_true, decide_eq_true_eq, isLocal, if_true, zero,
        Bool.not_true, Bool.false_and, Bool.false_eq_true, or_false, true_iff]
      exact large.symm
    · obtain ⟨small, small'⟩ := not_or.mp large
      have sizes : de.sizesWritten flags = (clamp de.compSize, clamp de.uncompSize) := by
        unfold sizesWritten
        rw [if_neg]
        simp [small, small']
      simp [sizes, isLocal, zero, clamp_eq_max]
  · simp [sizes_written_central (by simpa using isLocal), isLocal, clamp_eq_max]

theorem restored_of_small (small : de.needsZip64 flags = false) :
    de.variableOf platform flags internal = de.restored platform flags internal := by
  simp only [needsZip64, Bool.or_eq_false_iff, Bool.and_eq_false_iff, decide_eq_false_iff_not,
    UInt64.not_le, Bool.not_eq_false'] at small
  obtain ⟨⟨uncomp, comp⟩, offset⟩ := small
  have sizes : de.sizesWritten flags = (clamp de.compSize, clamp de.uncompSize) := by
    unfold sizesWritten
    rw [if_neg]
    simp [comp, uncomp]
  have sizes' : de.flagged.sizesWritten flags = (clamp de.compSize, clamp de.uncompSize) := sizes
  have offset' : (if flags.isLocal then 0 else (clamp de.offset).toUInt64) =
      if flags.isLocal then 0 else de.offset := by
    split
    · rfl
    · rename_i central
      rw [clamp_lt _ (offset.resolve_left central)]
  unfold restored variableOf headerOf
  simp only [sizes', clamp_lt _ comp, clamp_lt _ uncomp]
  simp only [flagged, offset']

theorem reads_unchanged : Reads (modify fun buffer : ZipBuffer => buffer) [] PUnit.unit :=
  fun _ _ at' => ⟨rfl, at', rfl⟩

theorem reads_zip64_data (platform : Platform) (internal : List ExtraField)
    (needs : de.needsZip64 flags = true) (exceeds : de.exceeds32 flags = true)
    (disk : de.diskNumber < uint16Max) :
    Reads ((de.variableOf platform flags internal).readZip64Data flags.isLocal)
      (de.zip64Data flags) (de.restored platform flags internal) := by
  have disk' := disk_number_kept disk
  have noDisk : de.diskNumber ≠ uint16Max := by
    rintro same
    rw [same] at disk
    exact absurd disk (by decide)
  have uncomp : (de.variableOf platform flags internal).uncompSize =
    (de.sizesWritten flags).2.toUInt64 := rfl
  have comp : (de.variableOf platform flags internal).compSize =
    (de.sizesWritten flags).1.toUInt64 := rfl
  have offset : (de.variableOf platform flags internal).offset =
    if flags.isLocal then 0 else (clamp de.offset).toUInt64 := rfl
  have diskNumber : (de.variableOf platform flags internal).diskNumber =
    if flags.isLocal then 0 else de.diskNumber.toUInt16.toUInt32 := rfl
  unfold readZip64Data zip64Data
  rw [uncomp, comp, offset, diskNumber]
  by_cases isLocal : flags.isLocal = true
  · have ones : (0xffffffff : UInt32).toUInt64 = uint32Max := rfl
    have forced : (flags.forceZip64 || decide (uint32Max < de.compSize) ||
        decide (uint32Max < de.uncompSize)) = true := by
      simpa [exceeds32, isLocal] using exceeds
    rw [sizes_written_local isLocal needs]
    simp only [isLocal, if_true, ones, if_pos forced, ne_eq, not_true_eq_false, decide_false,
      Bool.and_false, Bool.false_eq_true, if_false]
    rw [← List.nil_append (put64 de.uncompSize ++ put64 de.compSize),
      ← List.append_nil (put64 de.compSize)]
    apply reads_unchanged.bind
    apply (reads_all_ones _).bind
    apply (reads_all_ones _).bind
    have restored' : de.restored platform flags internal =
        { de.variableOf platform flags internal with
          uncompSize := de.uncompSize
          compSize := de.compSize
          offset := 0
          diskNumber := 0 } := by
      unfold restored variableOf headerOf
      simp [isLocal]
    rw [restored']
    exact reads_pure _
  · have central : flags.isLocal = false := by simpa using isLocal
    have forced : (flags.forceZip64 || decide (uint32Max < de.compSize) ||
        decide (uint32Max < de.uncompSize) || decide (uint32Max < de.offset)) = true := by
      simpa [exceeds32, central] using exceeds
    have noDisk' : zip64Disk de.diskNumber = pure de.diskNumber := if_neg noDisk
    rw [sizes_written_central central]
    simp only [central, Bool.false_eq_true, if_false, if_pos forced, Bool.false_and, disk',
      noDisk', List.append_assoc]
    rw [← List.nil_append (_ ++ _)]
    apply reads_unchanged.bind
    apply (reads_clamped _).bind
    apply (reads_clamped _).bind
    rw [← List.append_nil (if uint32Max ≤ de.offset then put64 de.offset else [])]
    apply (reads_clamped _).bind
    have restored' : de.restored platform flags internal =
        { de.variableOf platform flags internal with
          uncompSize := de.uncompSize
          compSize := de.compSize
          offset := de.offset
          diskNumber := de.diskNumber } := by
      unfold restored variableOf headerOf flagged
      simp [central, disk']
    rw [restored', pure_bind]
    exact reads_pure _

theorem zip64_data_lost (lost : de.zip64Lost flags = true) :
    de.zip64Data flags = [] := by
  simp only [zip64Lost, exceeds32, Bool.and_eq_true, Bool.not_eq_true', Bool.or_eq_false_iff]
    at lost
  obtain ⟨_, ⟨⟨forced, comp⟩, uncomp⟩, offset⟩ := lost
  unfold zip64Data
  split
  · rw [if_neg]
    simp [forced, comp, uncomp]
  · rename_i central
    have offset' : decide (uint32Max < de.offset) = false := by simpa [central] using offset
    rw [if_neg]
    simp [forced, comp, uncomp, offset']

theorem zip64_number_nil (size : UInt64) (ok : Bool) :
    (zip64Number size ⟨[], 0, ok⟩).2 = ⟨[], 0, ok && size ≠ uint32Max⟩ := by
  unfold zip64Number
  by_cases ones : size = uint32Max
  · rw [if_pos ones]
    cases ok <;> simp [ones] <;> rfl
  · rw [if_neg ones]
    cases ok <;> simp [ones] <;> rfl

theorem read_zip64_nil {entry : Dirent} {isLocal : Bool} (disk : entry.diskNumber ≠ uint16Max)
    (wanted : entry.uncompSize = uint32Max ∨
      isLocal = false ∧ (entry.compSize = uint32Max ∨ entry.offset = uint32Max)) :
    ((entry.readZip64Data isLocal).run (.start [])).2.ok = false := by
  have noDisk : zip64Disk entry.diskNumber = pure entry.diskNumber := if_neg disk
  cases isLocal with
  | true =>
      have ones : entry.uncompSize = uint32Max := wanted.resolve_right nofun
      have run : ((entry.readZip64Data true).run (.start [])).2 =
          (zip64Number entry.compSize (zip64Number entry.uncompSize ⟨[], 0, true⟩).2).2 := by
        unfold readZip64Data
        simp only [ones]
        rfl
      rw [run, zip64_number_nil, zip64_number_nil]
      simp [ones]
  | false =>
      have run : ((entry.readZip64Data false).run (.start [])).2 =
          (zip64Number entry.offset (zip64Number entry.compSize
            (zip64Number entry.uncompSize ⟨[], 0, true⟩).2).2).2 := by
        unfold readZip64Data
        rw [noDisk]
        rfl
      rw [run, zip64_number_nil, zip64_number_nil, zip64_number_nil]
      rcases wanted with ones | ⟨_, ones | ones⟩ <;> simp [ones]

theorem accepts_nothing (entry : Dirent) (buffer : ZipBuffer) :
    entry.acceptsZip64Data 0 buffer = false := rfl

theorem read_zip64 (made : de.internalFields platform flags = some internal)
    (storable : de.Storable) :
    (de.variableOf platform flags internal).readZip64 flags.isLocal =
      if de.zip64Lost flags then .error (.incons detailInvalidZip64Ef none)
      else .ok (de.restored platform flags internal) := by
  have finds := (finds_all made storable.external).zip64
  have disk : (de.variableOf platform flags internal).diskNumber ≠ uint16Max := by
    have bound : de.diskNumber < uint16Max := storable.disk
    change (if flags.isLocal then 0 else de.diskNumber.toUInt16.toUInt32) ≠ uint16Max
    rw [disk_number_kept bound]
    split
    · decide
    · rintro same
      rw [same] at bound
      exact absurd bound (by decide)
  have found : efGetById (de.variableOf platform flags internal).extraFields efZip64
      (.of flags.isLocal) = if de.isZip64 flags then some (de.zip64Data flags) else none := by
    rw [← finds]
    exact ef_get_marked _ _ (of_meets_of _)
  unfold readZip64
  rw [all_ones_iff, found]
  by_cases needs : de.needsZip64 flags = true
  · have is64 : de.isZip64 flags = true := by simp [isZip64, needs]
    rw [if_pos needs, if_pos is64]
    by_cases exceeds : de.exceeds32 flags = true
    · have kept : de.zip64Lost flags = false := by simp [zip64Lost, exceeds]
      obtain ⟨behind, run, eof⟩ := (reads_zip64_data platform internal needs exceeds
        storable.disk).run_start
      simp only [run, eof, kept, Bool.true_or, if_true, Bool.false_eq_true, if_false]
    · have lost : de.zip64Lost flags = true := by simpa [zip64Lost, needs] using exceeds
      rw [zip64_data_lost lost, lost]
      have wanted : (de.variableOf platform flags internal).uncompSize = uint32Max ∨
          flags.isLocal = false ∧ ((de.variableOf platform flags internal).compSize = uint32Max ∨
            (de.variableOf platform flags internal).offset = uint32Max) := by
        by_cases isLocal : flags.isLocal = true
        · left
          change (de.sizesWritten flags).2.toUInt64 = uint32Max
          rw [sizes_written_local isLocal needs]
          rfl
        · have ones := de.all_ones_iff platform flags internal
          rw [needs] at ones
          simp only [Bool.or_eq_true, decide_eq_true_eq] at ones
          rcases ones with (ones | ones) | ones
          · exact .inl ones
          · exact .inr ⟨by simpa using isLocal, .inl ones⟩
          · exact .inr ⟨by simpa using isLocal, .inr ones⟩
      have failed := read_zip64_nil disk wanted
      simp only
      generalize (readZip64Data flags.isLocal (de.variableOf platform flags internal)).run
        (.start []) = taken at failed
      obtain ⟨read, buffer⟩ := taken
      simp only at failed
      simp [Cursor.eof, failed, accepts_nothing]
  · have small : de.needsZip64 flags = false := by simpa using needs
    have kept : de.zip64Lost flags = false := by simp [zip64Lost, small]
    rw [small, kept, restored_of_small small]
    rfl

def extraBytes (platform : Platform) (de : Dirent) (flags : WriteFlags) : Bytes :=
  efWrite ((de.internalFields platform flags).getD []) .both ++
    efWrite de.extraFields (.of flags.isLocal)

def readBack (platform : Platform) (de : Dirent) (flags : WriteFlags) : Dirent where
  localExtraFieldsRead := flags.isLocal && !(de.extraBytes platform flags).isEmpty
  crcValid := de.encryptionMethod.aesMode.isNone
  versionMadeby := if flags.isLocal then 0 else de.versionMadeby
  versionNeeded := de.versionWritten flags
  bitflags := de.flagged.bitflags
  compMethod := de.compMethod
  lastMod := platform.d2uTime (platform.u2dTime de.lastMod).1 (platform.u2dTime de.lastMod).2
  crc := de.crcWritten
  compSize := de.compSize
  uncompSize := de.uncompSize
  filename := de.filename.map (·.readBack de.encodesUtf8)
  extraFields := (de.extraFields.filter fun field =>
    field.flags.meets (.of flags.isLocal)).map (·.marked (.of flags.isLocal))
  comment := (if flags.isLocal then none else de.comment).map (·.readBack de.encodesUtf8)
  diskNumber := if flags.isLocal then 0 else de.diskNumber
  intAttrib := if flags.isLocal then 0 else de.intAttrib
  extAttrib := if flags.isLocal then 0 else de.extAttrib
  offset := if flags.isLocal then 0 else de.offset
  encryptionMethod := de.encryptionMethod

theorem internal_ids (made : de.internalFields platform flags = some internal) :
    ∀ field ∈ internal, efIsInternal field.id = true := by
  obtain ⟨utf8, madeUtf8, rfl⟩ := Option.map_eq_some_iff.mp made
  intro field member
  rcases List.mem_append.mp member with aes | member
  · rw [((de.winzip_aes_data).2 field aes).1]
    decide
  · rcases List.mem_append.mp member with zip64 | utf8
    · rw [((de.zip64_data flags).2 field zip64).1]
      decide
    · rcases ((utf8_fields_data madeUtf8).2 field utf8).1 with same | same
      · rw [same]
        decide
      · rw [same]
        decide

theorem remove_internal_all (made : de.internalFields platform flags = some internal)
    (external : ∀ field ∈ de.extraFields, efIsInternal field.id = false) :
    efRemoveInternal ((de.allFields flags internal).map (·.marked (.of flags.isLocal))) =
      (de.extraFields.filter fun field => field.flags.meets (.of flags.isLocal)).map
        (·.marked (.of flags.isLocal)) := by
  unfold efRemoveInternal allFields
  rw [List.map_append, List.filter_append]
  have gone : (internal.map (·.marked (.of flags.isLocal))).filter
      (fun field => !efIsInternal field.id) = [] := by
    apply List.filter_eq_nil_iff.mpr
    intro field member
    obtain ⟨made', there, rfl⟩ := List.mem_map.mp member
    have is : efIsInternal (made'.marked (.of flags.isLocal)).id = true :=
      internal_ids made made' there
    rw [is]
    decide
  have kept : ∀ field ∈ (de.extraFields.filter fun field =>
      field.flags.meets (.of flags.isLocal)).map (·.marked (.of flags.isLocal)),
        (!efIsInternal field.id) = true := by
    intro field member
    obtain ⟨own, there, rfl⟩ := List.mem_map.mp member
    have isNot : efIsInternal (own.marked (.of flags.isLocal)).id = false :=
      external own (List.mem_of_mem_filter there)
    rw [isNot]
    rfl
  rw [gone, List.filter_eq_self.mpr kept, List.nil_append]

theorem method_kept {method : Int} (positive : 0 ≤ method) (small : method < 65536) :
    ((UInt16.ofInt method).toNat : Int) = method := by
  rw [UInt16.ofInt, UInt16.toNat_ofNat']
  omega

theorem winzip_aes_parts (de : Dirent) (mode : UInt8) :
    (de.winzipAesData mode).length = 7 ∧ decodeLE ((de.winzipAesData mode).take 2) = 2 ∧
      ((de.winzipAesData mode).drop 2).take 2 = ascii "AE" ∧
      (de.winzipAesData mode).getD 4 0 = mode ∧
      ((de.winzipAesData mode).drop 5).take 2 = put16 (UInt16.ofInt de.compMethod) := by
  obtain ⟨low, high, method⟩ := two_bytes (UInt16.ofInt de.compMethod).toNat
  have whole : de.winzipAesData mode = [2, 0, 65, 69, mode, low, high] := by
    rw [winzipAesData, put16, put16, method]
    rfl
  rw [whole, put16, method]
  exact ⟨rfl, rfl, rfl, rfl, rfl⟩

theorem process_restored (made : de.internalFields platform flags = some internal)
    (storable : de.Storable) :
    (de.restored platform flags internal).processWinzipAes =
      .ok { de.restored platform flags internal with
        crcValid := de.encryptionMethod.aesMode.isNone
        compMethod := de.compMethod
        encryptionMethod := de.encryptionMethod } := by
  obtain ⟨positive, small, notAes⟩ := storable.method
  have kept := method_kept positive small
  have method : (de.restored platform flags internal).compMethod = de.compMethodWritten.toNat :=
    rfl
  have found : efGetById (de.restored platform flags internal).extraFields efWinzipAes .both =
      de.encryptionMethod.aesMode.map de.winzipAesData := by
    rw [← (finds_all made storable.external).winzipAes]
    exact ef_get_marked _ _ (of_meets_both _)
  unfold processWinzipAes
  rw [method, found]
  unfold compMethodWritten
  cases hasMode : de.encryptionMethod.aesMode with
  | none =>
      have encryption : (de.restored platform flags internal).encryptionMethod =
          de.encryptionMethod := by
        change encryptionOf de.flagged.bitflags = de.encryptionMethod
        obtain ⟨pkware, unknown⟩ := storable.encryption
        rw [flagged_encryption]
        cases encrypts : de.encryptionMethod with
        | none => rfl
        | tradPkware => simp [pkware encrypts]
        | unknown => simp [unknown encrypts]
        | aes128 | aes192 | aes256 => rw [encrypts] at hasMode; cases hasMode
      have same : (de.restored platform flags internal).compMethod = de.compMethod := by
        rw [method, compMethodWritten, hasMode]
        exact kept
      have valid : (de.restored platform flags internal).crcValid = true := rfl
      simp only [Option.isSome_none, Bool.false_eq_true, if_false, kept]
      rw [if_pos notAes, ← encryption, ← same, Option.isNone_none, ← valid]
  | some mode =>
      obtain ⟨long, version, vendor, tells, stored⟩ := de.winzip_aes_parts mode
      have number : ((decodeLE (put16 (UInt16.ofInt de.compMethod)) : Nat) : Int) =
          de.compMethod := by
        rw [put16, Binary.decode_encode_le_of_lt, kept]
        have bound := (UInt16.ofInt de.compMethod).toNat_lt
        omega
      simp only [Option.isSome_some, if_true, ne_eq, not_true_eq_false, if_false, Option.map_some,
        long, version, vendor, tells, stored, number]
      cases encrypts : de.encryptionMethod with
      | aes128 | aes192 | aes256 =>
          rw [encrypts] at hasMode
          cases hasMode
          rfl
      | none | tradPkware | unknown =>
          rw [encrypts] at hasMode
          cases hasMode

theorem finish_restored (made : de.internalFields platform flags = some internal)
    (storable : de.Storable) :
    (de.restored platform flags internal).finish = .ok (de.readBack platform flags) := by
  have both := internal_both made
  have offset : ¬ int64Max < (de.restored platform flags internal).offset := by
    have same : (de.restored platform flags internal).offset =
      if flags.isLocal then 0 else de.offset := rfl
    rw [same]
    split
    · decide
    · simpa using storable.offset
  have diskNumber : (if flags.isLocal then 0 else de.diskNumber.toUInt16.toUInt32) =
      if flags.isLocal then 0 else de.diskNumber := by
    rw [disk_number_kept storable.disk]
  have extra : (de.extraBytes platform flags).isEmpty =
      (de.allFields flags internal).isEmpty := by
    rw [extraBytes, made, Option.getD_some, ef_write_all both, Bool.eq_iff_iff,
      List.isEmpty_iff, List.isEmpty_iff, write_all_eq_nil both]
  unfold finish
  rw [if_neg offset, process_restored made storable]
  have fields : efRemoveInternal (de.restored platform flags internal).extraFields =
      (de.extraFields.filter fun field => field.flags.meets (.of flags.isLocal)).map
        (·.marked (.of flags.isLocal)) := remove_internal_all made storable.external
  simp only [Except.map, fields]
  unfold restored variableOf headerOf readBack
  simp only [extra]
  have disk : (if flags.isLocal then 0 else de.flagged.diskNumber.toUInt16.toUInt32) =
      if flags.isLocal then 0 else de.diskNumber := diskNumber
  rw [disk]
  rfl

/-- The input stands before these bytes. -/
def Input.Before (file : Bytes) : Input → Bytes → Prop
  | .buffer given, bytes => given.At bytes
  | .source position, bytes => file.drop position = bytes

/-- What the buffer has of what follows: a buffer that is given has all of it,
one that is filled from the source has none. -/
def Input.ahead (rest : Bytes) : Input → Bytes
  | .buffer _ => rest
  | .source _ => []

section

variable {file first rest : Bytes} {input : Input}

theorem new_from_source {position : Nat} (before : file.drop position = first ++ rest) :
    newFromSource file position first.length = .ok (.start first) := by
  unfold newFromSource
  rw [before, if_pos (by rw [List.length_append]; omega), List.take_left]

theorem fixed_part (before : input.Before file (first ++ rest)) :
    ∃ buffer, input.fixedPart file first.length = .ok buffer ∧
      buffer.At (first ++ input.ahead rest) := by
  cases input with
  | buffer given =>
      have left := before.left_eq
      rw [List.length_append] at left
      exact ⟨given, if_neg (by omega), before⟩
  | source position =>
      refine ⟨.start first, new_from_source before, ?_⟩
      rw [Input.ahead, List.append_nil]
      exact Cursor.at_start first

variable {fixed variable' : Bytes} {buffer : ZipBuffer}

theorem variable_part (before : input.Before file (fixed ++ (variable' ++ rest)))
    (at' : buffer.At (input.ahead (variable' ++ rest))) :
    ∃ buffer', input.variablePart file fixed.length variable'.length buffer = .ok buffer' ∧
      buffer'.At (variable' ++ input.ahead rest) := by
  cases input with
  | buffer given =>
      have left := at'.left_eq
      rw [Input.ahead, List.length_append] at left
      exact ⟨buffer, if_neg (by omega), at'⟩
  | source position =>
      have before' : file.drop (position + fixed.length) = variable' ++ rest := by
        rw [← List.drop_drop, before, List.drop_left]
      refine ⟨.start variable', new_from_source before', ?_⟩
      rw [Input.ahead, List.append_nil]
      exact Cursor.at_start variable'

theorem behind_before (before : input.Before file (first ++ rest))
    (at' : buffer.At (input.ahead rest)) : (input.behind first.length buffer).Before file rest := by
  cases input with
  | buffer given => exact at'
  | source position =>
      change file.drop (position + first.length) = rest
      rw [← List.drop_drop, before, List.drop_left]

end

theorem read_write {bytes file rest : Bytes} {is64 : Bool} {input : Input}
    (storable : de.Storable) (written : de.write platform flags = some (bytes, is64))
    (fits : (de.extraBytes platform flags).length < 65536)
    (before : input.Before file (bytes ++ rest)) :
    if de.zip64Lost flags then
      read platform file flags.isLocal input = .error (.incons detailInvalidZip64Ef none)
    else
      ∃ behind, read platform file flags.isLocal input =
        .ok (de.readBack platform flags, bytes.length, behind) ∧ behind.Before file rest := by
  obtain ⟨internal, made, same⟩ := Option.map_eq_some_iff.mp written
  obtain ⟨whole, _⟩ := Prod.mk.inj same
  rw [extraBytes, made, Option.getD_some] at fits
  let magic := if flags.isLocal then localMagic else centralMagic
  let efLen := efSize de.extraFields (.of flags.isLocal) + efSize internal .both
  let commentLen := if flags.isLocal then 0 else UInt16.ofNat (ZipString.length de.comment)
  let comment := ZipString.bytes (if flags.isLocal then none else de.comment)
  let fixed := magic ++ de.flagged.putHeader platform flags efLen
  let variable' := ZipString.bytes de.filename ++
    ((efWrite internal .both ++ efWrite de.extraFields (.of flags.isLocal)) ++ comment)
  have parts : bytes = fixed ++ variable' := by
    have comment' : (if flags.isLocal then [] else ZipString.bytes de.comment) = comment := by
      simp only [comment]
      split <;> rfl
    rw [← whole, comment']
    simp only [List.flatten_cons, List.flatten_nil, List.append_nil, List.append_assoc, fixed,
      variable', magic, efLen]
  have magicLength : magic.length = 4 := by
    simp only [magic]
    split <;> rfl
  have fixedLength : fixed.length = entrySize flags.isLocal := by
    rw [List.length_append, magicLength]
    exact length_put_header efLen
  have variableLength : (UInt16.ofNat (ZipString.length de.filename)).toNat + efLen.toNat +
      commentLen.toNat = variable'.length := by
    have commentLength : commentLen.toNat = comment.length := by
      simp only [commentLen, comment]
      split
      · rfl
      · rw [ZipString.to_nat_length, ZipString.length_eq]
    rw [ZipString.to_nat_length, ef_total_size fits, commentLength, ZipString.length_eq]
    simp only [variable', List.length_append]
    omega
  rw [parts, List.append_assoc] at before
  obtain ⟨buffer, takesFixed, atFixed⟩ := fixed_part before
  rw [List.append_assoc] at atFixed
  obtain ⟨gotMagic, atHeader⟩ := atFixed.get
  rw [magicLength] at gotMagic atHeader
  cases takesMagic : buffer.get 4 with
  | mk found behindMagic =>
  rw [takesMagic] at gotMagic atHeader
  obtain rfl : found = some magic := gotMagic
  obtain ⟨behindHeader, readsHeader, atVariable⟩ := (reads_header efLen).run atHeader
  obtain ⟨buffer', takesVariable, atVariable'⟩ := variable_part before atVariable
  have atStrings : buffer'.At (ZipString.bytes de.filename ++
      ((efWrite internal .both ++ efWrite de.extraFields (.of flags.isLocal)) ++
      (comment ++ input.ahead rest))) := by
    simpa only [variable', List.append_assoc] using atVariable'
  obtain ⟨behind, readsVariable, atRest⟩ := read_variable storable made fits atStrings
  rw [fixedLength, ← variableLength] at takesVariable
  rw [fixedLength] at takesFixed
  have reads : read platform file flags.isLocal input =
      ((de.variableOf platform flags internal).readZip64 flags.isLocal).bind fun entry =>
        entry.finish.map fun entry =>
          (entry, bytes.length, input.behind bytes.length behind) := by
    have total : entrySize flags.isLocal + ((UInt16.ofNat (ZipString.length de.filename)).toNat +
        efLen.toNat + commentLen.toNat) = bytes.length := by
      rw [parts, List.length_append, fixedLength, variableLength]
    have header : (readHeader platform flags.isLocal).run behindMagic =
        ((de.flagged.headerOf platform flags, UInt16.ofNat (ZipString.length de.filename), efLen,
          commentLen), behindHeader) := readsHeader
    have strings : (de.flagged.headerOf platform flags).readVariable platform flags.isLocal
        (UInt16.ofNat (ZipString.length de.filename)) efLen commentLen buffer' =
          .ok (de.variableOf platform flags internal, behind) := readsVariable
    have ok : behindHeader.ok = true := atVariable.ok
    unfold read
    simp only [takesFixed, takesMagic, header, takesVariable, strings, bind, Except.bind, total,
      ok, atRest.ok, ne_eq, magic, not_true_eq_false, if_false, Bool.not_true, Bool.false_eq_true]
    rfl
  rw [reads, read_zip64 made storable]
  split
  · rfl
  · simp only [Except.bind, finish_restored made storable, Except.map]
    refine ⟨_, rfl, ?_⟩
    rw [← List.append_assoc, ← parts] at before
    exact behind_before before atRest

/-- Noon on the first of January 2024, whatever the time, and no checksum. -/
def fixedPlatform : Platform where
  localtime := fun _ => some ⟨124, 0, 1, 12, 0, 0⟩
  mktime := fun _ => 0
  crc32 := fun _ => 0

def largeEntry : Dirent where
  localExtraFieldsRead := false
  crcValid := true
  versionMadeby := 831
  versionNeeded := 51
  bitflags := 0
  compMethod := 8
  lastMod := 0
  crc := 0x12345678
  compSize := 0xffffffff
  uncompSize := 0x123456789
  filename := some ⟨ascii "a.txt", .ascii, by decide, by decide, by decide⟩
  extraFields := []
  comment := none
  diskNumber := 0
  intAttrib := 0
  extAttrib := 0x81a40000
  offset := 77
  encryptionMethod := .aes256

theorem storable_large_entry : largeEntry.Storable where
  nulFree := by
    intro name there
    cases there
    decide
  external := nofun
  method := by decide
  disk := by decide
  offset := by decide
  encryption := ⟨nofun, nofun⟩

end Dirent

end FileTransfer
