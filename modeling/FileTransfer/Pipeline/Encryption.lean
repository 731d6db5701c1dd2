import FileTransfer.Pipeline.Smooth
import FileTransfer.Pipeline.UploadProgress

/-!
# What leaves is encrypted

`append_to_zip` looks at the result of none of `zip_file_add`,
`zip_name_locate` and `zip_file_set_encryption`, so an entry is encrypted just
if the last of them succeeded.
-/

namespace FileTransfer

set_option autoImplicit false

open Interaction

/-- Stored under the configured password, by a name a zip file can hold. -/
structure Protected (entry : Entry) : Prop where
  encrypted : entry.encryption = .aes256 zipPassphrase
  name : entry.name.length < 65536

def ZipEntry.Protects (entry : ZipEntry) : Prop :=
  ∀ written, entry.write noFiles = some written → Protected written

theorem protects_original {entry : Entry} (safe : Protected entry)
    (change : Option Encryption) : (ZipEntry.original entry change).Protects := by
  intro written writes
  cases change with
  | none =>
      cases writes
      exact safe
  | some encryption =>
      simp [ZipEntry.write, safe.encrypted] at writes

theorem protects_added {name kept content : Bytes} (accepted : acceptedName name = some kept) :
    (ZipEntry.added kept (.buffer content) (some (.aes256 zipPassphrase))).Protects := by
  intro written writes
  cases writes
  exact ⟨rfl, accepted_name_length accepted⟩

theorem located_is_added {opened : List Entry} {name kept content : Bytes} {position : Nat}
    (safe : ∀ entry ∈ opened, Protected entry) (accepted : acceptedName name = some kept)
    (fresh : (Zip.opened opened).nameLocate name .guess = none)
    (located : Zip.nameLocate ⟨(Zip.opened opened).entry ++ [.added kept (.buffer content) none]⟩
      name .utf8 = some position) : position = opened.length := by
  have absent : ∀ entry ∈ opened, entry.name ≠ name := by
    intro entry member same
    have short : name.length < 65536 := same ▸ (safe entry member).name
    have kept' : kept = name := accepted_name_short accepted short
    simp only [Zip.nameLocate, lookup_accepted_name accepted, Option.bind_some,
      List.findIdx?_eq_none_iff, Zip.opened, List.mem_map] at fresh
    have other := fresh (.original entry none) ⟨entry, member, rfl⟩
    exact absurd (same.trans kept'.symm) (of_decide_eq_false other)
  have nowhere : (Zip.opened opened).entry.findIdx? (fun entry => decide (entry.name = name)) =
      none := by
    simp only [List.findIdx?_eq_none_iff, Zip.opened, List.mem_map]
    rintro _ ⟨entry, member, rfl⟩
    exact decide_eq_false (absent entry member)
  simp only [Zip.nameLocate, lookupName, Option.bind_some, List.findIdx?_append, nowhere,
    Option.none_or, Option.map_eq_some_iff] at located
  obtain ⟨index, found, rfl⟩ := located
  have first : index = 0 := by
    have bound := (List.findIdx?_eq_some_iff_findIdx_eq.mp found).1
    simpa using bound
  simp [first, Zip.opened]

theorem opened_protects {opened : List Entry} (safe : ∀ entry ∈ opened, Protected entry)
    {entry : ZipEntry} (member : entry ∈ (Zip.opened opened).entry) (change : Option Encryption) :
    ∃ original, entry = .original original none ∧
      (ZipEntry.original original change).Protects := by
  obtain ⟨original, found, rfl⟩ := List.mem_map.mp member
  exact ⟨original, rfl, protects_original (safe original found) change⟩

/-- Once the encryption has been set wherever an entry was added, nothing
`zip_close` can write is in the clear: an entry that was there already stays as
it was, or cannot be written at all. -/
theorem set_encryption_protects {opened : List Entry} {name content : Bytes} {archive : Zip}
    {index : Option Nat} {memory : Bool} (safe : ∀ entry ∈ opened, Protected entry)
    (adds : Zip.Added opened name content archive)
    (located : index = none ∨ index = archive.nameLocate name .utf8)
    (sets : archive.additions ≠ [] →
      (archive.fileSetEncryption index zipPassphrase memory).isSome = true) :
    ∀ entry ∈ ((archive.fileSetEncryption index zipPassphrase memory).getD archive).entry,
      entry.Protects := by
  cases adds with
  | refused =>
      cases set : (Zip.opened opened).fileSetEncryption index zipPassphrase memory with
      | none =>
          intro entry member
          obtain ⟨original, rfl, protects⟩ := opened_protects safe member none
          exact protects
      | some after =>
          cases index with
          | none => simp [Zip.fileSetEncryption] at set
          | some position =>
              simp only [Zip.fileSetEncryption] at set
              split at set
              · cases set
                intro entry member
                rw [Option.getD_some] at member
                obtain ⟨at', _, rfl⟩ := List.mem_iff_getElem.mp member
                rw [List.getElem_modify]
                split
                · obtain ⟨original, same, protects⟩ :=
                    opened_protects safe (List.getElem_mem _) (some (.aes256 zipPassphrase))
                  rw [same]
                  exact protects
                · obtain ⟨original, same, protects⟩ :=
                    opened_protects safe (List.getElem_mem _) none
                  rw [same]
                  exact protects
              · cases set
  | @added kept accepted fresh =>
      have some' := sets (by simp [Zip.additions])
      obtain ⟨after, set⟩ := Option.isSome_iff_exists.mp some'
      rw [set, Option.getD_some]
      cases index with
      | none => simp [Zip.fileSetEncryption] at set
      | some position =>
          have found : position = opened.length := by
            rcases located with missing | found
            · cases missing
            · exact located_is_added safe accepted fresh found.symm
          simp only [Zip.fileSetEncryption] at set
          split at set
          · cases set
            intro entry member
            obtain ⟨at', bound, rfl⟩ := List.mem_iff_getElem.mp member
            have length : (Zip.opened opened).entry.length = opened.length := by
              simp [Zip.opened]
            simp only [List.length_modify, List.length_append, List.length_singleton,
              length] at bound
            rw [List.getElem_modify]
            by_cases last : at' = opened.length
            · rw [if_pos (found.trans last.symm), List.getElem_append_right (by omega)]
              simp only [List.getElem_singleton]
              exact protects_added accepted
            · have before : at' < (Zip.opened opened).entry.length := by omega
              rw [if_neg (fun same => last (same.symm.trans found)),
                List.getElem_append_left before]
              obtain ⟨original, same, protects⟩ :=
                opened_protects safe (List.getElem_mem before) none
              rw [same]
              exact protects
          · cases set

theorem write_protected {archive : Zip} {entries : List Entry}
    (protects : ∀ entry ∈ archive.entry, entry.Protects)
    (writes : archive.write noFiles = some entries) : ∀ entry ∈ entries, Protected entry := by
  have pairs := Zip.write_forall₂ writes
  obtain ⟨entry⟩ := archive
  simp only at pairs protects
  clear writes
  induction pairs with
  | nil => nofun
  | cons head _ ih =>
      intro written member
      rw [List.forall_mem_cons] at protects
      rcases List.mem_cons.mp member with rfl | later
      · exact protects.1 _ head
      · exact ih protects.2 written later

/-- The handle about to be closed has nothing to write in the clear. -/
def DownloadPc.Closing : DownloadPc → Prop
  | .append _ _ _ _ (.zipClose archive) => ∀ entry ∈ archive.entry, entry.Protects
  | _ => True

/-- A `zip_file_set_encryption` that follows a successful `zip_file_add`
succeeds, which includes that the entry has been located. -/
def DownloadPc.encryptionSet : (pc : DownloadPc) → (pc.call remoteHost1).Answer → Bool
  | .append _ _ _ _ (.zipFileSetEncryption archive index), memory =>
      archive.additions.isEmpty ||
        (archive.fileSetEncryption index zipPassphrase memory).isSome
  | _, _ => true

def EncryptionSet : PipelineCondition libraryEnv :=
  fun _ _ event => match event with
    | .left pc answer => pc.encryptionSet answer = true
    | _ => True

instance (trace : List (PipelineEvent libraryEnv)) (state : PipelineState libraryEnv)
    (event : PipelineEvent libraryEnv) : Decidable (EncryptionSet trace state event) :=
  match event with
  | .left pc answer => inferInstanceAs (Decidable (pc.encryptionSet answer = true))
  | .right _ _ | .move _ => isTrue trivial

@[simp] theorem loop_closing (vars : DownloadVars) (done todo : List Bytes) :
    (DownloadPc.loop vars done todo).Closing := by
  cases todo <;> trivial

@[simp] theorem listed_closing (vars : DownloadVars) (time : Nat)
    (newFiles : Option (List Bytes)) : (DownloadPc.listed vars time newFiles).Closing :=
  DownloadPc.listed_elim (motive := DownloadPc.Closing)
    (fun _ => trivial) (fun _ _ _ _ => trivial) vars time newFiles

theorem closing_next {pc : DownloadPc} {answer : (pc.call remoteHost1).Answer} (sound : pc.Sound)
    (safe : ∀ entry ∈ pc.opened, Protected entry) (sets : pc.encryptionSet answer = true) :
    (pc.next remoteHost1 answer).Meets DownloadPc.Closing fun _ => True := by
  cases pc with
  | append vars file todo done pc =>
      cases pc with
      | zipFileSetEncryption archive index =>
          obtain ⟨opened, adds, located⟩ := sound
          have safe' : ∀ entry ∈ opened, Protected entry := adds.originals ▸ safe
          refine set_encryption_protects safe' adds located ?_
          intro added
          rcases Bool.or_eq_true_iff.mp sets with empty | set
          · exact absurd (List.isEmpty_iff.mp empty) added
          · exact set
      | zipOpen | zipSourceBuffer | zipNameLocate | zipClose => cases answer <;> trivial
      | semPost result => cases result <;> first | trivial | exact loop_closing _ _ _
      | _ => trivial
  | listing vars time pc =>
      simp only [DownloadPc.next]
      split
      · trivial
      · exact listed_closing _ _ _
  | session pc | sftp pc | fileSize vars file todo done | download vars file todo done pc =>
      simp only [DownloadPc.next]
      split <;> trivial
  | readRunning vars => cases answer <;> trivial
  | _ => trivial

/-- What every state keeps: nothing on disk, in a handle or in an opened file is
in the clear. -/
structure Enciphered (history : History) (state : PipelineState libraryEnv) : Prop where
  entries : ∀ entry ∈ state.world.entries, Protected entry
  opened : ∀ pc, state.left = some pc → ∀ entry ∈ pc.opened, Protected entry
  closing : ∀ pc, state.left = some pc → pc.Closing
  snapshot : ∀ file, history.snapshot = some file → ∀ entry ∈ file.entries, Protected entry

theorem enciphered_download_step {history : History} {pc : DownloadPc}
    {answer : (pc.call remoteHost1).Answer} {right : Option UploadPc} {world world' : World}
    (before : Enciphered history ⟨some pc, right, world⟩) (sound : pc.Sound)
    (sets : pc.encryptionSet answer = true)
    (responds : world.respond (pc.call remoteHost1) answer = some world') :
    Enciphered (history.recordDownload pc answer)
      ⟨(pc.next remoteHost1 answer).resume, right, world'⟩ := by
  obtain ⟨entries, opened, closing, snapshot⟩ := before
  have safe : ∀ entry ∈ pc.opened, Protected entry := opened pc rfl
  have closes : ∀ pc', (pc.next remoteHost1 answer).resume = some pc' → pc'.Closing :=
    fun _ stands => (closing_next sound safe sets).resumes stands
  cases download_effect responds with
  | @opens vars file todo done found matched =>
      refine ⟨entries, ?_, closes, snapshot⟩
      intro pc' stands entry member
      cases stands
      exact entries entry (World.opens_entries matched ▸ member)
  | @commit vars file todo done archive written closed =>
      refine ⟨?_, ?_, closes, snapshot⟩
      · simp only [Zip.closes, Bool.and_eq_true, decide_eq_true_eq] at closed
        exact write_protected (closing _ rfl) closed.2
      · intro pc' stands entry member
        cases stands
        cases member
  | quiet records same remoteFile opens =>
      rw [records]
      refine ⟨?_, ?_, closes, snapshot⟩
      · intro entry member
        refine entries entry ?_
        rw [World.entries, ← same]
        exact member
      · intro pc' stands entry member
        rcases opens.resumes stands with nothing | kept
        · rw [nothing] at member
          cases member
        · exact safe entry (kept ▸ member)

theorem enciphered {localZip : Option ZipFile} {trace : List (PipelineEvent libraryEnv)}
    {state : PipelineState libraryEnv}
    (starts : ∀ file, localZip = some file → ∀ entry ∈ file.entries, Protected entry)
    (run : PipelineRun libraryEnv EncryptionSet (Started localZip) trace state) :
    Enciphered (history localZip trace) state := by
  refine run.invariant (fun trace state => Enciphered (history localZip trace) state) ?_ ?_
  · rintro state ⟨atLeft, _, _, _, present⟩
    refine ⟨?_, ?_, ?_, nofun⟩
    · intro entry member
      rw [World.entries, present] at member
      cases localZip with
      | none => cases member
      | some file => exact starts file rfl entry member
    · intro pc stands entry member
      rw [atLeft] at stands
      cases stands
      cases member
    · intro pc stands
      rw [atLeft] at stands
      cases stands
      trivial
  · intro trace state event state' run before sets steps
    cases steps with
    | @left pc answer right world world' responds =>
        have sound : pc.Sound := run.keepsLeft download_keeps (fun _ started => started.1) pc rfl
        exact enciphered_download_step before sound sets responds
    | @right pc answer left world world' responds =>
        obtain ⟨entries, opened, closing, snapshot⟩ := before
        refine ⟨fun entry member => entries entry (upload_entries responds member), opened,
          closing, ?_⟩
        intro file taken entry member
        rw [history_right] at taken
        rcases snapshot_recorded responds with same | ⟨_, now⟩
        · exact snapshot file (same ▸ taken) entry member
        · refine entries entry ?_
          rw [World.entries, now.symm.trans taken]
          exact member
    | @move move left right world world' moves =>
        cases move
        cases moves
        obtain ⟨entries, opened, closing, snapshot⟩ := before
        exact ⟨entries, opened, closing, snapshot⟩

/-- In a run in which every added entry's encryption gets set, every entry of
every archive an upload opens is stored with AES-256 under the configured
password. -/
theorem uploaded_entries_encrypted {trace : List (PipelineEvent libraryEnv)}
    {state : PipelineState libraryEnv} {file : ZipFile}
    (run : PipelineRun libraryEnv EncryptionSet (Started none) trace state)
    (opened : (history none trace).snapshot = some file) :
    ∀ entry ∈ file.entries, entry.encryption = .aes256 zipPassphrase :=
  fun entry member =>
    ((enciphered (fun _ missing => by cases missing) run).snapshot file opened entry
      member).encrypted

/-- One file is appended and uploaded. -/
theorem uploaded_entries_encrypted_one_file :
    ∃ trace state, PipelineRun libraryEnv EncryptionSet (Started none) trace state ∧
      ∃ file : ZipFile, (history none trace).snapshot = some file ∧ file.entries ≠ [] ∧
        ∀ entry ∈ file.entries, entry.encryption = .aes256 zipPassphrase := by
  have found : ∃ trace state,
      PipelineRun libraryEnv EncryptionSet (Started none) trace state ∧
        (history none trace).snapshot.any (fun file => !file.entries.isEmpty) = true :=
    exists_run_of_play (fun trace state event => decide (EncryptionSet trace state event))
      (bothSetUp plainLayout ++ fetches plainLayout (ascii "a") [ascii "text"] 1 1 1 ++
        appends plainLayout ++ checks plainLayout ++ uploads plainLayout)
      (startState none) _ (fun _ _ _ => of_decide_eq_true) (start_state_started none)
      (by decide +kernel)
  obtain ⟨trace, state, run, outcome⟩ := found
  cases opened : (history none trace).snapshot with
  | none => simp [opened] at outcome
  | some file =>
      refine ⟨trace, state, run, file, opened, ?_, uploaded_entries_encrypted run opened⟩
      intro empty
      simp [opened, empty] at outcome

def refusesEncryption : Cue libraryEnv :=
  .left fun _ call => match call with
    | .zipFileSetEncryption _ _ _ => some false
    | _ => none

/-- Without its encryption set, the file is stored and uploaded as it is. -/
theorem uploaded_entry_in_the_clear :
    ¬ ∀ (trace : List (PipelineEvent libraryEnv)) (state : PipelineState libraryEnv)
        (file : ZipFile),
      PipelineRun libraryEnv (anyStep _ _ _) (Started none) trace state →
        (history none trace).snapshot = some file →
          ∀ entry ∈ file.entries, entry.encryption = .aes256 zipPassphrase := by
  intro encrypted
  have found : ∃ trace state,
      PipelineRun libraryEnv (anyStep _ _ _) (Started none) trace state ∧
        decide ((history none trace).snapshot.map (·.entries) =
          some [⟨ascii "a", ascii "text", .none⟩]) = true :=
    exists_run_of_play (fun _ _ _ => true)
      (bothSetUp plainLayout ++ fetches plainLayout (ascii "a") [ascii "text"] 1 1 1 ++
        downloadSmoothly plainLayout 5 ++ [refusesEncryption] ++
        downloadSmoothly plainLayout 2 ++ checks plainLayout ++ uploads plainLayout)
      (startState none) _ (fun _ _ _ _ => trivial) (start_state_started none)
      (by decide +kernel)
  obtain ⟨trace, state, run, outcome⟩ := found
  obtain ⟨file, opened, entries⟩ := Option.map_eq_some_iff.mp (of_decide_eq_true outcome)
  have safe := encrypted trace state file run opened ⟨ascii "a", ascii "text", .none⟩
  rw [entries] at safe
  cases safe (List.mem_singleton.mpr rfl)

end FileTransfer
