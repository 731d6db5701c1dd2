import FileTransfer.Pipeline.Smooth
import FileTransfer.Pipeline.UploadProgress

/-!
# What is uploaded is what was committed, and that is what was served

The bytes passed to `sftp_write` are put against the archive as `zip_close`
left it, and the entries of that archive against the blocks `sftp_read`
returned, however the server cuts a file into blocks.
-/

namespace FileTransfer

set_option autoImplicit false

open Interaction

/-- `received` is what `sftp_read` has returned since the file was opened;
`served` pairs the paths read to their end with all that was returned. -/
structure Reception where
  received : Bytes
  served : List (Bytes × Bytes)

def Reception.recordDownload (reception : Reception) :
    (pc : DownloadPc) → (pc.call remoteHost1).Answer → Reception
  | .download _ _ _ _ .sftpOpen, true => { reception with received := [] }
  | .download _ _ _ _ (.sftpRead _), .data chunk =>
      { reception with received := reception.received ++ chunk.val }
  | .download _ file _ _ (.sftpRead _), .eof =>
      { reception with served := (file, reception.received) :: reception.served }
  | _, _ => reception

def Reception.record {env : Env Call.Answer} (reception : Reception) :
    PipelineEvent env → Reception
  | .left pc answer => reception.recordDownload pc answer
  | _ => reception

def reception {env : Env Call.Answer} (trace : List (PipelineEvent env)) : Reception :=
  trace.foldr (fun event reception => reception.record event) ⟨[], []⟩

theorem record_keeps_served (reception : Reception) (pc : DownloadPc)
    (answer : (pc.call remoteHost1).Answer) :
    reception.served ⊆ (reception.recordDownload pc answer).served := by
  unfold Reception.recordDownload
  split
  · exact List.Subset.refl _
  · exact List.Subset.refl _
  · exact List.subset_cons_self _ _
  · exact List.Subset.refl _

/-- The downloader's buffers hold what the server returned for the path at
hand. -/
def DownloadPc.Received (reception : Reception) : DownloadPc → Prop
  | .download _ _ _ _ (.sftpRead buffer) => buffer = reception.received
  | .download _ file _ _ (.sftpClose buffer true) => (file, buffer) ∈ reception.served
  | .append vars file _ _ _ =>
      vars.fileContents.1 = baseName file ∧ (file, vars.fileContents.2) ∈ reception.served
  | _ => True

@[simp] theorem loop_received (reception : Reception) (vars : DownloadVars)
    (done todo : List Bytes) : (DownloadPc.loop vars done todo).Received reception := by
  cases todo <;> trivial

@[simp] theorem listed_received (reception : Reception) (vars : DownloadVars) (time : Nat)
    (newFiles : Option (List Bytes)) :
    (DownloadPc.listed vars time newFiles).Received reception :=
  DownloadPc.listed_elim (motive := fun pc => pc.Received reception)
    (fun _ => trivial) (fun _ _ _ _ => trivial) vars time newFiles

theorem received_step {reception : Reception} {pc : DownloadPc}
    (answer : (pc.call remoteHost1).Answer) (received : pc.Received reception) :
    (pc.next remoteHost1 answer).Meets
      (fun pc' => pc'.Received (reception.recordDownload pc answer)) fun _ => True := by
  cases pc with
  | download vars file todo done pc =>
      cases pc with
      | sftpOpen => cases answer <;> first | rfl | trivial
      | sftpRead buffer =>
          have buffered : buffer = reception.received := received
          cases answer with
          | data chunk =>
              change buffer ++ chunk.val = reception.received ++ chunk.val
              rw [buffered]
          | eof =>
              change (file, buffer) ∈ (file, reception.received) :: reception.served
              rw [buffered]
              exact List.mem_cons_self
          | error => trivial
      | sftpClose buffer complete =>
          cases complete with
          | false => trivial
          | true => exact ⟨rfl, received⟩
  | append vars file todo done pc =>
      simp only [DownloadPc.next]
      split
      · exact received
      · exact loop_received _ _ _ _
      · trivial
  | listing vars time pc =>
      simp only [DownloadPc.next]
      split
      · trivial
      · exact listed_received _ _ _ _
  | readRunning vars => cases answer <;> trivial
  | session pc | sftp pc | fileSize vars file todo done =>
      simp only [DownloadPc.next]
      split <;> trivial
  | _ => trivial

/-- An entry is one the archive had at the start, or holds what the server
returned for a path, under the name libzip keeps of its base name. -/
def Genuine (localZip : Option ZipFile) (reception : Reception) (stored : Bytes × Bytes) : Prop :=
  (∃ file, localZip = some file ∧ stored ∈ file.stored) ∨
    ∃ path, (path, stored.2) ∈ reception.served ∧
      acceptedName (baseName path) = some stored.1

theorem Genuine.mono {localZip : Option ZipFile} {reception reception' : Reception}
    {stored : Bytes × Bytes} (genuine : Genuine localZip reception stored)
    (more : reception.served ⊆ reception'.served) : Genuine localZip reception' stored := by
  rcases genuine with initially | ⟨path, served, accepted⟩
  · exact .inl initially
  · exact .inr ⟨path, more served, accepted⟩

/-- Every entry on disk or in a handle is genuine. -/
structure Intact (localZip : Option ZipFile) (reception : Reception)
    (state : PipelineState libraryEnv) : Prop where
  received : ∀ pc, state.left = some pc → pc.Received reception
  entries : ∀ entry ∈ state.world.entries, Genuine localZip reception entry.stored
  opened : ∀ pc, state.left = some pc → ∀ entry ∈ pc.opened,
    Genuine localZip reception entry.stored

theorem intact_download_step {localZip : Option ZipFile} {reception : Reception}
    {pc : DownloadPc} {answer : (pc.call remoteHost1).Answer} {right : Option UploadPc}
    {world world' : World} (before : Intact localZip reception ⟨some pc, right, world⟩)
    (sound : pc.Sound)
    (responds : world.respond (pc.call remoteHost1) answer = some world') :
    Intact localZip (reception.recordDownload pc answer)
      ⟨(pc.next remoteHost1 answer).resume, right, world'⟩ := by
  obtain ⟨received, entries, opened⟩ := before
  have received' : pc.Received reception := received pc rfl
  have opened' : ∀ entry ∈ pc.opened, Genuine localZip reception entry.stored := opened pc rfl
  refine ⟨fun pc' stands => (received_step answer received').resumes stands, ?_, ?_⟩
  · cases download_effect responds with
    | opens found => exact entries
    | @commit vars file todo done archive written closes =>
        obtain ⟨addition, stored⟩ := commit_stored sound closes
        intro entry member
        have listed : entry.stored ∈ written.stored := List.mem_map_of_mem member
        rw [stored, List.mem_append] at listed
        rcases listed with kept | added
        · obtain ⟨original, found, same⟩ := List.mem_map.mp kept
          exact same ▸ opened' original found
        · rcases addition with nothing | ⟨kept, accepted, one⟩
          · rw [nothing] at added
            cases added
          · rw [one, List.mem_singleton] at added
            rw [added]
            obtain ⟨name, served⟩ := received'
            exact .inr ⟨file, served, name ▸ accepted⟩
    | quiet records localZip remoteFile opens =>
        intro entry member
        have there : entry ∈ world.entries := by
          rw [World.entries, ← localZip]
          exact member
        exact (entries entry there).mono (record_keeps_served _ _ _)
  · intro pc' stands entry member
    cases download_effect responds with
    | @opens vars file todo done found matched =>
        cases stands
        have there : entry ∈ world.entries := World.opens_entries matched ▸ member
        exact entries entry there
    | commit closes =>
        cases stands
        cases member
    | quiet records localZip remoteFile opens =>
        rcases opens.resumes stands with nothing | same
        · rw [nothing] at member
          cases member
        · rw [same] at member
          exact (opened' entry member).mono (record_keeps_served _ _ _)

theorem intact {localZip : Option ZipFile} {ok : PipelineCondition libraryEnv}
    {trace : List (PipelineEvent libraryEnv)} {state : PipelineState libraryEnv}
    (run : PipelineRun libraryEnv ok (Started localZip) trace state) :
    Intact localZip (reception trace) state := by
  refine run.invariant (fun trace state => Intact localZip (reception trace) state) ?_ ?_
  · rintro state ⟨atLeft, _, _, _, present⟩
    refine ⟨?_, ?_, ?_⟩
    · intro pc stands
      rw [atLeft] at stands
      cases stands
      trivial
    · intro entry member
      refine .inl ?_
      rw [World.entries, present] at member
      cases localZip with
      | none => cases member
      | some file => exact ⟨file, rfl, List.mem_map_of_mem member⟩
    · intro pc stands entry member
      rw [atLeft] at stands
      cases stands
      cases member
  · intro trace state event state' run before _ steps
    cases steps with
    | @left pc answer right world world' responds =>
        have sound : pc.Sound := run.keepsLeft download_keeps (fun _ started => started.1) pc rfl
        exact intact_download_step before sound responds
    | right responds =>
        obtain ⟨received, entries, opened⟩ := before
        exact ⟨received, fun entry member => entries entry (upload_entries responds member), opened⟩
    | @move move left right world world' moves =>
        cases move
        cases moves
        obtain ⟨received, entries, opened⟩ := before
        exact ⟨received, entries, opened⟩

/-- Whenever `upload_file` returns true, the blocks passed to `sftp_write` make
up the archive the most recent `zip_close` left, and every entry of it is one
it had at the start or one downloaded whole. `upload_file` is called only while
there is an archive. -/
theorem uploaded_archive_intact {localZip : Option ZipFile}
    {trace : List (PipelineEvent libraryEnv)} {state : PipelineState libraryEnv}
    (run : PipelineRun libraryEnv ReadsComplete (Started localZip) trace state) :
    (uploadReturned trace = true →
      ∃ file, (history localZip trace).lastClosed = some file ∧
        (history localZip trace).sent = file.bytes ∧
        ∀ entry ∈ file.entries,
          (∃ initially, localZip = some initially ∧ entry.stored ∈ initially.stored) ∨
          ∃ path, (path, entry.content) ∈ (reception trace).served ∧
            acceptedName (baseName path) = some entry.name ∧
            ((baseName path).length < 65536 → entry.name = baseName path)) ∧
    (state.right = some (.upload .semWait) → state.world.localZip.isSome = true) := by
  refine ⟨?_, fun stands => (progress run).upload _ stands⟩
  intro returned
  obtain ⟨older, rfl⟩ := upload_returned returned
  cases run with
  | step before meets steps =>
      cases steps with
      | @right _ _ left world world' responds =>
          obtain ⟨closed, upload, _⟩ := progress before
          obtain ⟨file, ⟨_, _, localZip'⟩, sent, _⟩ := upload _ rfl
          refine ⟨file, closed file localZip', sent, ?_⟩
          intro entry member
          have there : entry ∈ world.entries := by
            rw [World.entries, show world.localZip = some file from localZip']
            exact member
          rcases (intact before).entries entry there with initially | ⟨path, served, accepted⟩
          · exact .inl initially
          · exact .inr ⟨path, served, accepted, accepted_name_short accepted⟩

/-- One file is downloaded, appended and uploaded. -/
theorem uploaded_archive_intact_one_file :
    ∃ trace state, PipelineRun libraryEnv ReadsComplete (Started none) trace state ∧
      ∃ file : ZipFile, (history none trace).sent = file.bytes ∧ file.bytes = ascii "atext" ∧
        ∀ entry ∈ file.entries, ∃ path, (path, entry.content) ∈ (reception trace).served := by
  have found : ∃ trace state, PipelineRun libraryEnv ReadsComplete (Started none) trace state ∧
      (uploadReturned trace && (history none trace).sent == ascii "atext") = true :=
    exists_run_of_play (fun trace state event => decide (ReadsComplete trace state event))
      (bothSetUp plainLayout ++ fetches plainLayout (ascii "a") [ascii "text"] 1 1 1 ++
        appends plainLayout ++ checks plainLayout ++ uploads plainLayout)
      (startState none) _ (fun _ _ _ => of_decide_eq_true) (start_state_started none)
      (by decide +kernel)
  obtain ⟨trace, state, run, outcome⟩ := found
  rw [Bool.and_eq_true, beq_iff_eq] at outcome
  obtain ⟨returned, sent⟩ := outcome
  obtain ⟨file, _, whole, genuine⟩ := (uploaded_archive_intact run).1 returned
  refine ⟨trace, state, run, file, whole, whole.symm.trans sent, ?_⟩
  intro entry member
  rcases genuine entry member with ⟨initially, absent, _⟩ | ⟨path, served, _⟩
  · cases absent
  · exact ⟨path, served⟩

end FileTransfer
