import FileTransfer.Pipeline.RemoteHost
import FileTransfer.Pipeline.Rounds
import FileTransfer.Pipeline.UploadIntegrity

/-!
# Where the names in the archive come from

Every path in `file_history` has been reported, only such paths are downloaded,
and so every name in the archive is that of a reported path, or was there at the
start. This holds of the archive on disk and of the one a lookup has opened.
-/

namespace FileTransfer

set_option autoImplicit false

open Interaction

theorem record_keeps_reported (listings : Listings) (pc : DownloadPc)
    (answer : (pc.call remoteHost1).Answer) :
    listings.reported ⊆ (listings.recordDownload pc answer).reported := by
  unfold Listings.recordDownload
  split
  case h_6 =>
    simp only [Listings.reported, List.map_append]
    exact List.subset_append_right _ _
  all_goals exact List.Subset.refl _

def Position.Queued (listings : Listings) : Position → Prop
  | .before | .after => True
  | .idle books | .listing books _ _ _ => books.fileHistory ⊆ listings.reported
  | .file books path todo _ =>
      books.fileHistory ⊆ listings.reported ∧ path :: todo ⊆ listings.reported

theorem Position.Queued.mono {position : Position} {listings listings' : Listings}
    (queued : position.Queued listings) (more : listings.reported ⊆ listings'.reported) :
    position.Queued listings' := by
  cases position with
  | before | after => trivial
  | idle books | listing books time newFiles looking => exact List.Subset.trans queued more
  | file books path todo done =>
      exact ⟨List.Subset.trans queued.1 more, List.Subset.trans queued.2 more⟩

theorem Position.queued_loop {listings : Listings} {books : Books} {todo : List Bytes}
    (history : books.fileHistory ⊆ listings.reported) (ahead : todo ⊆ listings.reported)
    (done : List Bytes) : (Position.loop books done todo).Queued listings := by
  cases todo with
  | nil => exact fun path left => history (mem_remove_processed.mp left).1
  | cons path todo => exact ⟨history, ahead⟩

theorem queued_step {listings : Listings} {pc : DownloadPc}
    {answer : (pc.call remoteHost1).Answer} {position : Position}
    (before : pc.position.Queued listings) (steps : RoundStep pc answer position) :
    position.Queued (listings.recordDownload pc answer) := by
  have more := record_keeps_reported listings pc answer
  cases steps with
  | stays quiet => exact before.mono more
  | leaves quiet => trivial
  | enters => exact List.nil_subset _
  | samples | skips | shows | finds | misses => exact Position.Queued.mono before more
  | passes => exact List.Subset.trans before more
  | @reports vars time newFiles answer found =>
      have known : insertNew vars.fileHistory newFiles ⊆ (listings.recordDownload
          (.listing vars time (.sftpClosedir newFiles)) answer).reported := by
        intro path member
        rcases mem_insert_new.mp member with old | new
        · exact more (before old)
        · have reported : path ∈ (newFiles.map (·, time)).map (·.1) := by simpa using new
          simp only [Listings.reported, Listings.recordDownload, List.map_append]
          exact List.mem_append_left _ reported
      exact Position.queued_loop known known []
  | @appends vars file todo done =>
      obtain ⟨history, ahead⟩ := before.mono more
      exact Position.queued_loop history (fun path later => ahead (List.mem_cons_of_mem _ later)) _
  | breaks stands quiet =>
      rw [stands] at before
      exact Position.queued_loop (before.mono more).1 (List.nil_subset _) _

section

variable {env : Env Call.Answer} {ok : PipelineCondition env} {init : PipelineState env → Prop}
  (starts : ∀ state, init state → state.left = some downloadThread.start)
include starts

theorem queued {trace : List (PipelineEvent env)} {state : PipelineState env}
    (run : PipelineRun env ok init trace state) :
    ∀ pc : DownloadPc, state.left = some pc → pc.position.Queued (listings trace) :=
  position_invariant starts (fun listings _ position => position.Queued listings)
    (fun _ _ => trivial) (fun _ _ _ _ _ _ _ _ _ _ before steps => queued_step before steps)
    (fun _ _ _ _ _ _ _ _ before => before) (fun _ _ _ _ _ _ _ _ _ before => before) run

theorem served_reported {trace : List (PipelineEvent env)} {state : PipelineState env}
    (run : PipelineRun env ok init trace state) :
    ∀ delivery ∈ (reception trace).served, delivery.1 ∈ (listings trace).reported := by
  refine run.invariant (fun trace _ =>
    ∀ delivery ∈ (reception trace).served, delivery.1 ∈ (listings trace).reported) ?_ ?_
  · intro state _ delivery member
    cases member
  · intro trace state event state' run before _ steps
    cases steps with
    | @left pc answer right world world' responds =>
        intro delivery member
        refine record_keeps_reported _ pc answer ?_
        change delivery ∈ ((reception trace).recordDownload pc answer).served at member
        unfold Reception.recordDownload at member
        split at member
        case h_3 =>
          rcases List.mem_cons.mp member with rfl | earlier
          · exact (queued starts run _ rfl).2 List.mem_cons_self
          · exact before delivery earlier
        all_goals exact before delivery member
    | right responds => exact before
    | move moves => exact before

end

theorem reception_project {env env' : Env Call.Answer} (projection : Projection env env')
    (trace : List (PipelineEvent env)) : reception (projection.trace trace) = reception trace := by
  induction trace with
  | nil => rfl
  | cons event trace ih =>
      cases event with
      | left pc answer =>
          exact congrArg (fun reception : Reception => reception.recordDownload pc answer) ih
      | right pc answer => exact ih
      | move move =>
          cases seen : projection.visible move with
          | none =>
              have dropped : projection.trace (.move move :: trace) = projection.trace trace := by
                simp [Projection.trace, Projection.event, seen]
              rw [dropped]
              exact ih
          | some move' =>
              have kept : projection.trace (.move move :: trace) =
                  .move move' :: projection.trace trace := by
                simp [Projection.trace, Projection.event, seen]
              rw [kept]
              exact ih

def startEntries (localZip : Option ZipFile) : List Entry := localZip.elim [] (·.entries)

/-- A name the archive had at the start or has got from a reported path. -/
def Named (localZip : Option ZipFile) (listings : Listings) (name : Bytes) : Prop :=
  (∃ entry ∈ startEntries localZip, entry.name = name) ∨
    ∃ path ∈ listings.reported, acceptedName (baseName path) = some name

theorem Named.mono {localZip : Option ZipFile} {listings listings' : Listings} {name : Bytes}
    (named : Named localZip listings name) (more : listings.reported ⊆ listings'.reported) :
    Named localZip listings' name := by
  rcases named with initially | ⟨path, reported, accepted⟩
  · exact .inl initially
  · exact .inr ⟨path, more reported, accepted⟩

theorem archived_named {localZip : Option ZipFile} {ok : PipelineCondition hostEnv}
    {trace : List (PipelineEvent hostEnv)} {state : PipelineState hostEnv}
    (run : PipelineRun hostEnv ok (HostStarted localZip) trace state) :
    ∀ entry ∈ state.world.base.entries, Named localZip (listings trace) entry.name := by
  intro entry member
  have served := served_reported (fun _ started => started.1) run
  rcases (intact (host_projects run)).entries entry member with
    ⟨file, initially, stored⟩ | ⟨path, delivered, accepted⟩
  · obtain ⟨original, found, same⟩ := List.mem_map.mp stored
    refine .inl ⟨original, ?_, congrArg Prod.fst same⟩
    rw [startEntries, initially]
    exact found
  · rw [reception_project] at delivered
    exact .inr ⟨path, served _ delivered, accepted⟩

def DownloadPc.inspected : DownloadPc → List Entry
  | .listing _ _ (.fileExists _ _ (.zipNameLocate opened))
  | .listing _ _ (.fileExists _ _ (.zipClose opened _)) => opened
  | _ => []

@[simp] theorem loop_inspected (vars : DownloadVars) (done todo : List Bytes) :
    (DownloadPc.loop vars done todo).inspected = [] := by
  cases todo <;> rfl

theorem inspected_next {world world' : World} {pc : DownloadPc}
    {answer : (pc.call remoteHost1).Answer}
    (responds : world.respond (pc.call remoteHost1) answer = some world') :
    (pc.next remoteHost1 answer).Meets
      (fun pc' => pc'.inspected ⊆ world.entries ∨ pc'.inspected = pc.inspected)
      fun _ => True := by
  cases pc with
  | listing vars time pc =>
      cases pc with
      | fileExists newFiles attributes pc =>
          cases pc with
          | zipOpen =>
              cases answer with
              | none => exact .inr rfl
              | some opened =>
                  have found := World.respond_zip_open localZipPath responds
                  refine .inl ?_
                  change opened ⊆ world.entries
                  rw [found]
                  exact List.Subset.refl _
          | zipNameLocate opened => cases answer <;> exact .inr rfl
          | zipClose opened index => cases index <;> exact .inl (List.nil_subset _)
      | sftpReaddir newFiles =>
          cases answer with
          | entry attributes =>
              simp only [DownloadPc.next, ListPc.next]
              split <;> rename_i next <;> split at next <;> cases next <;> exact .inr rfl
          | eof | error => exact .inr rfl
      | sftpClosedir newFiles =>
          rw [next_closedir, Next.meets_goto]
          split
          · exact .inr rfl
          · exact .inr (loop_inspected _ _ _)
      | sftpOpendir => cases answer <;> exact .inr rfl
      | errorOpendir | sftpAttributesFree => exact .inr rfl
  | append vars file todo done pc =>
      simp only [DownloadPc.next]
      split
      · exact .inr rfl
      · exact .inr (loop_inspected _ _ _)
      · exact .inr rfl
  | readRunning vars => cases answer <;> exact .inr rfl
  | session pc | sftp pc | fileSize vars file todo done | download vars file todo done pc =>
      simp only [DownloadPc.next]
      split <;> first | exact .inr rfl | trivial
  | sshFree => trivial
  | _ => exact .inr rfl

theorem inspected_named {localZip : Option ZipFile} {ok : PipelineCondition hostEnv}
    {trace : List (PipelineEvent hostEnv)} {state : PipelineState hostEnv}
    (run : PipelineRun hostEnv ok (HostStarted localZip) trace state) :
    ∀ pc : DownloadPc, state.left = some pc →
      ∀ entry ∈ pc.inspected, Named localZip (listings trace) entry.name := by
  refine run.invariant (fun trace state => ∀ pc : DownloadPc, state.left = some pc →
    ∀ entry ∈ pc.inspected, Named localZip (listings trace) entry.name) ?_ ?_
  · intro state started pc stands entry member
    rw [started.1] at stands
    cases stands
    cases member
  · intro trace state event state' run before _ steps
    cases steps with
    | @left pc answer right world world' responds =>
        intro pc' stands entry member
        have more := record_keeps_reported (listings trace) pc answer
        rcases (inspected_next (HostWorld.respond_base responds)).resumes stands with
          opened | same
        · exact (archived_named run entry (opened member)).mono more
        · exact (before pc rfl entry (same ▸ member)).mono more
    | right responds => exact before
    | move moves => exact before

end FileTransfer
