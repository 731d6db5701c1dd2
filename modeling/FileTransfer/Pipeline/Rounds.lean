import FileTransfer.Pipeline.Listings
import Mathlib.Data.List.Nodup

/-!
# The iterations of `download_routine`

The bookkeeping of the routine as a machine of its own: the variables that
outlive an iteration, the listing with the files it has found and the loop over
`file_history`. Every call of the routine is a step of it.
-/

namespace FileTransfer

set_option autoImplicit false

open Interaction

/-- What an iteration leaves to the next. -/
structure Books where
  fileHistory : List Bytes
  lastRun : Nat

def DownloadVars.books (vars : DownloadVars) : Books := ⟨vars.fileHistory, vars.lastRun⟩

/-- Where the routine stands: `listing` with the iteration's `now`, the files
found so far and the entry being looked up, `file` with the path at hand, those
after it and `files_to_remove`. -/
inductive Position where
  | before
  | idle (books : Books)
  | listing (books : Books) (time : Nat) (newFiles : List Bytes) (looking : Option Attributes)
  | file (books : Books) (file : Bytes) (todo done : List Bytes)
  | after

def Position.books : Position → Option Books
  | .idle books | .listing books _ _ _ | .file books _ _ _ => some books
  | .before | .after => none

def Position.loop (books : Books) (done : List Bytes) : List Bytes → Position
  | [] => .idle { books with fileHistory := removeProcessed books.fileHistory done }
  | path :: todo => .file books path todo done

def ListPc.newFiles : ListPc → List Bytes
  | .sftpOpendir | .errorOpendir => []
  | .sftpReaddir newFiles | .fileExists newFiles _ _ | .sftpAttributesFree newFiles
  | .sftpClosedir newFiles => newFiles

def ListPc.looking : ListPc → Option Attributes
  | .fileExists _ attributes _ => some attributes
  | _ => none

def DownloadPc.position : DownloadPc → Position
  | .session _ | .sftp _ | .initialNow => .before
  | .readRunning vars | .now vars | .sleep vars => .idle vars.books
  | .listing vars time pc => .listing vars.books time pc.newFiles pc.looking
  | .fileSize vars file todo done | .download vars file todo done _
  | .append vars file todo done _ => .file vars.books file todo done
  | .clearRunning | .sftpFree | .sshDisconnect | .sshFree => .after

theorem last_run_books (pc : DownloadPc) : pc.lastRun = pc.position.books.map (·.lastRun) := by
  cases pc <;> rfl

/-- A call that shows, reports and stores nothing. -/
structure Quiet (pc : DownloadPc) (answer : (pc.call remoteHost1).Answer) : Prop where
  start : ∀ listings : Listings, (listings.recordDownload pc answer).start = listings.start
  shown : ∀ listings : Listings, (listings.recordDownload pc answer).shown = listings.shown
  reports : ∀ listings : Listings,
    (listings.recordDownload pc answer).reports = listings.reports
  stored : ∀ listings : Listings, (listings.recordDownload pc answer).stored = listings.stored

theorem Quiet.of_lookups {pc : DownloadPc} {answer : (pc.call remoteHost1).Answer}
    (looks : ∀ listings : Listings, ∃ lookups,
      listings.recordDownload pc answer = { listings with lookups := lookups }) :
    Quiet pc answer := by
  constructor <;>
    (intro listings
     obtain ⟨lookups, looked⟩ := looks listings
     rw [looked])

inductive RoundStep : (pc : DownloadPc) → (pc.call remoteHost1).Answer → Position → Prop where
  | stays {pc : DownloadPc} {answer : (pc.call remoteHost1).Answer} (quiet : Quiet pc answer) :
      RoundStep pc answer pc.position
  | leaves {pc : DownloadPc} {answer : (pc.call remoteHost1).Answer} (quiet : Quiet pc answer) :
      RoundStep pc answer .after
  | enters {time : Nat} : RoundStep .initialNow time (.idle ⟨[], time⟩)
  | samples {vars : DownloadVars} {time : Nat} :
      RoundStep (.now vars) time (.listing vars.books time [] none)
  | skips {vars : DownloadVars} {time : Nat} {newFiles : List Bytes} {attributes : Attributes}
      (old : attributes.isNew vars.lastRun = false) :
      RoundStep (.listing vars time (.sftpReaddir newFiles)) (.entry attributes)
        (.listing vars.books time newFiles none)
  | shows {vars : DownloadVars} {time : Nat} {newFiles : List Bytes} {attributes : Attributes}
      (new : attributes.isNew vars.lastRun = true) :
      RoundStep (.listing vars time (.sftpReaddir newFiles)) (.entry attributes)
        (.listing vars.books time newFiles (some attributes))
  /-- `file_exists_in_zip` returns true. -/
  | finds {vars : DownloadVars} {time : Nat} {newFiles : List Bytes} {attributes : Attributes}
      {opened : List Entry} {index : Nat} {answer : Zip.CloseResult} :
      RoundStep (.listing vars time (.fileExists newFiles attributes
        (.zipClose opened (some index)))) answer (.listing vars.books time newFiles none)
  /-- `file_exists_in_zip` returns false. -/
  | misses {vars : DownloadVars} {time : Nat} {newFiles : List Bytes} {attributes : Attributes}
      {pc : FileExistsPc} {answer : (pc.call localZipPath attributes.name).Answer}
      (next : pc.next localZipPath attributes.name answer = .done false)
      (quiet : Quiet (.listing vars time (.fileExists newFiles attributes pc)) answer) :
      RoundStep (.listing vars time (.fileExists newFiles attributes pc)) answer
        (.listing vars.books time (newFiles ++ [attributes.fullPath]) none)
  /-- `check_for_new_files` has found nothing. -/
  | passes {vars : DownloadVars} {time : Nat} {pc : ListPc}
      {answer : (pc.call remote1CollectDir).Answer} (nothing : pc.newFiles = [])
      (looked : pc.looking = none) (quiet : Quiet (.listing vars time pc) answer) :
      RoundStep (.listing vars time pc) answer (.idle vars.books)
  | reports {vars : DownloadVars} {time : Nat} {newFiles : List Bytes} {answer : Bool}
      (found : newFiles ≠ []) :
      RoundStep (.listing vars time (.sftpClosedir newFiles)) answer
        (.loop ⟨insertNew vars.fileHistory newFiles, time⟩ []
          (insertNew vars.fileHistory newFiles))
  | appends {vars : DownloadVars} {file : Bytes} {todo done : List Bytes} :
      RoundStep (.append vars file todo done (.semPost true)) ()
        (.loop vars.books (done ++ [file]) todo)
  /-- The loop is left by a break. -/
  | breaks {pc : DownloadPc} {answer : (pc.call remoteHost1).Answer} {books : Books}
      {file : Bytes} {todo done : List Bytes} (stands : pc.position = .file books file todo done)
      (quiet : Quiet pc answer) : RoundStep pc answer (.loop books done [])

@[simp] theorem loop_position (vars : DownloadVars) (done todo : List Bytes) :
    (DownloadPc.loop vars done todo).position = .loop vars.books done todo := by
  cases todo <;> rfl

theorem mem_insert_new {fileHistory newFiles : List Bytes} {path : Bytes} :
    path ∈ insertNew fileHistory newFiles ↔ path ∈ fileHistory ∨ path ∈ newFiles := by
  unfold insertNew
  induction newFiles generalizing fileHistory with
  | nil => simp
  | cons file newFiles ih =>
      rw [List.foldl_cons, ih]
      split
      · rename_i known
        rw [List.mem_cons]
        constructor
        · rintro (old | new)
          · exact .inl old
          · exact .inr (.inr new)
        · rintro (old | rfl | new)
          · exact .inl old
          · exact .inl known
          · exact .inr new
      · rw [List.mem_append, List.mem_singleton, List.mem_cons, or_assoc]

theorem insert_new_nodup {fileHistory : List Bytes} (nodup : fileHistory.Nodup)
    (newFiles : List Bytes) : (insertNew fileHistory newFiles).Nodup := by
  unfold insertNew
  induction newFiles generalizing fileHistory with
  | nil => exact nodup
  | cons file newFiles ih =>
      rw [List.foldl_cons]
      refine ih ?_
      split
      · exact nodup
      · rename_i unknown
        exact List.Nodup.append nodup (List.nodup_singleton file) (by simpa using unknown)

theorem mem_remove_processed {fileHistory processed : List Bytes} {path : Bytes} :
    path ∈ removeProcessed fileHistory processed ↔ path ∈ fileHistory ∧ path ∉ processed := by
  unfold removeProcessed
  induction processed generalizing fileHistory with
  | nil => simp
  | cons file processed ih =>
      rw [List.foldl_cons, ih]
      simp only [List.mem_filter, decide_eq_true_eq, List.mem_cons, not_or, and_assoc]

theorem remove_processed_nodup {fileHistory : List Bytes} (nodup : fileHistory.Nodup)
    (processed : List Bytes) : (removeProcessed fileHistory processed).Nodup := by
  unfold removeProcessed
  induction processed generalizing fileHistory with
  | nil => exact nodup
  | cons file processed ih => exact ih (nodup.filter _)

theorem insert_new_ne_nil {newFiles : List Bytes} (found : newFiles ≠ [])
    (fileHistory : List Bytes) : insertNew fileHistory newFiles ≠ [] := by
  intro empty
  obtain ⟨file, others, rfl⟩ := List.exists_cons_of_ne_nil found
  have member : file ∈ insertNew fileHistory (file :: others) :=
    mem_insert_new.mpr (.inr List.mem_cons_self)
  rw [empty] at member
  cases member

theorem next_closedir (host : Bytes) (vars : DownloadVars) (time : Nat) (newFiles : List Bytes)
    (closed : ((DownloadPc.listing vars time (.sftpClosedir newFiles)).call host).Answer) :
    (DownloadPc.listing vars time (.sftpClosedir newFiles)).next host closed =
      .goto (if newFiles = [] then .sleep vars
        else .loop { vars with fileHistory := insertNew vars.fileHistory newFiles, lastRun := time }
          [] (insertNew vars.fileHistory newFiles)) := by
  by_cases nothing : newFiles = []
  · subst nothing
    rfl
  · have some' : newFiles.isEmpty = false := by simpa using nothing
    have nonempty := insert_new_ne_nil nothing vars.fileHistory
    simp only [DownloadPc.next, ListPc.next, checkForNewFiles, some', DownloadPc.listed,
      List.isEmpty_iff, nothing, nonempty, Bool.not_false, Bool.not_true, if_false,
      Bool.false_eq_true]

theorem list_round_step {vars : DownloadVars} {time : Nat} {pc : ListPc}
    (answer : ((DownloadPc.listing vars time pc).call remoteHost1).Answer) :
    ((DownloadPc.listing vars time pc).next remoteHost1 answer).Meets
      (fun pc' => RoundStep (.listing vars time pc) answer pc'.position) fun _ => True := by
  cases pc with
  | sftpOpendir =>
      cases answer <;> exact .stays (.of_lookups fun _ => ⟨_, rfl⟩)
  | errorOpendir => exact .passes rfl rfl (.of_lookups fun _ => ⟨_, rfl⟩)
  | sftpReaddir newFiles =>
      cases answer with
      | entry attributes =>
          cases new : attributes.isNew vars.lastRun with
          | true =>
              simp only [DownloadPc.next, ListPc.next, new, if_true, Next.meets_goto]
              exact .shows new
          | false =>
              simp only [DownloadPc.next, ListPc.next, new, Bool.false_eq_true, if_false,
                Next.meets_goto]
              exact .skips new
      | eof | error => exact .stays (.of_lookups fun _ => ⟨_, rfl⟩)
  | fileExists newFiles attributes pc =>
      cases pc with
      | zipOpen =>
          cases answer with
          | none => exact .misses rfl (.of_lookups fun _ => ⟨_, rfl⟩)
          | some opened => exact .stays (.of_lookups fun _ => ⟨_, rfl⟩)
      | zipNameLocate opened =>
          cases answer <;> exact .stays (.of_lookups fun _ => ⟨_, rfl⟩)
      | zipClose opened index =>
          cases index with
          | none => exact .misses rfl (.of_lookups fun _ => ⟨_, rfl⟩)
          | some position => exact .finds
  | sftpAttributesFree newFiles => exact .stays (.of_lookups fun _ => ⟨_, rfl⟩)
  | sftpClosedir newFiles =>
      rw [next_closedir, Next.meets_goto]
      by_cases nothing : newFiles = []
      · subst nothing
        exact .passes rfl rfl (.of_lookups fun _ => ⟨_, rfl⟩)
      · rw [if_neg nothing, loop_position]
        exact .reports nothing

theorem broken {vars : DownloadVars} {pc : DownloadPc} {answer : (pc.call remoteHost1).Answer}
    {file : Bytes} {todo done : List Bytes}
    (stands : pc.position = .file vars.books file todo done) (quiet : Quiet pc answer) :
    RoundStep pc answer (DownloadPc.endLoop vars done).position := .breaks stands quiet

theorem file_round_step {pc : DownloadPc} {books : Books} {file : Bytes} {todo done : List Bytes}
    (stands : pc.position = .file books file todo done) (answer : (pc.call remoteHost1).Answer) :
    (pc.next remoteHost1 answer).Meets
      (fun pc' => RoundStep pc answer pc'.position) fun _ => True := by
  cases pc with
  | fileSize =>
      cases stands
      simp only [DownloadPc.next]
      split
      · exact broken rfl (.of_lookups fun _ => ⟨_, rfl⟩)
      · exact .stays (.of_lookups fun _ => ⟨_, rfl⟩)
  | download =>
      cases stands
      simp only [DownloadPc.next]
      split
      · exact .stays (.of_lookups fun _ => ⟨_, rfl⟩)
      · exact broken rfl (.of_lookups fun _ => ⟨_, rfl⟩)
      · exact .stays (.of_lookups fun _ => ⟨_, rfl⟩)
  | append vars file todo done pc =>
      cases stands
      cases pc with
      | semPost result =>
          cases result with
          | false => exact broken rfl (.of_lookups fun _ => ⟨_, rfl⟩)
          | true =>
              simp only [DownloadPc.next, AppendPc.next, Next.meets_goto, loop_position]
              exact .appends
      | zipOpen | zipSourceBuffer | zipNameLocate | zipClose =>
          cases answer <;> exact .stays (.of_lookups fun _ => ⟨_, rfl⟩)
      | _ => exact .stays (.of_lookups fun _ => ⟨_, rfl⟩)
  | _ => cases stands

theorem round_step (pc : DownloadPc) (answer : (pc.call remoteHost1).Answer) :
    (pc.next remoteHost1 answer).Meets
      (fun pc' => RoundStep pc answer pc'.position) fun _ => True := by
  cases pc with
  | listing vars time pc => exact list_round_step answer
  | fileSize | download | append => exact file_round_step rfl answer
  | session pc | sftp pc =>
      simp only [DownloadPc.next]
      split <;>
        first
          | trivial
          | exact .stays (.of_lookups fun _ => ⟨_, rfl⟩)
          | exact .leaves (.of_lookups fun _ => ⟨_, rfl⟩)
  | initialNow => exact .enters
  | readRunning vars =>
      cases answer
      · exact .leaves (.of_lookups fun _ => ⟨_, rfl⟩)
      · exact .stays (.of_lookups fun _ => ⟨_, rfl⟩)
  | now vars => exact .samples
  | sleep vars => exact .stays (.of_lookups fun _ => ⟨_, rfl⟩)
  | clearRunning | sftpFree | sshDisconnect => exact .leaves (.of_lookups fun _ => ⟨_, rfl⟩)
  | sshFree => trivial

theorem position_invariant {env : Env Call.Answer} {ok : PipelineCondition env}
    {init : PipelineState env → Prop}
    (starts : ∀ state, init state → state.left = some downloadThread.start)
    (Inv : Listings → env.World → Position → Prop)
    (initially : ∀ state, init state → Inv (listings ([] : List (PipelineEvent env)))
      state.world .before)
    (download : ∀ trace pc answer right world world' position,
      PipelineRun env ok init trace ⟨some pc, right, world⟩ →
        ok trace ⟨some pc, right, world⟩ (.left pc answer) →
          env.respond world (pc.call remoteHost1) answer = some world' →
            Inv (listings trace) world pc.position → RoundStep pc answer position →
              Inv ((listings trace).recordDownload pc answer) world' position)
    (upload : ∀ trace pc answer (downloader : DownloadPc) world world',
      PipelineRun env ok init trace ⟨some downloader, some pc, world⟩ →
        env.respond world (pc.call remoteHost2 remote2DestPath) answer = some world' →
          Inv (listings trace) world downloader.position →
            Inv (listings trace) world' downloader.position)
    (move : ∀ trace move (downloader : DownloadPc) right world world',
      PipelineRun env ok init trace ⟨some downloader, right, world⟩ →
        ok trace ⟨some downloader, right, world⟩ (.move move) → env.move world move = some world' →
          Inv (listings trace) world downloader.position →
            Inv (listings trace) world' downloader.position)
    {trace : List (PipelineEvent env)} {state : PipelineState env}
    (run : PipelineRun env ok init trace state) :
    ∀ pc : DownloadPc, state.left = some pc → Inv (listings trace) state.world pc.position := by
  refine run.invariant (fun trace state => ∀ pc : DownloadPc, state.left = some pc →
    Inv (listings trace) state.world pc.position) ?_ ?_
  · intro state initial pc stands
    rw [starts state initial] at stands
    cases stands
    exact initially state initial
  · intro trace state event state' run before met steps
    cases steps with
    | @left pc answer right world world' responds =>
        intro pc' stands
        have steps := (round_step pc answer).resumes stands
        exact download trace pc answer right world world' _ run met responds (before pc rfl) steps
    | @right pc answer left world world' responds =>
        intro downloader stands
        cases stands
        exact upload trace pc answer downloader world world' run responds (before downloader rfl)
    | @move moved left right world world' moves =>
        intro downloader stands
        cases stands
        exact move trace moved downloader right world world' run met moves (before downloader rfl)

end FileTransfer
