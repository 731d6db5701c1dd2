import FileTransfer.Functions.FailingFiles
import FileTransfer.Pipeline.LargeArchive

/-!
# Files left over from an earlier iteration

The loop over `file_history` is entered only in an iteration whose listing has
found something. What an earlier iteration has left waits until then, whatever
the archive has come to in the meantime.
-/

namespace FileTransfer

set_option autoImplicit false

open Interaction

/-- The downloader has not come to the sleep of its iteration before. -/
def Awake : PipelineCondition libraryEnv :=
  fun _ _ event => match event with
    | .left pc _ => pc.asleep = false
    | _ => True

instance (trace : List (PipelineEvent libraryEnv)) (state : PipelineState libraryEnv)
    (event : PipelineEvent libraryEnv) : Decidable (Awake trace state event) :=
  match event with
  | .left pc _ => inferInstanceAs (Decidable (pc.asleep = false))
  | .right _ _ | .move _ => inferInstanceAs (Decidable True)

/-- The downloader at the top of its loop; the archive is absent or within the
threshold. -/
structure AtLoopHead (vars : DownloadVars) (state : PipelineState libraryEnv) : Prop where
  stands : state.left = some (.readRunning vars)
  small : Small state.world

def DownloadPc.unappended : DownloadPc → Bool
  | .session _ | .sftp _ | .initialNow | .readRunning _ | .now _ | .listing _ _ _ => true
  | .fileSize _ _ _ done => done.isEmpty
  | _ => false

/-- Every `download_file` and every `append_to_zip` returns true. -/
def succeeds : Turn downloadThread → Bool
  | ⟨.download vars file _ _ pc, answer⟩ =>
      match pc.next file vars.fileContents answer with
      | .done result => result.1
      | .goto _ => true
  | ⟨.append _ _ _ _ (.semPost stored), _⟩ => stored
  | _ => true

def withinThreshold : Turn downloadThread → Bool
  | ⟨.fileSize _ _ _ _, stat⟩ => getFileSize stat ≤ maxZipSize
  | _ => true

def firstCheckPasses : Turn downloadThread → Bool
  | ⟨.fileSize _ _ _ [], stat⟩ => getFileSize stat ≤ maxZipSize
  | _ => true

/-- An iteration with something to do has tried to do it. -/
def DownloadPc.Tries (log : RoundLog) : DownloadPc → Prop
  | .sleep _ => log.found ≠ [] → log.attempted ≠ []
  | _ => True

section

variable {history : List Bytes} {log : RoundLog}

theorem loop_tries {vars : DownloadVars} {done todo : List Bytes} (tried : log.attempted ≠ []) :
    (DownloadPc.loop vars done todo).Tries log := by
  cases todo with
  | nil => exact fun _ => tried
  | cons file todo => trivial

theorem tries_step {turn : Turn downloadThread} (keeps : turn.pc.Keeps history log)
    (passes : firstCheckPasses turn = true) :
    (turn.pc.next remoteHost1 turn.answer).Meets (fun pc' => pc'.Tries (log.record turn))
      fun _ => True := by
  obtain ⟨pc, answer⟩ := turn
  cases pc with
  | session pc | sftp pc =>
      simp only [DownloadPc.next]
      split <;> trivial
  | readRunning vars => cases answer <;> trivial
  | listing vars time pc =>
      obtain ⟨rfl, rfl⟩ := keeps
      apply listing_meets (motive := fun log (pc' : DownloadPc) => pc'.Tries log)
      · exact fun pc' => trivial
      · exact fun something => absurd rfl something
      · intro newFiles something
        have nonempty := insert_new_ne_nil something vars.fileHistory
        cases queue : insertNew vars.fileHistory newFiles with
        | nil => exact absurd queue nonempty
        | cons file todo => trivial
  | fileSize vars file todo done =>
      obtain ⟨_, attempted, _⟩ := keeps
      simp only [DownloadPc.next]
      split
      · rename_i large
        intro _ untried
        have first : done = [] := attempted.symm.trans untried
        subst first
        have within : getFileSize answer ≤ maxZipSize := of_decide_eq_true passes
        omega
      · trivial
  | download vars file todo done pc =>
      have tried : (log.record ⟨.download vars file todo done pc, answer⟩).attempted ≠ [] := by
        cases pc with
        | sftpOpen => exact List.append_ne_nil_of_right_ne_nil _ (List.cons_ne_nil _ _)
        | sftpRead buffer =>
            obtain ⟨_, attempted, _⟩ := keeps
            have nonempty : log.attempted ≠ [] := by simp [attempted]
            cases answer <;> exact nonempty
        | sftpClose buffer complete =>
            obtain ⟨_, attempted, _⟩ := keeps
            change log.attempted ≠ []
            simp [attempted]
      simp only [DownloadPc.next]
      split
      · trivial
      · exact fun _ => tried
      · trivial
  | append vars file todo done pc =>
      have attempted : log.attempted = done ++ [file] := by cases pc <;> exact keeps.2.1
      have tried : (log.record ⟨.append vars file todo done pc, answer⟩).attempted ≠ [] := by
        have nonempty : log.attempted ≠ [] := by simp [attempted]
        cases pc with
        | semPost result => cases result <;> exact nonempty
        | _ => exact nonempty
      simp only [DownloadPc.next]
      split
      · trivial
      · exact loop_tries tried
      · exact fun _ => tried
  | sshFree | now | initialNow | sleep | clearRunning | sftpFree | sshDisconnect => trivial

theorem walk_tries {start pc : DownloadPc} {turns : List (Turn downloadThread)}
    (starts : start.Keeps history .start) (tries : start.Tries .start)
    (walk : Walk downloadThread start turns pc) (awake : ∀ turn ∈ turns, turn.pc.asleep = false)
    (passes : ∀ turn ∈ turns, firstCheckPasses turn = true) : pc.Tries (roundLog turns) := by
  have books := walk.invariant
    (fun turns (pc : DownloadPc) => pc.Keeps history (roundLog turns) ∧ pc.Tries (roundLog turns))
    ?_ ?_ (fun turn member => And.intro (awake turn member) (passes turn member))
  · exact books.2
  · exact ⟨starts, tries⟩
  · rintro turns turn ⟨keeps, _⟩ ⟨awake, passes⟩
    have keeps' := keeps_step keeps awake
    have tries' := tries_step keeps passes
    cases next : downloadThread.next turn.pc turn.answer with
    | goto pc' => exact ⟨keeps'.goes next, tries'.goes next⟩
    | done result => trivial

theorem threshold_step {turn : Turn downloadThread} (keeps : turn.pc.Keeps history log) :
    (turn.pc.next remoteHost1 turn.answer).Meets
      (fun pc' => withinThreshold turn = true ∨
        pc'.asleep = true ∧ ∃ file todo, insertNew history (log.record turn).found =
          (log.record turn).stored ++ file :: todo)
      fun _ => True := by
  obtain ⟨pc, answer⟩ := turn
  by_cases checks : ∃ vars file todo done, pc = .fileSize vars file todo done
  · obtain ⟨vars, file, todo, done, rfl⟩ := checks
    obtain ⟨processing, _, _⟩ := keeps
    simp only [DownloadPc.next]
    split
    · refine .inr ⟨rfl, file, todo, ?_⟩
      change insertNew history log.found = log.stored ++ file :: todo
      rw [processing.queue, processing.processed]
    · rename_i within
      exact .inl (decide_eq_true (Nat.not_lt.mp within))
  · have passes : withinThreshold ⟨pc, answer⟩ = true := by
      cases pc with
      | fileSize vars file todo done => exact absurd ⟨vars, file, todo, done, rfl⟩ checks
      | _ => rfl
    cases next : pc.next remoteHost1 answer with
    | goto pc' => exact .inl passes
    | done result => trivial

theorem walk_threshold {start : DownloadPc} {vars : DownloadVars}
    {turns : List (Turn downloadThread)} (starts : start.Keeps history .start)
    (walk : Walk downloadThread start turns (.sleep vars))
    (awake : ∀ turn ∈ turns, turn.pc.asleep = false) :
    (∀ turn ∈ turns, withinThreshold turn = true) ∨
      ∃ file todo, insertNew history (roundLog turns).found =
        (roundLog turns).stored ++ file :: todo := by
  have books := walk.invariant
    (fun turns (pc : DownloadPc) => pc.Keeps history (roundLog turns) ∧
      ((∀ turn ∈ turns, withinThreshold turn = true) ∨
        pc.asleep = true ∧ ∃ file todo, insertNew history (roundLog turns).found =
          (roundLog turns).stored ++ file :: todo)) ?_ ?_ awake
  · exact books.2.imp_right (·.2)
  · exact ⟨starts, .inl nofun⟩
  · rintro turns turn ⟨keeps, before⟩ awake
    have earlier := before.resolve_right fun asleep => by simp [asleep.1] at awake
    have keeps' := keeps_step keeps awake
    have checked := threshold_step keeps
    cases next : downloadThread.next turn.pc turn.answer with
    | goto pc' =>
        refine ⟨keeps'.goes next, ?_⟩
        rcases checked.goes next with passes | cutShort
        · exact .inl (List.forall_mem_cons.mpr ⟨passes, earlier⟩)
        · exact .inr cutShort
    | done result => trivial

end

theorem unappended_next {pc : DownloadPc} (answer : (pc.call remoteHost1).Answer)
    (awake : pc.asleep = false) :
    (pc.next remoteHost1 answer).Meets
      (fun pc' => pc'.unappended = true → pc.unappended = true) fun _ => True := by
  cases pc with
  | session pc | sftp pc | listing vars time pc =>
      simp only [DownloadPc.next]
      split <;> first | trivial | exact fun _ => rfl
  | initialNow | now vars => exact fun _ => rfl
  | readRunning vars => cases answer <;> exact fun _ => rfl
  | fileSize vars file todo done =>
      simp only [DownloadPc.next]
      split <;> exact fun unappended => by cases unappended
  | download vars file todo done pc =>
      simp only [DownloadPc.next]
      split <;> exact fun unappended => by cases unappended
  | append vars file todo done pc =>
      simp only [DownloadPc.next]
      split
      · exact fun unappended => by cases unappended
      · cases todo with
        | nil => exact fun unappended => by cases unappended
        | cons file' todo =>
            intro unappended
            change (done ++ [file]).isEmpty = true at unappended
            simp at unappended
      · exact fun unappended => by cases unappended
  | sleep vars => cases awake
  | clearRunning | sftpFree | sshDisconnect => exact fun unappended => by cases unappended
  | sshFree => trivial

theorem unappended_quiet {world world' : World} {pc : DownloadPc}
    {answer : (pc.call remoteHost1).Answer} (unappended : pc.unappended = true)
    (responds : world.respond (pc.call remoteHost1) answer = some world') :
    world'.localZip = world.localZip := by
  cases download_effect responds with
  | opens found => cases unappended
  | commit closes => cases unappended
  | quiet records same remoteFile opened => exact same

/-- The archive found within the threshold at the top of the loop is so still at
the first size check: the uploader at most removes it. -/
theorem first_check_passes {vars : DownloadVars} {trace : List (PipelineEvent libraryEnv)}
    {state : PipelineState libraryEnv}
    (run : PipelineRun libraryEnv Awake (AtLoopHead vars) trace state) :
    (∀ pc, state.left = some pc → pc.unappended = true → Small state.world) ∧
      ∀ turn ∈ leftTurns trace, firstCheckPasses turn = true ∧ turn.pc.asleep = false := by
  apply run.invariant (fun trace state =>
    (∀ pc : DownloadPc, state.left = some pc → pc.unappended = true → Small state.world) ∧
      ∀ turn ∈ leftTurns trace, firstCheckPasses turn = true ∧ turn.pc.asleep = false)
  · intro state atHead
    exact ⟨fun _ _ _ => atHead.small, nofun⟩
  · rintro trace state event state' _ ⟨small, passes⟩ awake steps
    cases steps with
    | @left pc answer right world world' responds =>
        have waking : pc.asleep = false := awake
        refine ⟨?_, List.forall_mem_cons.mpr ⟨⟨?_, waking⟩, passes⟩⟩
        · intro pc' stands unappended'
          have unappended := (unappended_next answer waking).resumes stands unappended'
          exact small_of_same (small pc rfl unappended) (unappended_quiet unappended responds)
        · cases pc with
          | fileSize vars file todo done =>
              cases done with
              | cons path done => rfl
              | nil =>
                  have checked := (World.respond_stat localZipPath responds).2
                  exact decide_eq_true (checked.mpr (small _ rfl rfl))
          | _ => rfl
    | @right pc answer left world world' responds =>
        refine ⟨?_, passes⟩
        intro pc' stands unappended
        rcases upload_local_zip responds with same | ⟨_, gone⟩
        · exact small_of_same (small pc' stands unappended) same
        · intro file present
          exact absurd (gone.symm.trans present) (by simp)
    | @move move left right world world' moves =>
        cases move
        cases moves
        exact ⟨small, passes⟩

/-- The downloader goes from the top of its loop to its sleep. -/
structure Iteration (vars : DownloadVars) (turns : List (Turn downloadThread))
    (vars' : DownloadVars) : Prop where
  walk : Walk downloadThread (.readRunning vars) turns (.sleep vars')
  awake : ∀ turn ∈ turns, turn.pc.asleep = false

section

variable {vars vars' : DownloadVars} {first : Bytes} {rest : List Bytes}
  {turns : List (Turn downloadThread)} {trace : List (PipelineEvent libraryEnv)}
  {right : Option UploadPc} {world : World}

theorem Iteration.of_run
    (run : PipelineRun libraryEnv Awake (AtLoopHead vars) trace
      ⟨some (.sleep vars'), right, world⟩) :
    Iteration vars (leftTurns trace) vars' where
  walk := run.walk (fun _ atHead => atHead.stands) _ rfl
  awake := fun turn member => ((first_check_passes run).2 turn member).2

theorem Iteration.ends (iteration : Iteration vars turns vars') :
    RoundEnds vars.fileHistory (roundLog turns) vars' :=
  walk_keeps (keeps_read_running vars) iteration.walk iteration.awake

theorem insert_new_pending (pending : vars.fileHistory = first :: rest) (newFiles : List Bytes) :
    ∃ behind, insertNew vars.fileHistory newFiles = first :: behind := by
  rw [insert_new_eq, pending]
  exact ⟨_, rfl⟩

theorem Iteration.first_attempted_iff (iteration : Iteration vars turns vars')
    (pending : vars.fileHistory = first :: rest)
    (passes : ∀ turn ∈ turns, firstCheckPasses turn = true) :
    first ∈ (roundLog turns).attempted ↔ (roundLog turns).found ≠ [] := by
  constructor
  · intro attempted nothing
    rw [iteration.ends.idle nothing] at attempted
    cases attempted
  · intro something
    have tried := walk_tries (keeps_read_running vars) trivial iteration.walk iteration.awake passes
      something
    obtain ⟨behind, queue⟩ := insert_new_pending pending (roundLog turns).found
    obtain ⟨after, split⟩ := iteration.ends.attempted
    rw [queue] at split
    cases attempted : (roundLog turns).attempted with
    | nil => exact absurd attempted tried
    | cons path paths =>
        rw [attempted] at split
        cases split
        exact List.mem_cons_self

theorem planned_of_succeeds {turn : Turn downloadThread} (succeeded : succeeds turn = true)
    (within : withinThreshold turn = true) : asPlanned (fun _ => false) turn = true := by
  obtain ⟨pc, answer⟩ := turn
  cases pc with
  | fileSize vars file todo done => exact within
  | download vars file todo done pc =>
      simp only [succeeds] at succeeded
      simp only [asPlanned]
      split
      · rename_i result ends
        rw [ends] at succeeded
        simpa using succeeded
      · rfl
  | append vars file todo done pc => cases pc <;> exact succeeded
  | _ => rfl

theorem Iteration.drains (iteration : Iteration vars turns vars')
    (something : (roundLog turns).found ≠ [])
    (succeeded : ∀ turn ∈ turns, succeeds turn = true)
    (within : ∀ turn ∈ turns, withinThreshold turn = true) : vars'.fileHistory = [] := by
  have stored := walk_on_plan (keeps_read_running vars) trivial iteration.walk iteration.awake
    (fun turn member => planned_of_succeeds (succeeded turn member) (within turn member)) something
  have whole : (roundLog turns).stored = insertNew vars.fileHistory (roundLog turns).found := by
    rw [stored]
    exact List.takeWhile_eq_self_iff.mpr fun _ _ => rfl
  rw [iteration.ends.pending, remove_processed_eq, whole]
  simp

theorem Iteration.within_of_drained (iteration : Iteration vars turns vars')
    (nodup : vars.fileHistory.Nodup) (drained : vars'.fileHistory = []) :
    ∀ turn ∈ turns, withinThreshold turn = true := by
  rcases walk_threshold (keeps_read_running vars) iteration.walk iteration.awake with
    within | ⟨file, todo, queue⟩
  · exact within
  · have nodup' := insert_new_nodup nodup (roundLog turns).found
    rw [queue] at nodup'
    have left := iteration.ends.pending
    rw [queue, remove_processed_prefix nodup', drained] at left
    cases left

/-- An iteration that begins with something pending and an archive that is absent
or within the threshold attempts the first pending path, and leaves nothing
pending if everything succeeds, just if `check_for_new_files` reports
something. An archive that grows over the threshold meanwhile cuts it short as
well. -/
theorem pending_retried_iff (pending : vars.fileHistory = first :: rest)
    (run : PipelineRun libraryEnv Awake (AtLoopHead vars) trace
      ⟨some (.sleep vars'), right, world⟩) :
    ((first ∈ (roundLog (leftTurns trace)).attempted ∧
        ((∀ turn ∈ leftTurns trace, succeeds turn = true ∧ withinThreshold turn = true) →
          vars'.fileHistory = [])) ↔
      (roundLog (leftTurns trace)).found ≠ []) ∧
    (vars.fileHistory.Nodup →
      ((first ∈ (roundLog (leftTurns trace)).attempted ∧
          ((∀ turn ∈ leftTurns trace, succeeds turn = true) → vars'.fileHistory = [])) ↔
        (roundLog (leftTurns trace)).found ≠ [] ∧
          ((∀ turn ∈ leftTurns trace, succeeds turn = true) →
            ∀ turn ∈ leftTurns trace, withinThreshold turn = true))) := by
  have iteration := Iteration.of_run run
  have attempted := iteration.first_attempted_iff pending
    fun turn member => ((first_check_passes run).2 turn member).1
  constructor
  · constructor
    · intro retried
      exact attempted.mp retried.1
    · intro something
      refine ⟨attempted.mpr something, fun fine => ?_⟩
      exact iteration.drains something (fun turn member => (fine turn member).1)
        fun turn member => (fine turn member).2
  · intro nodup
    constructor
    · rintro ⟨tried, drains⟩
      refine ⟨attempted.mp tried, fun succeeded => ?_⟩
      exact iteration.within_of_drained nodup (drains succeeded)
    · rintro ⟨something, within⟩
      refine ⟨attempted.mpr something, fun succeeded => ?_⟩
      exact iteration.drains something succeeded (within succeeded)

end

/-- The downloader at the top of its loop with one path left over; the uploader
has returned. -/
def leftOver : PipelineState libraryEnv :=
  ⟨some (.readRunning ⟨[collected "a"], ([], []), 0⟩), none, ⟨1, true, none, none, []⟩⟩

theorem left_over_at_head : AtLoopHead ⟨[collected "a"], ([], []), 0⟩ leftOver :=
  ⟨rfl, nofun⟩

/-- The listing finds a second path, and both are stored. -/
theorem pending_retried_iff_one_more :
    ∃ trace right world, PipelineRun libraryEnv Awake (AtLoopHead ⟨[collected "a"], ([], []), 0⟩)
        trace ⟨some (.sleep ⟨[], (ascii "b", ascii "new"), 8⟩), right, world⟩ ∧
      collected "a" ∈ (roundLog (leftTurns trace)).attempted := by
  have found : ∃ trace state, PipelineRun libraryEnv Awake
      (AtLoopHead ⟨[collected "a"], ([], []), 0⟩) trace state ∧
      (decide (state.left = some (.sleep ⟨[], (ascii "b", ascii "new"), 8⟩)) &&
        decide ((roundLog (leftTurns trace)).found = [collected "b"])) = true :=
    exists_run_of_play (fun trace state event => decide (Awake trace state event))
      (downloadSmoothly plainLayout 1 ++ [tellsTime 8] ++ downloadSmoothly plainLayout 1 ++
        [lists (ascii "b") 7] ++ downloadSmoothly plainLayout 6 ++ [serves (ascii "old")] ++
        downloadSmoothly plainLayout 2 ++ appends plainLayout ++ downloadSmoothly plainLayout 2 ++
        [serves (ascii "new")] ++ downloadSmoothly plainLayout 2 ++ appends plainLayout)
      leftOver _ (fun _ _ _ => of_decide_eq_true) left_over_at_head (by decide +kernel)
  obtain ⟨trace, state, run, outcome⟩ := found
  obtain ⟨stands, something⟩ := Bool.and_eq_true_iff.mp outcome
  obtain ⟨left, right, world⟩ := state
  cases of_decide_eq_true stands
  refine ⟨trace, right, world, run, ?_⟩
  have retried := (pending_retried_iff rfl run).1.mpr
  exact (retried (by simp [of_decide_eq_true something])).1

/-- The directory stays empty: the path left over waits for another iteration. -/
theorem quiet_listing_retries_nothing :
    ¬ ∀ (vars vars' : DownloadVars) first rest trace right world,
      vars.fileHistory = first :: rest →
      PipelineRun libraryEnv Awake (AtLoopHead vars) trace
        ⟨some (.sleep vars'), right, world⟩ →
      first ∈ (roundLog (leftTurns trace)).attempted ∧
        ((∀ turn ∈ leftTurns trace, succeeds turn = true ∧ withinThreshold turn = true) →
          vars'.fileHistory = []) := by
  intro retries
  have found : ∃ trace state, PipelineRun libraryEnv Awake
      (AtLoopHead ⟨[collected "a"], ([], []), 0⟩) trace state ∧
      (decide (state.left = some (.sleep ⟨[collected "a"], ([], []), 0⟩)) &&
        decide ((roundLog (leftTurns trace)).attempted = [])) = true :=
    exists_run_of_play (fun trace state event => decide (Awake trace state event))
      (downloadSmoothly plainLayout 5) leftOver _ (fun _ _ _ => of_decide_eq_true) left_over_at_head
      (by decide +kernel)
  obtain ⟨trace, state, run, outcome⟩ := found
  obtain ⟨stands, nothing⟩ := Bool.and_eq_true_iff.mp outcome
  obtain ⟨left, right, world⟩ := state
  cases of_decide_eq_true stands
  have tried := (retries ⟨[collected "a"], ([], []), 0⟩ _ (collected "a") [] _ _ _ rfl run).1
  rw [of_decide_eq_true nothing] at tried
  cases tried

end FileTransfer
