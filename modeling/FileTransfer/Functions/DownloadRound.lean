import FileTransfer.Interaction.Execution
import FileTransfer.Pipeline.Rounds
import FileTransfer.Pipeline.Smooth

/-!
# The bookkeeping of a download round

What one iteration of `download_routine` makes of `file_history`, from the
listing it is given to its sleep, whatever the size checks, `download_file` and
`append_to_zip` come to and whatever the uploader does meanwhile.
-/

namespace FileTransfer

set_option autoImplicit false

open Interaction

theorem insert_new_eq (fileHistory newFiles : List Bytes) :
    insertNew fileHistory newFiles =
      fileHistory ++ (newFiles.filter (· ∉ fileHistory)).eraseDups := by
  induction newFiles generalizing fileHistory with
  | nil => simp [insertNew]
  | cons file newFiles ih =>
      by_cases known : file ∈ fileHistory
      · rw [insertNew, List.foldl_cons, if_pos known,
          List.filter_cons_of_neg (by simpa using known)]
        exact ih fileHistory
      · rw [insertNew, List.foldl_cons, if_neg known,
          List.filter_cons_of_pos (by simpa using known), List.eraseDups_cons, List.filter_filter]
        have rest := ih (fileHistory ++ [file])
        rw [insertNew] at rest
        rw [rest, List.append_assoc, List.singleton_append]
        congr 4
        funext path
        simp [Bool.and_comm, Bool.beq_eq_decide_eq]

theorem remove_processed_eq (fileHistory processed : List Bytes) :
    removeProcessed fileHistory processed = fileHistory.filter (· ∉ processed) := by
  induction processed generalizing fileHistory with
  | nil => simp [removeProcessed]
  | cons file processed ih =>
      have rest := ih (fileHistory.filter (· ≠ file))
      rw [removeProcessed] at rest
      rw [removeProcessed, List.foldl_cons, rest, List.filter_filter]
      congr 1
      funext path
      simp [Bool.and_comm]

theorem remove_processed_prefix {done todo : List Bytes} (nodup : (done ++ todo).Nodup) :
    removeProcessed (done ++ todo) done = todo := by
  have apart := (List.nodup_append.mp nodup).2.2
  rw [remove_processed_eq, List.filter_append]
  have gone : done.filter (· ∉ done) = [] := by simp
  have kept : todo.filter (· ∉ done) = todo := by
    apply List.filter_eq_self.mpr
    intro path pending
    simpa using fun processed => apart path processed path pending rfl
  rw [gone, kept, List.nil_append]

/-- One call of `append_to_zip`: the path it is made for, the name and content
passed, and the file last opened on the first host with what has been read from
it. -/
structure AppendCall where
  path : Bytes
  arguments : FileContents
  source : Bytes
  read : Bytes
  deriving DecidableEq

/-- `found` is what `check_for_new_files` has returned, `attempted` the paths
whose download has begun, `stored` those for which `append_to_zip` has returned
true; the lists are in the order of the calls. -/
structure RoundLog where
  found : List Bytes
  attempted : List Bytes
  source : Bytes
  read : Bytes
  calls : List AppendCall
  stored : List Bytes

def RoundLog.start : RoundLog := ⟨[], [], [], [], [], []⟩

def RoundLog.record (log : RoundLog) : Turn downloadThread → RoundLog
  | ⟨.listing _ _ (.sftpClosedir newFiles), _⟩ => { log with found := newFiles }
  | ⟨.download _ file _ _ .sftpOpen, _⟩ =>
      { log with attempted := log.attempted ++ [file], source := file, read := [] }
  | ⟨.download _ _ _ _ (.sftpRead _), .data chunk⟩ => { log with read := log.read ++ chunk.val }
  | ⟨.append vars file _ _ .semWait, _⟩ =>
      { log with calls := log.calls ++ [⟨file, vars.fileContents, log.source, log.read⟩] }
  | ⟨.append _ file _ _ (.semPost true), _⟩ => { log with stored := log.stored ++ [file] }
  | _ => log

def roundLog (turns : List (Turn downloadThread)) : RoundLog :=
  turns.foldr (fun turn log => log.record turn) .start

/-- The name and content passed are the base name of the path and what has been
read from that path. -/
def AppendCall.Honest (call : AppendCall) : Prop :=
  call.source = call.path ∧ call.arguments = (baseName call.path, call.read)

structure Called (calls : List AppendCall) (paths : List Bytes) : Prop where
  paths : calls.map (·.path) = paths
  honest : ∀ call ∈ calls, call.Honest

/-- In the loop over `file_history`: `done` has been processed, `todo` has not. -/
structure Processing (history found stored : List Bytes) (vars : DownloadVars)
    (done todo : List Bytes) : Prop where
  something : found ≠ []
  pending : vars.fileHistory = insertNew history found
  queue : insertNew history found = done ++ todo
  processed : stored = done

/-- What an iteration comes to that has started with `history`. -/
structure RoundEnds (history : List Bytes) (log : RoundLog) (vars : DownloadVars) : Prop where
  pending : vars.fileHistory = removeProcessed (insertNew history log.found) log.stored
  stored : log.stored <+: insertNew history log.found
  attempted : log.attempted <+: insertNew history log.found
  idle : log.found = [] → log.attempted = []
  called : ∃ paths, paths <+: insertNew history log.found ∧ Called log.calls paths

def DownloadPc.Keeps (history : List Bytes) (log : RoundLog) : DownloadPc → Prop
  | .readRunning vars | .now vars | .listing vars _ _ =>
      vars.fileHistory = history ∧ log = .start
  | .fileSize vars file todo done | .download vars file todo done .sftpOpen =>
      Processing history log.found log.stored vars done (file :: todo) ∧
        log.attempted = done ∧ Called log.calls done
  | .download vars file todo done (.sftpRead buffer)
  | .download vars file todo done (.sftpClose buffer _) =>
      Processing history log.found log.stored vars done (file :: todo) ∧
        log.attempted = done ++ [file] ∧ Called log.calls done ∧
          log.source = file ∧ log.read = buffer
  | .append vars file todo done .semWait =>
      Processing history log.found log.stored vars done (file :: todo) ∧
        log.attempted = done ++ [file] ∧ Called log.calls done ∧
          log.source = file ∧ vars.fileContents = (baseName file, log.read)
  | .append vars file todo done _ =>
      Processing history log.found log.stored vars done (file :: todo) ∧
        log.attempted = done ++ [file] ∧ Called log.calls (done ++ [file])
  | .sleep vars => RoundEnds history log vars
  | .clearRunning | .sftpFree | .sshDisconnect | .sshFree => True
  | .session _ | .sftp _ | .initialNow => False

theorem keeps_listing (vars : DownloadVars) (time : Nat) (pc : ListPc) :
    (DownloadPc.listing vars time pc).Keeps vars.fileHistory .start := ⟨rfl, rfl⟩

theorem keeps_read_running (vars : DownloadVars) :
    (DownloadPc.readRunning vars).Keeps vars.fileHistory .start := ⟨rfl, rfl⟩

def DownloadPc.asleep : DownloadPc → Bool
  | .sleep _ => true
  | _ => false

section

variable {history : List Bytes} {log : RoundLog} {vars : DownloadVars} {done todo : List Bytes}

theorem Processing.ends {paths : List Bytes}
    (processing : Processing history log.found log.stored vars done todo)
    (attempted : log.attempted <+: done ++ todo) (called : Called log.calls paths)
    (among : paths <+: done ++ todo) : (DownloadPc.endLoop vars done).Keeps history log := by
  obtain ⟨something, same, queue, rfl⟩ := processing
  refine ⟨?_, ?_, ?_, ?_, paths, ?_, called⟩
  · rw [← same]
  · rw [queue]
    exact List.prefix_append _ _
  · rw [queue]
    exact attempted
  · exact fun nothing => absurd nothing something
  · rw [queue]
    exact among

theorem Processing.loop (processing : Processing history log.found log.stored vars done todo)
    (attempted : log.attempted = done) (called : Called log.calls done) :
    (DownloadPc.loop vars done todo).Keeps history log := by
  cases todo with
  | nil =>
      refine processing.ends ?_ called ?_
      · rw [attempted]
        exact List.prefix_append _ _
      · exact List.prefix_append _ _
  | cons file todo => exact ⟨processing, attempted, called⟩

theorem Processing.next {found stored : List Bytes} {file : Bytes}
    (processing : Processing history found stored vars done (file :: todo)) :
    Processing history found (stored ++ [file]) vars (done ++ [file]) todo := by
  obtain ⟨something, pending, queue, rfl⟩ := processing
  refine ⟨something, pending, ?_, rfl⟩
  rw [queue, ← List.append_cons]

theorem prefix_at_hand (done : List Bytes) (file : Bytes) (todo : List Bytes) :
    done ++ [file] <+: done ++ file :: todo := by
  rw [List.append_cons done file todo]
  exact List.prefix_append _ _

theorem idle_ends (vars : DownloadVars) : RoundEnds vars.fileHistory .start vars where
  pending := rfl
  stored := List.nil_prefix
  attempted := List.nil_prefix
  idle := fun _ => rfl
  called := ⟨[], List.nil_prefix, rfl, nofun⟩

theorem listing_goes (log : RoundLog) (vars : DownloadVars) (time : Nat) {pc : ListPc}
    (answer : ((DownloadPc.listing vars time pc).call remoteHost1).Answer)
    (unfinished : ∀ newFiles, pc ≠ .sftpClosedir newFiles) :
    log.record ⟨.listing vars time pc, answer⟩ = log ∧
      ((DownloadPc.listing vars time pc).next remoteHost1 answer).Meets
        (fun pc' => (∃ pc'', pc' = .listing vars time pc'') ∨ pc' = .sleep vars) fun _ => True := by
  cases pc with
  | sftpClosedir newFiles => exact absurd rfl (unfinished newFiles)
  | errorOpendir => exact ⟨rfl, .inr rfl⟩
  | sftpOpendir => cases answer <;> exact ⟨rfl, .inl ⟨_, rfl⟩⟩
  | sftpReaddir newFiles =>
      refine ⟨rfl, ?_⟩
      cases answer with
      | entry attributes =>
          simp only [DownloadPc.next, ListPc.next]
          split <;> rename_i next <;> split at next <;> cases next <;> exact .inl ⟨_, rfl⟩
      | eof | error => exact .inl ⟨_, rfl⟩
  | fileExists newFiles attributes pc =>
      cases pc with
      | zipOpen | zipNameLocate => cases answer <;> exact ⟨rfl, .inl ⟨_, rfl⟩⟩
      | zipClose opened index => cases index <;> exact ⟨rfl, .inl ⟨_, rfl⟩⟩
  | sftpAttributesFree newFiles => exact ⟨rfl, .inl ⟨_, rfl⟩⟩

theorem listing_meets {motive : RoundLog → DownloadPc → Prop} (vars : DownloadVars) (time : Nat)
    (pc : ListPc) (answer : ((DownloadPc.listing vars time pc).call remoteHost1).Answer)
    (goes : ∀ pc', motive .start (.listing vars time pc')) (idle : motive .start (.sleep vars))
    (finds : ∀ newFiles, newFiles ≠ [] → motive { RoundLog.start with found := newFiles }
      (.loop { vars with fileHistory := insertNew vars.fileHistory newFiles, lastRun := time } []
        (insertNew vars.fileHistory newFiles))) :
    ((DownloadPc.listing vars time pc).next remoteHost1 answer).Meets
      (motive (RoundLog.start.record ⟨.listing vars time pc, answer⟩)) fun _ => True := by
  by_cases ends : ∃ newFiles, pc = .sftpClosedir newFiles
  · obtain ⟨newFiles, rfl⟩ := ends
    rw [next_closedir, Next.meets_goto]
    by_cases nothing : newFiles = []
    · subst nothing
      exact idle
    · rw [if_neg nothing]
      exact finds newFiles nothing
  · obtain ⟨same, next⟩ := listing_goes .start vars time answer (not_exists.mp ends)
    rw [same]
    apply next.imp
    · rintro pc' (⟨pc'', rfl⟩ | rfl)
      · exact goes pc''
      · exact idle
    · exact fun _ _ => trivial

theorem append_keeps_step {file : Bytes} {pc : AppendPc}
    {answer : ((DownloadPc.append vars file todo done pc).call remoteHost1).Answer}
    (keeps : (DownloadPc.append vars file todo done pc).Keeps history log) :
    ((DownloadPc.append vars file todo done pc).next remoteHost1 answer).Meets
      (fun pc' => pc'.Keeps history (log.record ⟨.append vars file todo done pc, answer⟩))
      fun _ => True := by
  cases pc with
  | semWait =>
      obtain ⟨processing, attempted, ⟨paths, honest⟩, source, contents⟩ := keeps
      refine ⟨processing, attempted, ?_, ?_⟩
      · change (log.calls ++ [_]).map _ = _
        rw [List.map_append, paths]
        rfl
      · intro call member
        rcases List.mem_append.mp member with earlier | this
        · exact honest call earlier
        · rw [List.mem_singleton.mp this]
          exact ⟨source, contents⟩
  | zipOpen | zipSourceBuffer | zipNameLocate | zipClose => cases answer <;> exact keeps
  | semPost result =>
      obtain ⟨processing, attempted, called⟩ := keeps
      cases result with
      | false =>
          change (DownloadPc.endLoop vars done).Keeps history _
          refine processing.ends ?_ called (prefix_at_hand _ _ _)
          rw [attempted]
          exact prefix_at_hand _ _ _
      | true => exact Processing.loop processing.next attempted called
  | _ => exact keeps

theorem keeps_step {turn : Turn downloadThread} (keeps : turn.pc.Keeps history log)
    (awake : turn.pc.asleep = false) :
    (turn.pc.next remoteHost1 turn.answer).Meets
      (fun pc' => pc'.Keeps history (log.record turn)) fun _ => True := by
  obtain ⟨pc, answer⟩ := turn
  cases pc with
  | session pc | sftp pc | initialNow => exact keeps.elim
  | readRunning vars =>
      cases answer with
      | true => exact keeps
      | false => trivial
  | now vars => exact keeps
  | listing vars time pc =>
      obtain ⟨rfl, rfl⟩ := keeps
      apply listing_meets (motive := fun log pc' => pc'.Keeps vars.fileHistory log)
      · exact fun pc' => ⟨rfl, rfl⟩
      · exact idle_ends vars
      · intro newFiles something
        exact Processing.loop ⟨something, rfl, rfl, rfl⟩ rfl ⟨rfl, nofun⟩
  | fileSize vars file todo done =>
      obtain ⟨processing, attempted, called⟩ := keeps
      simp only [DownloadPc.next]
      split
      · refine processing.ends ?_ called (List.prefix_append _ _)
        rw [attempted]
        exact List.prefix_append _ _
      · exact ⟨processing, attempted, called⟩
  | download vars file todo done pc =>
      cases pc with
      | sftpOpen =>
          obtain ⟨processing, attempted, called⟩ := keeps
          cases answer with
          | false =>
              have tried : (log.record ⟨.download vars file todo done .sftpOpen, false⟩).attempted
                  <+: done ++ file :: todo := by
                change log.attempted ++ [file] <+: _
                rw [attempted]
                exact prefix_at_hand _ _ _
              exact Processing.ends processing tried called (List.prefix_append _ _)
          | true => exact ⟨processing, congrArg (· ++ [file]) attempted, called, rfl, rfl⟩
      | sftpRead buffer =>
          obtain ⟨processing, attempted, called, source, rfl⟩ := keeps
          cases answer with
          | data chunk => exact ⟨processing, attempted, called, source, rfl⟩
          | eof => exact ⟨processing, attempted, called, source, rfl⟩
          | error => exact ⟨processing, attempted, called, source, rfl⟩
      | sftpClose buffer complete =>
          obtain ⟨processing, attempted, called, source, rfl⟩ := keeps
          cases complete with
          | false =>
              change (DownloadPc.endLoop vars done).Keeps history _
              refine processing.ends ?_ called (List.prefix_append _ _)
              rw [attempted]
              exact prefix_at_hand _ _ _
          | true =>
              obtain ⟨something, pending, queue, processed⟩ := processing
              exact ⟨⟨something, pending, queue, processed⟩, attempted, called, source, rfl⟩
  | append vars file todo done pc => exact append_keeps_step keeps
  | sleep vars => cases awake
  | clearRunning | sftpFree | sshDisconnect | sshFree => trivial

end

theorem walk_keeps {history : List Bytes} {start pc : DownloadPc}
    {turns : List (Turn downloadThread)} (starts : start.Keeps history .start)
    (walk : Walk downloadThread start turns pc) (awake : ∀ turn ∈ turns, turn.pc.asleep = false) :
    pc.Keeps history (roundLog turns) := by
  apply walk.invariant (fun turns (pc : DownloadPc) => pc.Keeps history (roundLog turns))
  · exact starts
  · intro turns turn keeps awake
    exact keeps_step keeps awake
  · exact awake

/-- A round: the downloader goes from the end of a listing to its sleep. -/
structure Round (vars : DownloadVars) (time : Nat) (newFiles : List Bytes)
    (turns : List (Turn downloadThread)) (vars' : DownloadVars) : Prop where
  walk : Walk downloadThread (.listing vars time (.sftpClosedir newFiles)) turns (.sleep vars')
  awake : ∀ turn ∈ turns, turn.pc.asleep = false

theorem Round.of_run {env : Env Call.Answer} {ok : PipelineCondition env}
    {init : PipelineState env → Prop} {vars vars' : DownloadVars} {time : Nat}
    {newFiles : List Bytes} {trace : List (PipelineEvent env)} {state : PipelineState env}
    (starts : ∀ state, init state → state.left = some (.listing vars time (.sftpClosedir newFiles)))
    (run : PipelineRun env ok init trace state) (ends : state.left = some (.sleep vars'))
    (awake : ∀ turn ∈ leftTurns trace, turn.pc.asleep = false) :
    Round vars time newFiles (leftTurns trace) vars' :=
  ⟨run.walk starts _ ends, awake⟩

def DownloadPc.pastListing : DownloadPc → Bool
  | .fileSize _ _ _ _ | .download _ _ _ _ _ | .append _ _ _ _ _ | .sleep _ => true
  | _ => false

theorem record_download (log : RoundLog) (vars : DownloadVars) (file : Bytes)
    (todo done : List Bytes) (pc : DownloadFilePc) (answer : (pc.call file).Answer) :
    (log.record ⟨.download vars file todo done pc, answer⟩).found = log.found ∧
      (log.record ⟨.download vars file todo done pc, answer⟩).stored = log.stored := by
  cases pc with
  | sftpRead buffer => cases answer <;> exact ⟨rfl, rfl⟩
  | _ => exact ⟨rfl, rfl⟩

theorem past_listing_step (log : RoundLog) {turn : Turn downloadThread}
    (past : turn.pc.pastListing = true) (awake : turn.pc.asleep = false) :
    (turn.pc.next remoteHost1 turn.answer).Meets
      (fun pc' => pc'.pastListing = true ∧ (log.record turn).found = log.found) fun _ => True := by
  obtain ⟨pc, answer⟩ := turn
  cases pc with
  | fileSize vars file todo done =>
      simp only [DownloadPc.next]
      split <;> exact ⟨rfl, rfl⟩
  | download vars file todo done pc =>
      have same := (record_download log vars file todo done pc answer).1
      simp only [DownloadPc.next]
      split <;> exact ⟨rfl, same⟩
  | append vars file todo done pc =>
      have same : (log.record ⟨.append vars file todo done pc, answer⟩).found = log.found := by
        cases pc with
        | semPost result => cases result <;> rfl
        | _ => rfl
      simp only [DownloadPc.next]
      split
      · exact ⟨rfl, same⟩
      · exact ⟨DownloadPc.loop_elim (motive := fun pc' => pc'.pastListing = true) (fun _ => rfl)
          (fun _ _ _ _ => rfl) _ _ _, same⟩
      · exact ⟨rfl, same⟩
  | sleep vars => cases awake
  | _ => cases past

section

variable {vars vars' : DownloadVars} {time : Nat} {newFiles : List Bytes}
  {turns : List (Turn downloadThread)}

theorem Round.found (round : Round vars time newFiles turns vars') :
    (roundLog turns).found = newFiles := by
  have books := round.walk.invariant
    (fun turns (pc : DownloadPc) => pc = .listing vars time (.sftpClosedir newFiles) ∨
      (pc.pastListing = true ∧ (roundLog turns).found = newFiles)) (.inl rfl) ?_ round.awake
  · rcases books with start | ⟨_, found⟩
    · cases start
    · exact found
  · rintro turns ⟨pc, answer⟩ (rfl | ⟨past, found⟩) awake
    · change (DownloadPc.next remoteHost1
        (.listing vars time (.sftpClosedir newFiles)) answer).Meets _ _
      rw [next_closedir, Next.meets_goto]
      refine .inr ⟨?_, rfl⟩
      split
      · rfl
      · exact DownloadPc.loop_elim (motive := fun pc' => pc'.pastListing = true) (fun _ => rfl)
          (fun _ _ _ _ => rfl) _ _ _
    · refine (past_listing_step (roundLog turns) past awake).imp ?_ fun _ _ => trivial
      rintro pc' ⟨past', same⟩
      exact .inr ⟨past', same.trans found⟩

theorem Round.ends (round : Round vars time newFiles turns vars') :
    RoundEnds vars.fileHistory (roundLog turns) vars' :=
  walk_keeps (keeps_listing vars time _) round.walk round.awake

/-- What a round has before it: the history, then the listed paths that are not
in it, each once, in the order of the listing. -/
def roundQueue (fileHistory newFiles : List Bytes) : List Bytes :=
  fileHistory ++ (newFiles.filter (· ∉ fileHistory)).eraseDups

structure Deals (queue : List Bytes) (log : RoundLog) (fileHistory : List Bytes) : Prop where
  calls : log.calls.map (·.path) <+: queue
  honest : ∀ call ∈ log.calls, call.Honest
  stored : log.stored = queue.take log.stored.length
  pending : fileHistory = queue.drop log.stored.length
  nodup : fileHistory.Nodup
  either : ∀ path ∈ queue, path ∈ log.stored ↔ path ∉ fileHistory

/-- `append_to_zip` is called for the paths of the queue in their order, each
time with what has just been read from that path; those stored are the first of
the queue and the others are the history afterwards. -/
theorem download_round_bookkeeping (nodup : vars.fileHistory.Nodup)
    (round : Round vars time newFiles turns vars') :
    Deals (roundQueue vars.fileHistory newFiles) (roundLog turns) vars'.fileHistory ∧
      ∀ path, path ∈ roundQueue vars.fileHistory newFiles ↔
        path ∈ vars.fileHistory ∨ path ∈ newFiles := by
  have ends := round.ends
  obtain ⟨pending, stored, _, _, paths, among, same, honest⟩ := ends
  rw [round.found] at pending stored among
  have queue : insertNew vars.fileHistory newFiles = roundQueue vars.fileHistory newFiles :=
    insert_new_eq _ _
  have nodup' : (roundQueue vars.fileHistory newFiles).Nodup := queue ▸ insert_new_nodup nodup _
  rw [queue] at pending stored among
  obtain ⟨rest, split⟩ := stored
  rw [← split] at nodup'
  have left : vars'.fileHistory = rest := by
    rw [pending, ← split, remove_processed_prefix nodup']
  constructor
  · refine ⟨same ▸ among, honest, ?_, ?_, ?_, ?_⟩
    · rw [← split, List.take_left]
    · rw [← split, List.drop_left, left]
    · rw [left]
      exact (List.nodup_append.mp nodup').2.1
    · intro path member
      rw [left]
      rw [← split, List.mem_append] at member
      constructor
      · intro processed waiting
        exact (List.nodup_append.mp nodup').2.2 path processed path waiting rfl
      · exact member.resolve_right
  · intro path
    rw [← queue]
    exact mem_insert_new

end

def collected (name : String) : Bytes := remote1CollectDir ++ ascii name

def listingEnds (vars : DownloadVars) (time : Nat) (newFiles : List Bytes) :
    PipelineState libraryEnv :=
  ⟨some (.listing vars time (.sftpClosedir newFiles)), none, ⟨1, true, none, none, []⟩⟩

def refusesOpen : Cue libraryEnv :=
  .left fun _ call => match call with
    | .sftpOpen _ _ => some false
    | _ => none

def storesOneOfTwo : List (Cue libraryEnv) :=
  downloadSmoothly plainLayout 3 ++ [serves (ascii "text")] ++ downloadSmoothly plainLayout 2 ++
    appends plainLayout ++ downloadSmoothly plainLayout 1 ++ [refusesOpen]

def sleepsWith (vars' : DownloadVars) (trace : List (PipelineEvent libraryEnv))
    (state : PipelineState libraryEnv) : Bool :=
  state.left = some (.sleep vars') && (leftTurns trace).all (!·.pc.asleep)

theorem round_of_script {vars vars' : DownloadVars} {time : Nat} {newFiles : List Bytes}
    {trace : List (PipelineEvent libraryEnv)} {state : PipelineState libraryEnv}
    (run : PipelineRun libraryEnv (anyStep _ _ _) (· = listingEnds vars time newFiles) trace state)
    (sleeps : sleepsWith vars' trace state = true) :
    Round vars time newFiles (leftTurns trace) vars' := by
  obtain ⟨ends, awake⟩ := Bool.and_eq_true_iff.mp sleeps
  refine .of_run ?_ run (of_decide_eq_true ends) ?_
  · rintro state rfl
    rfl
  · intro turn member
    simpa using List.all_eq_true.mp awake turn member

/-- The first path is stored; the second, listed twice, cannot be opened. -/
theorem download_round_bookkeeping_one_of_two :
    ∃ turns vars', Round ⟨[collected "a"], ([], []), 0⟩ 1
        [collected "b", collected "a", collected "b"] turns vars' ∧
      (roundLog turns).stored = [collected "a"] ∧ vars'.fileHistory = [collected "b"] ∧
        Deals [collected "a", collected "b"] (roundLog turns) vars'.fileHistory := by
  have found : ∃ trace state, PipelineRun libraryEnv (anyStep _ _ _)
      (· = listingEnds ⟨[collected "a"], ([], []), 0⟩ 1
        [collected "b", collected "a", collected "b"]) trace state ∧
      (sleepsWith ⟨[collected "b"], (ascii "a", ascii "text"), 1⟩ trace state &&
        decide ((roundLog (leftTurns trace)).stored = [collected "a"])) = true :=
    exists_run_of_play (fun _ _ _ => true) storesOneOfTwo _ _ (fun _ _ _ _ => trivial) rfl
      (by decide +kernel)
  obtain ⟨trace, state, run, outcome⟩ := found
  obtain ⟨sleeps, stored⟩ := Bool.and_eq_true_iff.mp outcome
  have round := round_of_script run sleeps
  have deals := (download_round_bookkeeping (by decide) round).1
  exact ⟨_, _, round, of_decide_eq_true stored, rfl, deals⟩

end FileTransfer
