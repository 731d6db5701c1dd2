import FileTransfer.Functions.DownloadRound
import Mathlib.Data.List.TakeWhile

/-!
# A file that cannot be downloaded

The loop over `file_history` ends at the first failed download, and the failed
path keeps its place. What stands behind it waits with it.
-/

namespace FileTransfer

set_option autoImplicit false

open Interaction

/-- `download_file` fails on the paths of `failing` and on no other; the archive
is found within the threshold and `append_to_zip` returns true. -/
def asPlanned (failing : Bytes → Bool) : Turn downloadThread → Bool
  | ⟨.fileSize _ _ _ _, stat⟩ => getFileSize stat ≤ maxZipSize
  | ⟨.download vars file _ _ pc, answer⟩ =>
      match pc.next file vars.fileContents answer with
      | .done result => result.1 == !failing file
      | .goto _ => true
  | ⟨.append _ _ _ _ (.semPost stored), _⟩ => stored
  | _ => true

/-- Nothing of what has been processed fails. -/
def DownloadPc.OnPlan (failing : Bytes → Bool) (history : List Bytes) (log : RoundLog) :
    DownloadPc → Prop
  | .fileSize _ _ _ done | .download _ _ _ done _ => ∀ path ∈ done, failing path = false
  | .append _ file _ done _ => ∀ path ∈ done ++ [file], failing path = false
  | .sleep _ => log.found ≠ [] →
      log.stored = (insertNew history log.found).takeWhile (!failing ·)
  | _ => True

section

variable {failing : Bytes → Bool} {history : List Bytes} {log : RoundLog} {vars : DownloadVars}
  {done todo : List Bytes}

theorem take_while_broken {file : Bytes} (fine : ∀ path ∈ done, failing path = false)
    (fails : failing file = true) :
    (done ++ file :: todo).takeWhile (!failing ·) = done := by
  rw [List.takeWhile_append_of_pos (by simpa using fine),
    List.takeWhile_cons_of_neg (by simp [fails]), List.append_nil]

theorem take_while_done (fine : ∀ path ∈ done, failing path = false) :
    done.takeWhile (!failing ·) = done :=
  List.takeWhile_eq_self_iff.mpr (by simpa using fine)

theorem loop_on_plan (processing : Processing history log.found log.stored vars done todo)
    (fine : ∀ path ∈ done, failing path = false) :
    (DownloadPc.loop vars done todo).OnPlan failing history log := by
  cases todo with
  | nil =>
      intro _
      rw [processing.queue, List.append_nil, take_while_done fine, processing.processed]
  | cons file todo => exact fine

theorem DownloadPc.Keeps.processing {file : Bytes} {pc : DownloadFilePc}
    (keeps : (DownloadPc.download vars file todo done pc).Keeps history log) :
    Processing history log.found log.stored vars done (file :: todo) := by
  cases pc <;> exact keeps.1

theorem on_plan_step {turn : Turn downloadThread} (keeps : turn.pc.Keeps history log)
    (onPlan : turn.pc.OnPlan failing history log) (planned : asPlanned failing turn = true) :
    (turn.pc.next remoteHost1 turn.answer).Meets
      (fun pc' => pc'.OnPlan failing history (log.record turn)) fun _ => True := by
  obtain ⟨pc, answer⟩ := turn
  cases pc with
  | session pc | sftp pc =>
      simp only [DownloadPc.next]
      split <;> trivial
  | readRunning vars => cases answer <;> trivial
  | listing vars time pc =>
      obtain ⟨rfl, rfl⟩ := keeps
      apply listing_meets
        (motive := fun log (pc' : DownloadPc) => pc'.OnPlan failing vars.fileHistory log)
      · exact fun pc' => trivial
      · exact fun something => absurd rfl something
      · exact fun newFiles something => loop_on_plan ⟨something, rfl, rfl, rfl⟩
          (List.forall_mem_nil _)
  | fileSize vars file todo done =>
      have within : getFileSize answer ≤ maxZipSize := of_decide_eq_true planned
      simp only [DownloadPc.next]
      rw [if_neg (Nat.not_lt.mpr within)]
      exact onPlan
  | download vars file todo done pc =>
      simp only [asPlanned] at planned
      simp only [DownloadPc.next]
      split
      · exact onPlan
      · rename_i contents ends
        rw [ends] at planned
        have fails : failing file = true := by simpa using planned
        have processing := keeps.processing
        obtain ⟨found, stored⟩ := record_download log vars file todo done pc answer
        intro _
        rw [found, stored, processing.queue, take_while_broken onPlan fails, processing.processed]
      · rename_i contents ends
        rw [ends] at planned
        have fine : failing file = false := by simpa using planned
        intro path member
        rcases List.mem_append.mp member with earlier | this
        · exact onPlan path earlier
        · rw [List.mem_singleton.mp this]
          exact fine
  | append vars file todo done pc =>
      cases pc with
      | semPost result =>
          cases result with
          | false => cases planned
          | true =>
              exact loop_on_plan keeps.1.next onPlan
      | zipOpen | zipSourceBuffer | zipNameLocate | zipClose => cases answer <;> exact onPlan
      | _ => exact onPlan
  | sshFree | now | initialNow | sleep | clearRunning | sftpFree | sshDisconnect => trivial

theorem walk_on_plan {start pc : DownloadPc} {turns : List (Turn downloadThread)}
    (starts : start.Keeps history .start) (onPlan : start.OnPlan failing history .start)
    (walk : Walk downloadThread start turns pc) (awake : ∀ turn ∈ turns, turn.pc.asleep = false)
    (planned : ∀ turn ∈ turns, asPlanned failing turn = true) :
    pc.OnPlan failing history (roundLog turns) := by
  have books := walk.invariant
    (fun turns (pc : DownloadPc) => pc.Keeps history (roundLog turns) ∧
      pc.OnPlan failing history (roundLog turns)) ?_ ?_
    (fun turn member => And.intro (awake turn member) (planned turn member))
  · exact books.2
  · exact ⟨starts, onPlan⟩
  · rintro turns turn ⟨keeps, onPlan⟩ ⟨awake, planned⟩
    have keeps' := keeps_step keeps awake
    have onPlan' := on_plan_step keeps onPlan planned
    cases next : downloadThread.next turn.pc turn.answer with
    | goto pc' => exact ⟨keeps'.goes next, onPlan'.goes next⟩
    | done result => trivial

end

section

variable {failing : Bytes → Bool} {vars vars' : DownloadVars} {time : Nat}
  {newFiles : List Bytes} {turns : List (Turn downloadThread)}

theorem Round.stored (found : newFiles ≠ []) (round : Round vars time newFiles turns vars')
    (planned : ∀ turn ∈ turns, asPlanned failing turn = true) :
    (roundLog turns).stored = (roundQueue vars.fileHistory newFiles).takeWhile (!failing ·) := by
  have something : (roundLog turns).found ≠ [] := round.found ▸ found
  have stored := walk_on_plan (keeps_listing vars time _) trivial round.walk round.awake planned
    something
  rw [round.found, insert_new_eq] at stored
  exact stored

/-- A round in which some downloads fail and nothing else does stores what
stands before the first of them; that one and everything behind it stay. So the
history holds the failing paths alone just if none of the others stands behind
one of them. -/
theorem failing_file_blocks (failing : Bytes → Bool) (found : newFiles ≠ [])
    (round : Round vars time newFiles turns vars')
    (planned : ∀ turn ∈ turns, asPlanned failing turn = true) :
    (roundLog turns).stored = (roundQueue vars.fileHistory newFiles).takeWhile (!failing ·) ∧
    vars'.fileHistory =
      (roundQueue vars.fileHistory newFiles).filter (· ∉ (roundLog turns).stored) ∧
    (vars.fileHistory.Nodup →
      vars'.fileHistory = (roundQueue vars.fileHistory newFiles).dropWhile (!failing ·)) ∧
    ((∀ path, path ∈ vars'.fileHistory ↔
        path ∈ roundQueue vars.fileHistory newFiles ∧ failing path = true) ↔
      ∀ path ∈ roundQueue vars.fileHistory newFiles, failing path = false →
        path ∈ (roundLog turns).stored) := by
  have stored := round.stored found planned
  have pending : vars'.fileHistory =
      (roundQueue vars.fileHistory newFiles).filter (· ∉ (roundLog turns).stored) := by
    have ends := round.ends.pending
    rw [round.found, insert_new_eq, remove_processed_eq] at ends
    exact ends
  refine ⟨stored, pending, ?_, ?_⟩
  · intro nodup
    have deals := (download_round_bookkeeping nodup round).1
    calc vars'.fileHistory
        = (roundQueue vars.fileHistory newFiles).drop
            ((roundQueue vars.fileHistory newFiles).takeWhile (!failing ·)).length := by
          rw [← stored]
          exact deals.pending
      _ = ((roundQueue vars.fileHistory newFiles).takeWhile (!failing ·) ++
            (roundQueue vars.fileHistory newFiles).dropWhile (!failing ·)).drop
              ((roundQueue vars.fileHistory newFiles).takeWhile (!failing ·)).length := by
          rw [List.takeWhile_append_dropWhile]
      _ = (roundQueue vars.fileHistory newFiles).dropWhile (!failing ·) := List.drop_left
  · have fine : ∀ path ∈ (roundLog turns).stored, failing path = false := by
      intro path member
      rw [stored] at member
      simpa using List.mem_takeWhile_imp member
    rw [pending]
    simp only [List.mem_filter, decide_eq_true_eq]
    constructor
    · intro exact' path queued succeeds
      by_contra waiting
      have fails := ((exact' path).mp ⟨queued, waiting⟩).2
      rw [succeeds] at fails
      cases fails
    · intro before path
      constructor
      · rintro ⟨queued, waiting⟩
        refine ⟨queued, ?_⟩
        by_contra succeeds
        exact waiting (before path queued (by simpa using succeeds))
      · rintro ⟨queued, fails⟩
        refine ⟨queued, fun processed => ?_⟩
        rw [fine path processed] at fails
        cases fails

end

/-- The second of two files fails. -/
theorem failing_file_blocks_last :
    ∃ turns vars', Round ⟨[], ([], []), 0⟩ 1 [collected "a", collected "b"] turns vars' ∧
      (roundLog turns).stored = [collected "a"] ∧ vars'.fileHistory = [collected "b"] := by
  have found : ∃ trace state, PipelineRun libraryEnv (anyStep _ _ _)
      (· = listingEnds ⟨[], ([], []), 0⟩ 1 [collected "a", collected "b"]) trace state ∧
      (sleepsWith ⟨[collected "b"], (ascii "a", ascii "text"), 1⟩ trace state &&
        (leftTurns trace).all (asPlanned (· == collected "b"))) = true :=
    exists_run_of_play (fun _ _ _ => true) storesOneOfTwo _ _ (fun _ _ _ _ => trivial) rfl
      (by decide +kernel)
  obtain ⟨trace, state, run, outcome⟩ := found
  obtain ⟨sleeps, planned⟩ := Bool.and_eq_true_iff.mp outcome
  have round := round_of_script run sleeps
  have blocks := failing_file_blocks (· == collected "b") (by decide) round
    (List.all_eq_true.mp planned)
  refine ⟨_, _, round, ?_, rfl⟩
  rw [blocks.1]
  decide

/-- The first of two files fails, and the second waits with it. -/
theorem failing_file_starves_next :
    ¬ ∀ (failing : Bytes → Bool) (vars vars' : DownloadVars) (time : Nat) (newFiles : List Bytes)
        (turns : List (Turn downloadThread)), newFiles ≠ [] →
      Round vars time newFiles turns vars' → (∀ turn ∈ turns, asPlanned failing turn = true) →
        (∀ path ∈ roundQueue vars.fileHistory newFiles, failing path = false →
          path ∈ (roundLog turns).stored ∧ path ∉ vars'.fileHistory) ∧
        ∀ path, path ∈ vars'.fileHistory ↔
          path ∈ roundQueue vars.fileHistory newFiles ∧ failing path = true := by
  intro drains
  have found : ∃ trace state, PipelineRun libraryEnv (anyStep _ _ _)
      (· = listingEnds ⟨[], ([], []), 0⟩ 1 [collected "a", collected "b"]) trace state ∧
      (sleepsWith ⟨[collected "a", collected "b"], ([], []), 1⟩ trace state &&
        (leftTurns trace).all (asPlanned (· == collected "a"))) = true :=
    exists_run_of_play (fun _ _ _ => true) (downloadSmoothly plainLayout 2 ++ [refusesOpen]) _ _
      (fun _ _ _ _ => trivial) rfl (by decide +kernel)
  obtain ⟨trace, state, run, outcome⟩ := found
  obtain ⟨sleeps, planned⟩ := Bool.and_eq_true_iff.mp outcome
  have round := round_of_script run sleeps
  have succeeds := (drains (· == collected "a") _ _ _ _ _ (by decide) round
    (List.all_eq_true.mp planned)).1 (collected "b") (by decide) (by decide)
  exact absurd succeeds.2 (by decide)

end FileTransfer
