import FileTransfer.Pipeline.Smooth
import FileTransfer.Pipeline.UploadProgress

/-!
# What stands on the second host

Every upload goes to the same path, which is truncated when it is opened, and
the local archive is gone after each upload. So the remote file is the archive
of the last successful upload, and nothing else.
-/

namespace FileTransfer

set_option autoImplicit false

open Interaction

/-- From every successful upload until `upload_file` next calls `sftp_open`,
`remote_path` holds exactly the archive that upload sent. -/
theorem remote_path_holds_last_upload {localZip : Option ZipFile}
    {trace : List (PipelineEvent libraryEnv)} {state : PipelineState libraryEnv}
    (run : PipelineRun libraryEnv ReadsComplete (Started localZip) trace state) :
    (uploadReturned trace = true → (history localZip trace).delivered.isSome = true) ∧
      ∀ file, (history localZip trace).delivered = some file →
        (history localZip trace).uploads.head? = some (file, file.bytes) ∧
          state.world.remoteFile = some file.bytes := by
  constructor
  · intro returned
    obtain ⟨older, rfl⟩ := upload_returned returned
    cases run with
    | step before meets steps =>
        cases steps with
        | right responds =>
            obtain ⟨file, ⟨snapshot, _, _⟩, _, _⟩ := (progress before).upload _ rfl
            change (history localZip older).snapshot.isSome = true
            rw [snapshot]
            rfl
  · intro file delivered
    obtain ⟨uploads, remote⟩ := (progress run).standing file delivered
    exact ⟨uploads, remote⟩

def twoRounds : List (Cue libraryEnv) :=
  bothSetUp plainLayout ++
    fetches plainLayout (ascii "a") [ascii "first"] 1 1 1 ++ appends plainLayout ++
    checks plainLayout ++ uploads plainLayout ++ uploadSmoothly plainLayout 2 ++
    downloadSmoothly plainLayout 1 ++
    fetches plainLayout (ascii "b") [ascii "second"] 2 2 1 ++ appends plainLayout ++
    checks plainLayout ++ uploads plainLayout

theorem two_rounds_run :
    ∃ trace state, PipelineRun libraryEnv ReadsComplete (Started none) trace state ∧
      (uploadReturned trace &&
        (history none trace).uploads.map (fun delivery =>
            (delivery.1.stored, delivery.1.bytes)) ==
          [([(ascii "b", ascii "second")], ascii "bsecond"),
            ([(ascii "a", ascii "first")], ascii "afirst")] &&
        state.world.remoteFile == some (ascii "bsecond")) = true :=
  exists_run_of_play (fun trace state event => decide (ReadsComplete trace state event))
    twoRounds (startState none) _ (fun _ _ _ => of_decide_eq_true) (start_state_started none)
    (by decide +kernel)

theorem remote_path_holds_last_upload_two_rounds :
    ∃ trace state, PipelineRun libraryEnv ReadsComplete (Started none) trace state ∧
      ∃ file : ZipFile, (history none trace).uploads.head? = some (file, file.bytes) ∧
        state.world.remoteFile = some file.bytes := by
  obtain ⟨trace, state, run, outcome⟩ := two_rounds_run
  simp only [Bool.and_eq_true] at outcome
  obtain ⟨stands, holds⟩ := remote_path_holds_last_upload run
  obtain ⟨file, delivered⟩ := Option.isSome_iff_exists.mp (stands outcome.1.1)
  exact ⟨trace, state, run, file, holds file delivered⟩

/-- The first delivery does not survive the second. -/
theorem earlier_delivery_replaced :
    ¬ ∀ (trace : List (PipelineEvent libraryEnv)) (state : PipelineState libraryEnv),
      PipelineRun libraryEnv ReadsComplete (Started none) trace state →
        uploadReturned trace = true →
          ∀ latest earlier, (history none trace).uploads = latest :: earlier →
            state.world.remoteFile = some latest.1.bytes →
              ∀ delivery ∈ earlier, delivery.1.stored ⊆ latest.1.stored := by
  intro survives
  obtain ⟨trace, state, run, outcome⟩ := two_rounds_run
  simp only [Bool.and_eq_true, beq_iff_eq] at outcome
  obtain ⟨⟨returned, rounds⟩, remote⟩ := outcome
  cases made : (history none trace).uploads with
  | nil => simp [made] at rounds
  | cons latest earlier =>
      simp only [made, List.map_cons, List.cons.injEq, Prod.mk.injEq] at rounds
      obtain ⟨⟨latestStored, latestBytes⟩, rest⟩ := rounds
      cases earlier with
      | nil => simp at rest
      | cons first others =>
          simp only [List.map_cons, List.cons.injEq, Prod.mk.injEq] at rest
          have kept := survives trace state run returned latest (first :: others) made
            (latestBytes ▸ remote) first List.mem_cons_self
          rw [rest.1.1, latestStored] at kept
          exact absurd kept (by decide)

end FileTransfer
