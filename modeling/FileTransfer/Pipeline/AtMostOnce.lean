import FileTransfer.Pipeline.LastRun

/-!
# How often a file is stored

`last_run` becomes the time read before the listing, so a file stamped after
that moment is still new in the next iteration, when its path is no longer in
`file_history`. Only the archive can keep it from being transferred again, and
the uploader may have removed that.
-/

namespace FileTransfer

set_option autoImplicit false

open Interaction

structure Books.Settled (books : Books) (listings : Listings) : Prop where
  nodup : books.fileHistory.Nodup
  unstored : ∀ path ∈ books.fileHistory, path ∉ listings.stored

/-- The files still to be stored in the loop over `file_history`. -/
structure Books.Storing (books : Books) (listings : Listings) (todo done : List Bytes) :
    Prop where
  nodup : books.fileHistory.Nodup
  ahead : todo.Nodup
  unstored : ∀ path ∈ todo, path ∉ listings.stored
  processed : ∀ path ∈ books.fileHistory, path ∈ listings.stored → path ∈ done

def Position.Once (listings : Listings) : Position → Prop
  | .before | .after => True
  | .idle books => books.Settled listings
  | .listing books _ newFiles _ =>
      books.Settled listings ∧ ∀ path ∈ newFiles, path ∉ listings.stored
  | .file books path todo done => books.Storing listings (path :: todo) done

theorem Books.Storing.loop {books : Books} {listings : Listings} {todo done : List Bytes}
    (storing : books.Storing listings todo done) :
    (Position.loop books done todo).Once listings := by
  obtain ⟨nodup, ahead, unstored, processed⟩ := storing
  cases todo with
  | nil =>
      refine ⟨remove_processed_nodup nodup done, ?_⟩
      intro path left stored
      obtain ⟨known, unprocessed⟩ := mem_remove_processed.mp left
      exact unprocessed (processed path known stored)
  | cons file todo => exact ⟨nodup, ahead, unstored, processed⟩

/-- Stored already, and stamped after the `now` of each iteration that reported
it. -/
def Listings.Again (listings : Listings) (attributes : Attributes) : Prop :=
  attributes.fullPath ∈ listings.stored ∧
    ∀ report ∈ listings.reports, report.1 = attributes.fullPath → report.2 < attributes.mtime

instance (listings : Listings) (attributes : Attributes) :
    Decidable (listings.Again attributes) :=
  inferInstanceAs (Decidable (_ ∧ _))

/-- A file that has been stored and is still new is found in the archive when a
listing looks it up. -/
def StillArchived : PipelineCondition hostEnv :=
  fun trace _ event => match event with
    | .left (.listing _ _ (.fileExists _ attributes .zipOpen)) none =>
        ¬ (listings trace).Again attributes
    | .left (.listing _ _ (.fileExists _ attributes (.zipClose _ none))) _ =>
        ¬ (listings trace).Again attributes
    | _ => True

instance (trace : List (PipelineEvent hostEnv)) (state : PipelineState hostEnv)
    (event : PipelineEvent hostEnv) : Decidable (StillArchived trace state event) := by
  unfold StillArchived
  split <;> infer_instance

theorem missed_unstored {localZip : Option ZipFile} {trace : List (PipelineEvent hostEnv)}
    {vars : DownloadVars} {time : Nat} {newFiles : List Bytes} {attributes : Attributes}
    {pc : FileExistsPc} {answer : (pc.call localZipPath attributes.name).Answer}
    {right : Option UploadPc} {world : HostWorld}
    (run : PipelineRun hostEnv StillArchived (HostStarted localZip) trace
      ⟨some (.listing vars time (.fileExists newFiles attributes pc)), right, world⟩)
    (archived : StillArchived trace
      ⟨some (.listing vars time (.fileExists newFiles attributes pc)), right, world⟩
      (.left (.listing vars time (.fileExists newFiles attributes pc)) answer))
    (next : pc.next localZipPath attributes.name answer = .done false) :
    attributes.fullPath ∉ (listings trace).stored := by
  intro stored
  have dates : vars.books.Dated (listings trace) world.clock := (dated run _ rfl).1
  obtain ⟨_, new, _⟩ := listing_points (fun _ started => started.1) run _ rfl
  have again : (listings trace).Again attributes := by
    refine ⟨stored, ?_⟩
    intro report member _
    have old := dates.reports report member
    simp only [Attributes.isNew, Bool.and_eq_true, decide_eq_true_eq] at new
    exact Nat.lt_of_le_of_lt old new.2
  cases pc with
  | zipOpen =>
      cases answer with
      | none => exact archived again
      | some opened => cases next
  | zipNameLocate opened => cases answer <;> cases next
  | zipClose opened index =>
      cases index with
      | none => exact archived again
      | some position => cases next

theorem Position.Once.same {position : Position} {listings listings' : Listings}
    (once : position.Once listings) (stored : listings'.stored = listings.stored) :
    position.Once listings' := by
  cases position with
  | before | after => trivial
  | idle books =>
      obtain ⟨nodup, unstored⟩ := once
      exact ⟨nodup, stored ▸ unstored⟩
  | listing books time newFiles looking =>
      obtain ⟨⟨nodup, unstored⟩, fresh⟩ := once
      exact ⟨⟨nodup, stored ▸ unstored⟩, stored ▸ fresh⟩
  | file books file todo done =>
      obtain ⟨nodup, ahead, unstored, processed⟩ := once
      exact ⟨nodup, ahead, stored ▸ unstored, stored ▸ processed⟩

theorem once_download_step {localZip : Option ZipFile} {trace : List (PipelineEvent hostEnv)}
    {pc : DownloadPc} {answer : (pc.call remoteHost1).Answer} {right : Option UploadPc}
    {world : HostWorld} {position : Position}
    (run : PipelineRun hostEnv StillArchived (HostStarted localZip) trace
      ⟨some pc, right, world⟩)
    (archived : StillArchived trace ⟨some pc, right, world⟩ (.left pc answer))
    (before : pc.position.Once (listings trace)) (steps : RoundStep pc answer position) :
    position.Once ((listings trace).recordDownload pc answer) := by
  cases steps with
  | stays quiet => exact before.same (quiet.stored _)
  | leaves quiet => trivial
  | enters => exact ⟨List.nodup_nil, nofun⟩
  | samples => exact ⟨before, nofun⟩
  | skips | shows | finds =>
      obtain ⟨⟨nodup, unstored⟩, fresh⟩ := before
      exact ⟨⟨nodup, unstored⟩, fresh⟩
  | @misses vars time newFiles attributes pc answer next quiet =>
      have unstored := missed_unstored run archived next
      obtain ⟨settled, fresh⟩ := before
      have after : (Position.listing vars.books time (newFiles ++ [attributes.fullPath]) none).Once
          (listings trace) := by
        refine ⟨settled, ?_⟩
        intro path member
        rcases List.mem_append.mp member with found | missed
        · exact fresh path found
        · rw [List.mem_singleton.mp missed]
          exact unstored
      exact after.same (quiet.stored _)
  | passes nothing looked quiet => exact Position.Once.same before.1 (quiet.stored _)
  | @reports vars time newFiles answer found =>
      obtain ⟨⟨nodup, unstored⟩, fresh⟩ := before
      have unstored' : ∀ path ∈ insertNew vars.fileHistory newFiles,
          path ∉ (listings trace).stored := by
        intro path member
        rcases mem_insert_new.mp member with old | new
        · exact unstored path old
        · exact fresh path new
      have storing : Books.Storing ⟨insertNew vars.fileHistory newFiles, time⟩ (listings trace)
          (insertNew vars.fileHistory newFiles) [] :=
        ⟨insert_new_nodup nodup newFiles, insert_new_nodup nodup newFiles, unstored',
          fun path member stored => absurd stored (unstored' path member)⟩
      exact storing.loop.same rfl
  | @appends vars file todo done =>
      obtain ⟨nodup, ahead, unstored, processed⟩ := before
      rw [List.nodup_cons] at ahead
      have storing : vars.books.Storing ((listings trace).recordDownload
          (.append vars file todo done (.semPost true)) ()) todo (done ++ [file]) := by
        refine ⟨nodup, ahead.2, ?_, ?_⟩
        · intro path member stored
          rcases List.mem_cons.mp stored with rfl | earlier
          · exact ahead.1 member
          · exact unstored path (List.mem_cons_of_mem _ member) earlier
        · intro path known stored
          rcases List.mem_cons.mp stored with rfl | earlier
          · exact List.mem_append_right _ (List.mem_singleton.mpr rfl)
          · exact List.mem_append_left _ (processed path known earlier)
      exact storing.loop
  | @breaks pc answer books file todo done stands quiet =>
      rw [stands] at before
      obtain ⟨nodup, _, _, processed⟩ := before
      have storing : books.Storing (listings trace) [] done :=
        ⟨nodup, List.nodup_nil, nofun, processed⟩
      exact storing.loop.same (quiet.stored _)

theorem once {localZip : Option ZipFile} {trace : List (PipelineEvent hostEnv)}
    {state : PipelineState hostEnv}
    (run : PipelineRun hostEnv StillArchived (HostStarted localZip) trace state) :
    ∀ pc : DownloadPc, state.left = some pc → pc.position.Once (listings trace) :=
  position_invariant (fun _ started => started.1)
    (fun listings _ position => position.Once listings)
    (fun _ _ => trivial)
    (fun _ _ _ _ _ _ _ run archived _ before steps => once_download_step run archived before steps)
    (fun _ _ _ _ _ _ _ _ before => before) (fun _ _ _ _ _ _ _ _ _ before => before) run

theorem stored_step {listings : Listings} {pc : DownloadPc}
    {answer : (pc.call remoteHost1).Answer} (once : pc.position.Once listings)
    (nodup : listings.stored.Nodup) : (listings.recordDownload pc answer).stored.Nodup := by
  unfold Listings.recordDownload
  split
  case h_7 => exact List.nodup_cons.mpr ⟨once.unstored _ List.mem_cons_self, nodup⟩
  all_goals exact nodup

/-- In a run in which a stored file that is still new is found in the archive
whenever a listing looks it up, `append_to_zip` returns true at most once for
every path. -/
theorem stored_at_most_once {localZip : Option ZipFile} {trace : List (PipelineEvent hostEnv)}
    {state : PipelineState hostEnv}
    (run : PipelineRun hostEnv StillArchived (HostStarted localZip) trace state) :
    (listings trace).stored.Nodup := by
  refine run.invariant (fun trace _ => (listings trace).stored.Nodup) ?_ ?_
  · intro state _
    exact List.nodup_nil
  · intro trace state event state' run before _ steps
    cases steps with
    | @left pc answer right world world' responds => exact stored_step (once run pc rfl) before
    | right responds => exact before
    | move moves => exact before

/-- One file is listed, stored and uploaded, and shown again. -/
theorem stored_at_most_once_one_file :
    ∃ trace state, PipelineRun hostEnv StillArchived (HostStarted none) trace state ∧
      (listings trace).stored ≠ [] ∧ (listings trace).stored.Nodup := by
  have found : ∃ trace state,
      PipelineRun hostEnv StillArchived (HostStarted none) trace state ∧
        (!(listings trace).stored.isEmpty) = true :=
    exists_run_of_play (fun trace state event => decide (StillArchived trace state event))
      (downloadCalls 11 ++ uploadCalls 10 ++ seconds 1 ++ writes fileA (ascii "text") ++
        downloadCalls 21 ++ uploadCalls 12 ++ seconds 5 ++ downloadCalls 8)
      hostStart _ (fun _ _ _ => of_decide_eq_true) host_start_started (by decide +kernel)
  obtain ⟨trace, state, run, outcome⟩ := found
  refine ⟨trace, state, run, ?_, stored_at_most_once run⟩
  intro empty
  simp [empty] at outcome

def WrittenOnce : PipelineCondition hostEnv :=
  fun _ state event => match event with
    | .move (.write name _) => name ∉ state.world.written.map (·.name)
    | _ => True

instance (trace : List (PipelineEvent hostEnv)) (state : PipelineState hostEnv)
    (event : PipelineEvent hostEnv) : Decidable (WrittenOnce trace state event) := by
  unfold WrittenOnce
  split <;> infer_instance

/-- The file is written in the second after `now` has been read, and the
archive is gone before the next listing. -/
theorem late_file_stored_twice :
    ¬ ∀ (trace : List (PipelineEvent hostEnv)) (state : PipelineState hostEnv),
      PipelineRun hostEnv WrittenOnce (HostStarted none) trace state →
        (listings trace).stored.Nodup := by
  intro once
  have found : ∃ trace state, PipelineRun hostEnv WrittenOnce (HostStarted none) trace state ∧
      decide ((listings trace).stored =
        [remote1CollectDir ++ ascii "a", remote1CollectDir ++ ascii "a"]) = true :=
    exists_run_of_play (fun trace state event => decide (WrittenOnce trace state event))
      (downloadCalls 11 ++ uploadCalls 10 ++ downloadCalls 2 ++ seconds 1 ++
        writes fileA (ascii "text") ++ downloadCalls 19 ++ uploadCalls 12 ++ seconds 5 ++
        downloadCalls 22)
      hostStart _ (fun _ _ _ => of_decide_eq_true) host_start_started (by decide +kernel)
  obtain ⟨trace, state, run, outcome⟩ := found
  have nodup := once trace state run
  rw [of_decide_eq_true outcome] at nodup
  simp at nodup

end FileTransfer
