import FileTransfer.Interaction.Execution
import FileTransfer.Interaction.Lifetimes
import FileTransfer.Pipeline.Smooth
import FileTransfer.Program.Listing
import FileTransfer.Program.Transfer

/-!
# The libzip handles of the archive functions

`append_to_zip`, `create_zip_from_files` and `file_exists_in_zip` hold one
archive and at most one source at a time. `zip_close` gives the archive back
only when it succeeds, and `zip_file_add` takes the source over only when it
succeeds; the functions look at neither of the two, and in one place ask a NULL
archive for its error.
-/

namespace FileTransfer

set_option autoImplicit false

open Interaction

inductive ZipHandle where
  | archive
  | source
  deriving DecidableEq

/-- What a call does with the handles of libzip. `zip_strerror` reads the
archive it is given, and a successful `zip_file_add` takes the source. -/
def Call.zipOps : (call : Call) → call.Answer → List (HandleOp ZipHandle)
  | .zipOpen _ _, some _ => [.create .archive]
  | .zipSourceBuffer _, made | .zipSourceFile _, made =>
      if made then [.use .archive, .create .source] else [.use .archive]
  | .zipFileAdd archive name source, memory =>
      if (archive.fileAdd name source memory).isSome then [.use .archive, .release .source]
      else [.use .archive, .use .source]
  | .zipNameLocate _ _ _, _ | .zipFileSetEncryption _ _ _, _ | .zipStrerror _, _ =>
      [.use .archive]
  | .zipClose _, .failed => [.use .archive]
  | .zipClose _, _ => [.release .archive]
  | _, _ => []

/-- A call that does not bring the functions into trouble: an archive to be
created can be opened, a source is taken over, and `zip_close` does not fail. -/
def Call.ZipServed : (call : Call) → call.Answer → Prop
  | .zipOpen _ true, opened => opened.isSome
  | .zipFileAdd archive name source, memory => (archive.fileAdd name source memory).isSome
  | .zipClose _, closed => closed ≠ .failed
  | _, _ => True

instance (call : Call) (answer : call.Answer) : Decidable (call.ZipServed answer) := by
  unfold Call.ZipServed
  split <;> infer_instance

/-- The handles are used as libzip wants it: only between their creation and
their release, and released exactly once. -/
def ZipHandlesCorrect (trace : List (Exchange Call.Answer)) : Prop :=
  ∀ handle, let life := historyOf handle (handleOps Call.zipOps trace)
    life = [] ∨ Lived handle life

theorem add_served {archive : Zip} {name : Bytes} {source : Source} {memory : Bool}
    (served : (Call.zipFileAdd archive name source).ZipServed memory) :
    replay {.source, .archive} ((Call.zipFileAdd archive name source).zipOps memory) =
      some {.archive} := by
  have taken : (archive.fileAdd name source memory).isSome = true := served
  simp only [Call.zipOps, taken, if_true]
  rfl

theorem add_refused {archive : Zip} {name : Bytes} {source : Source} {memory : Bool}
    {live' : Finset ZipHandle}
    (refused : ¬ (Call.zipFileAdd archive name source).ZipServed memory)
    (replays : replay {.source, .archive} ((Call.zipFileAdd archive name source).zipOps memory) =
      some live') : live' = {.source, .archive} := by
  have kept : (archive.fileAdd name source memory).isSome = false := Bool.eq_false_iff.mpr refused
  simp only [Call.zipOps, kept] at replays
  cases replays
  rfl

theorem close_served {archive : Zip} {closed : Zip.CloseResult}
    (served : (Call.zipClose archive).ZipServed closed) :
    replay {.archive} ((Call.zipClose archive).zipOps closed) = some ∅ := by
  cases closed with
  | failed => exact absurd rfl served
  | discarded => rfl
  | written file => rfl

theorem close_failed {archive : Zip} {closed : Zip.CloseResult} {live' : Finset ZipHandle}
    (failed : ¬ (Call.zipClose archive).ZipServed closed)
    (replays : replay {.archive} ((Call.zipClose archive).zipOps closed) = some live') :
    closed = .failed ∧ live' = {.archive} := by
  have closed' : closed = .failed := not_not.mp failed
  subst closed'
  cases replays
  exact ⟨rfl, rfl⟩

theorem close_keeps_source {archive : Zip} {closed : Zip.CloseResult}
    {live live' : Finset ZipHandle}
    (replays : replay live ((Call.zipClose archive).zipOps closed) = some live')
    (kept : .source ∈ live) : .source ∈ live' := by
  cases closed with
  | failed =>
      obtain ⟨_, rfl⟩ := replay_use_iff.mp replays
      exact kept
  | discarded =>
      obtain ⟨_, rfl⟩ := replay_release_iff.mp replays
      simpa using kept
  | written file =>
      obtain ⟨_, rfl⟩ := replay_release_iff.mp replays
      simpa using kept

/-- What `append_to_zip` holds as long as all its calls are served. -/
def AppendPc.ZipFine : AppendPc → Finset ZipHandle → Prop
  | .semWait, live | .zipOpen, live | .semPost _, live => live = ∅
  | .zipFileAdd _, live => live = {.source, .archive}
  | .strerrorOpen, _ | .strerrorClose _, _ => False
  | _, live => live = {.archive}

/-- What it holds, and no longer gets rid of, once one has not been. -/
def AppendPc.ZipLost : AppendPc → Finset ZipHandle → Prop
  | .strerrorOpen, live => .archive ∉ live
  | .zipNameLocate _, live | .zipFileSetEncryption _ _, live | .zipClose _, live =>
      .source ∈ live
  | .strerrorClose _, live | .semPost _, live => live ≠ ∅
  | _, _ => False

theorem append_loses (fileName content zipPath password : Bytes) :
    Loses (appendToZip fileName content zipPath password) Call.zipOps Call.ZipServed
      AppendPc.ZipFine AppendPc.ZipLost where
  bears := by
    intro pc answer held fine good
    cases pc with
    | strerrorOpen => cases fine
    | strerrorClose archive => cases fine
    | zipOpen =>
        cases fine
        cases answer with
        | none => cases good
        | some opened => exact ⟨_, rfl, rfl⟩
    | zipSourceBuffer opened =>
        cases fine
        cases answer <;> exact ⟨_, rfl, rfl⟩
    | zipFileAdd opened =>
        cases fine
        exact ⟨_, add_served good, rfl⟩
    | zipNameLocate archive =>
        cases fine
        cases answer <;> exact ⟨_, rfl, rfl⟩
    | zipCloseSource opened =>
        cases fine
        exact ⟨_, close_served good, rfl⟩
    | zipClose archive =>
        cases fine
        refine ⟨_, close_served good, ?_⟩
        cases answer with
        | failed => exact absurd rfl good
        | discarded => rfl
        | written file => rfl
    | _ =>
        cases fine
        exact ⟨_, rfl, rfl⟩
  fails := by
    intro pc answer held fine bad live' replays
    cases pc with
    | zipOpen =>
        cases fine
        cases answer with
        | none =>
            cases replays
            exact Finset.notMem_empty _
        | some opened => exact absurd rfl bad
    | zipFileAdd opened =>
        cases fine
        rw [add_refused bad replays]
        exact Finset.mem_insert_self _ _
    | zipCloseSource opened =>
        cases fine
        rw [(close_failed bad replays).2]
        exact Finset.singleton_ne_empty _
    | zipClose archive =>
        cases fine
        obtain ⟨rfl, rfl⟩ := close_failed bad replays
        exact Finset.singleton_ne_empty _
    | _ => exact absurd trivial bad
  stays := by
    intro pc answer held lost live' replays
    cases pc with
    | strerrorOpen => exact absurd (replay_use_iff.mp replays).1 lost
    | zipNameLocate archive =>
        obtain ⟨_, rfl⟩ := replay_use_iff.mp replays
        cases answer <;> exact lost
    | zipFileSetEncryption archive index | strerrorClose archive =>
        obtain ⟨_, rfl⟩ := replay_use_iff.mp replays
        exact lost
    | zipClose archive =>
        have left := close_keeps_source replays lost
        cases answer <;> exact Finset.ne_empty_of_mem left
    | semPost result =>
        cases replays
        exact lost
    | _ => cases lost

def CreateZipPc.ZipFine : CreateZipPc → Finset ZipHandle → Prop
  | .semWait, live | .zipOpen, live | .semPost _, live => live = ∅
  | .zipFileAdd _ _ _, live => live = {.source, .archive}
  | .strerrorOpen, _ | .strerrorClose _, _ => False
  | _, live => live = {.archive}

/-- A source that was not taken over is lost at the next `zip_source_file`,
which stores another one over it, or at the end. -/
def CreateZipPc.ZipLost : CreateZipPc → Finset ZipHandle → Prop
  | .strerrorOpen, live => .archive ∉ live
  | .semWait, _ | .zipOpen, _ | .zipFileAdd _ _ _, _ => False
  | .strerrorClose _, live | .semPost _, live => live ≠ ∅
  | _, live => .source ∈ live

theorem create_loop_fine (archive : Zip) (files : List Bytes) :
    (CreateZipPc.loop archive files).ZipFine {.archive} := by
  cases files <;> rfl

theorem create_loop_lost (archive : Zip) (files : List Bytes) {live : Finset ZipHandle}
    (kept : .source ∈ live) : (CreateZipPc.loop archive files).ZipLost live := by
  cases files <;> exact kept

theorem create_loses (files : List Bytes) (localDir zipPath password : Bytes) :
    Loses (createZipFromFiles files localDir zipPath password) Call.zipOps Call.ZipServed
      CreateZipPc.ZipFine CreateZipPc.ZipLost where
  bears := by
    intro pc answer held fine good
    cases pc with
    | strerrorOpen => cases fine
    | strerrorClose archive => cases fine
    | zipOpen =>
        cases fine
        cases answer with
        | none => cases good
        | some opened => exact ⟨_, rfl, create_loop_fine _ _⟩
    | zipSourceFile archive file todo =>
        cases fine
        cases answer <;> exact ⟨_, rfl, rfl⟩
    | zipFileAdd archive file todo =>
        cases fine
        exact ⟨_, add_served good, rfl⟩
    | zipNameLocate archive file todo =>
        cases fine
        cases answer <;> exact ⟨_, rfl, rfl⟩
    | unlink archive file todo =>
        cases fine
        exact ⟨_, rfl, create_loop_fine _ _⟩
    | zipCloseSource archive =>
        cases fine
        exact ⟨_, close_served good, rfl⟩
    | zipClose archive =>
        cases fine
        refine ⟨_, close_served good, ?_⟩
        cases answer with
        | failed => exact absurd rfl good
        | discarded => rfl
        | written file => rfl
    | _ =>
        cases fine
        exact ⟨_, rfl, rfl⟩
  fails := by
    intro pc answer held fine bad live' replays
    cases pc with
    | zipOpen =>
        cases fine
        cases answer with
        | none =>
            cases replays
            exact Finset.notMem_empty _
        | some opened => exact absurd rfl bad
    | zipFileAdd archive file todo =>
        cases fine
        rw [add_refused bad replays]
        exact Finset.mem_insert_self _ _
    | zipCloseSource archive =>
        cases fine
        rw [(close_failed bad replays).2]
        exact Finset.singleton_ne_empty _
    | zipClose archive =>
        cases fine
        obtain ⟨rfl, rfl⟩ := close_failed bad replays
        exact Finset.singleton_ne_empty _
    | _ => exact absurd trivial bad
  stays := by
    intro pc answer held lost live' replays
    cases pc with
    | strerrorOpen => exact absurd (replay_use_iff.mp replays).1 lost
    | zipSourceFile archive file todo =>
        cases answer with
        | false =>
            obtain ⟨_, rfl⟩ := replay_use_iff.mp replays
            exact lost
        | true =>
            have kept : .source ∈ held := lost
            have stored : replay held [.use .archive, .create .source] = some live' := replays
            by_cases open' : .archive ∈ held <;>
              simp [replay, HandleOp.step, open', kept] at stored
    | strerrorSource archive | zipFileSetEncryption archive index file todo
    | strerrorClose archive =>
        obtain ⟨_, rfl⟩ := replay_use_iff.mp replays
        exact lost
    | zipNameLocate archive file todo =>
        obtain ⟨_, rfl⟩ := replay_use_iff.mp replays
        cases answer <;> exact lost
    | unlink archive file todo =>
        cases replays
        exact create_loop_lost _ _ lost
    | zipCloseSource archive =>
        exact Finset.ne_empty_of_mem (close_keeps_source replays lost)
    | zipClose archive =>
        have left := close_keeps_source replays lost
        cases answer <;> exact Finset.ne_empty_of_mem left
    | semPost result =>
        cases replays
        exact lost
    | _ => cases lost

def FileExistsPc.ZipFine : FileExistsPc → Finset ZipHandle → Prop
  | .zipOpen, live => live = ∅
  | _, live => live = {.archive}

theorem file_exists_loses (zipPath filename : Bytes) :
    Loses (fileExistsInZip zipPath filename) Call.zipOps Call.ZipServed
      FileExistsPc.ZipFine fun _ _ => False where
  bears := by
    intro pc answer held fine good
    cases pc with
    | zipOpen =>
        cases fine
        cases answer <;> exact ⟨_, rfl, rfl⟩
    | zipNameLocate opened =>
        cases fine
        cases answer <;> exact ⟨_, rfl, rfl⟩
    | zipClose opened index =>
        cases fine
        exact ⟨_, close_served good, rfl⟩
  fails := by
    intro pc answer held fine bad live' replays
    cases pc with
    | zipClose opened index =>
        cases fine
        rw [(close_failed bad replays).2]
        exact Finset.singleton_ne_empty _
    | _ => exact absurd trivial bad
  stays := by
    intro pc answer held lost
    exact absurd lost not_false

/-- The calls of one of the three functions, from its start to its return. -/
inductive ZipTrace : List (Exchange Call.Answer) → Prop where
  | append {fileName content zipPath password : Bytes} {trace : List (Exchange Call.Answer)}
      {result : Bool}
      (returns : (appendToZip fileName content zipPath password).Returns .semWait trace result) :
      ZipTrace trace
  | create {files : List Bytes} {localDir zipPath password : Bytes}
      {trace : List (Exchange Call.Answer)} {result : Bool}
      (returns :
        (createZipFromFiles files localDir zipPath password).Returns .semWait trace result) :
      ZipTrace trace
  | fileExists {zipPath filename : Bytes} {trace : List (Exchange Call.Answer)} {result : Bool}
      (returns : (fileExistsInZip zipPath filename).Returns .zipOpen trace result) :
      ZipTrace trace

/-- Each of the three functions uses its archive and its sources correctly in
exactly those calls in which an archive to be created is opened, every source is
taken over and no `zip_close` fails. -/
theorem zip_handles_correct_iff {trace : List (Exchange Call.Answer)} (calls : ZipTrace trace) :
    ZipHandlesCorrect trace ↔ ∀ exchange ∈ trace, exchange.1.ZipServed exchange.2 := by
  apply (replay_eq_empty_iff (handleOps Call.zipOps trace)).symm.trans
  cases calls with
  | @append fileName content zipPath password _ _ returns =>
      have fine : AppendPc.ZipFine .semWait ∅ := rfl
      exact (append_loses fileName content zipPath password).even_iff fine returns
  | @create files localDir zipPath password _ _ returns =>
      have fine : CreateZipPc.ZipFine .semWait ∅ := rfl
      exact (create_loses files localDir zipPath password).even_iff fine returns
  | @fileExists zipPath filename _ _ returns =>
      have fine : FileExistsPc.ZipFine .zipOpen ∅ := rfl
      exact (file_exists_loses zipPath filename).even_iff fine returns

/-- A source is made and taken over by the archive, which is closed. -/
theorem append_handles_correct :
    ∃ trace, (appendToZip (ascii "b") (ascii "second") localZipPath zipPassphrase).Returns
      .semWait trace true ∧ historyOf (.source, 1) (handleOps Call.zipOps trace) ≠ [] ∧
        ZipHandlesCorrect trace := by
  have found : ∃ turns result world', Returned (appendToZip (ascii "b") (ascii "second")
      localZipPath zipPassphrase) libraryEnv oneEntry turns result world' ∧
      (result && decide (
        historyOf (.source, 1) (handleOps Call.zipOps (turns.map Turn.exchange).reverse) ≠ [] ∧
          ∀ exchange ∈ (turns.map Turn.exchange).reverse,
            exchange.1.ZipServed exchange.2)) = true :=
    exists_returned_of_perform (smoothly 8) _ _ (by decide +kernel)
  obtain ⟨turns, result, world', returned, outcome⟩ := found
  obtain ⟨rfl, outcome⟩ := Bool.and_eq_true_iff.mp outcome
  obtain ⟨made, served⟩ := of_decide_eq_true outcome
  exact ⟨_, returned.returns, made, (zip_handles_correct_iff (.append returned.returns)).mpr served⟩

def unopenedTrace : List (Exchange Call.Answer) :=
  [⟨.semWait, ()⟩, ⟨.zipOpen localZipPath true, none⟩, ⟨.zipStrerror none, ()⟩, ⟨.semPost, ()⟩]

theorem unopened_returns (fileName content password : Bytes) :
    (appendToZip fileName content localZipPath password).Returns .semWait unopenedTrace false := by
  have post : (appendToZip fileName content localZipPath password).Returns (.semPost false)
      [⟨.semPost, ()⟩] false := .done rfl
  have report : (appendToZip fileName content localZipPath password).Returns .strerrorOpen
      [⟨.zipStrerror none, ()⟩, ⟨.semPost, ()⟩] false := .goto rfl post
  have opening : (appendToZip fileName content localZipPath password).Returns .zipOpen
      [⟨.zipOpen localZipPath true, none⟩, ⟨.zipStrerror none, ()⟩, ⟨.semPost, ()⟩] false :=
    .goto rfl report
  exact .goto rfl opening

/-- The archive cannot be opened, and `zip_strerror` is called with NULL. -/
theorem unopened_archive_misused :
    (appendToZip (ascii "a.txt") (ascii "data") localZipPath zipPassphrase).Returns .semWait
        unopenedTrace false ∧
      ¬ ZipHandlesCorrect unopenedTrace := by
  refine ⟨unopened_returns _ _ _, fun correct => ?_⟩
  rcases correct (.archive, 0) with never | ⟨uses, lived⟩
  · exact absurd never (by decide)
  · cases lived

end FileTransfer
