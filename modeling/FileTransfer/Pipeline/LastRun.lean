import FileTransfer.Pipeline.RemoteHost
import FileTransfer.Pipeline.Rounds

/-!
# `last_run` and the clock

`last_run` never runs ahead of the clock, and never falls behind the `now` of
an iteration that reported something.
-/

namespace FileTransfer

set_option autoImplicit false

open Interaction

structure Books.Dated (books : Books) (listings : Listings) (clock : Nat) : Prop where
  lastRun : books.lastRun ≤ clock
  reports : ∀ report ∈ listings.reports, report.2 ≤ books.lastRun

def Position.Dated (listings : Listings) (world : HostWorld) : Position → Prop
  | .before => listings.reports = []
  | .idle books | .file books _ _ _ => books.Dated listings world.clock
  | .listing books time _ _ =>
      books.Dated listings world.clock ∧ books.lastRun ≤ time ∧ time ≤ world.clock
  | .after => True

theorem Books.Dated.mono {books : Books} {listings listings' : Listings} {clock clock' : Nat}
    (dated : books.Dated listings clock) (reports : listings'.reports = listings.reports)
    (later : clock ≤ clock') : books.Dated listings' clock' := by
  obtain ⟨lastRun, dates⟩ := dated
  refine ⟨Nat.le_trans lastRun later, ?_⟩
  rw [reports]
  exact dates

theorem Position.Dated.mono {position : Position} {listings listings' : Listings}
    {world world' : HostWorld} (dated : position.Dated listings world)
    (reports : listings'.reports = listings.reports) (later : world.clock ≤ world'.clock) :
    position.Dated listings' world' := by
  cases position with
  | before => exact reports.trans dated
  | idle books | file books file todo done => exact Books.Dated.mono dated reports later
  | listing books time newFiles looking =>
      obtain ⟨dated, advances, sampled⟩ := dated
      exact ⟨dated.mono reports later, advances, Nat.le_trans sampled later⟩
  | after => trivial

theorem Position.dated_loop {listings : Listings} {world : HostWorld} {books : Books}
    (dated : books.Dated listings world.clock) (done todo : List Bytes) :
    (Position.loop books done todo).Dated listings world := by
  cases todo with
  | nil => exact ⟨dated.lastRun, dated.reports⟩
  | cons file todo => exact dated

theorem dated_download_step {listings : Listings} {world world' : HostWorld} {pc : DownloadPc}
    {answer : (pc.call remoteHost1).Answer} {position : Position}
    (responds : world.respond (pc.call remoteHost1) answer = some world')
    (before : pc.position.Dated listings world) (steps : RoundStep pc answer position) :
    position.Dated (listings.recordDownload pc answer) world' := by
  have clock : world'.clock = world.clock := (HostWorld.respond_kept responds).clock
  have later : world.clock ≤ world'.clock := Nat.le_of_eq clock.symm
  cases steps with
  | stays quiet => exact before.mono (quiet.reports listings) later
  | leaves quiet => trivial
  | @enters time =>
      have now : time = world.clock := HostWorld.respond_now responds
      have none : listings.reports = [] := before
      refine ⟨Nat.le_of_eq (now.trans clock.symm), ?_⟩
      intro report member
      change report ∈ listings.reports at member
      rw [none] at member
      cases member
  | @samples vars time =>
      have now : time = world.clock := HostWorld.respond_now responds
      have dated : vars.books.Dated listings world.clock := before
      refine ⟨dated.mono rfl later, ?_, ?_⟩
      · rw [now]
        exact dated.lastRun
      · rw [now]
        exact later
  | skips | shows | finds =>
      obtain ⟨dated, advances, sampled⟩ := before
      exact ⟨dated.mono rfl later, advances, Nat.le_trans sampled later⟩
  | misses next quiet =>
      obtain ⟨dated, advances, sampled⟩ := before
      exact ⟨dated.mono (quiet.reports listings) later, advances, Nat.le_trans sampled later⟩
  | passes nothing looked quiet => exact before.1.mono (quiet.reports listings) later
  | @reports vars time newFiles answer found =>
      obtain ⟨dated, advances, sampled⟩ := before
      refine Position.dated_loop ⟨Nat.le_trans sampled later, ?_⟩ [] _
      intro report member
      rcases List.mem_append.mp member with new | old
      · obtain ⟨path, _, rfl⟩ := List.mem_map.mp new
        exact Nat.le_refl _
      · exact Nat.le_trans (dated.reports report old) advances
  | @appends vars file todo done =>
      have dated : vars.books.Dated listings world.clock := before
      have after : vars.books.Dated (listings.recordDownload
        (.append vars file todo done (.semPost true)) ()) world'.clock := dated.mono rfl later
      exact Position.dated_loop after _ _
  | breaks stands quiet =>
      rw [stands] at before
      exact Position.dated_loop (Books.Dated.mono before (quiet.reports listings) later) _ _

theorem HostWorld.move_clock {world world' : HostWorld} {move : HostMove}
    (moves : world.move move = some world') : world.clock ≤ world'.clock := by
  cases move with
  | tick =>
      cases moves
      exact Nat.le_succ _
  | sigint | write | remove =>
      cases moves
      exact Nat.le_refl _

theorem dated {localZip : Option ZipFile} {ok : PipelineCondition hostEnv}
    {trace : List (PipelineEvent hostEnv)} {state : PipelineState hostEnv}
    (run : PipelineRun hostEnv ok (HostStarted localZip) trace state) :
    ∀ pc : DownloadPc, state.left = some pc →
      pc.position.Dated (listings trace) state.world := by
  refine position_invariant (fun _ started => started.1)
    (fun listings world position => position.Dated listings world) ?_ ?_ ?_ ?_ run
  · intro state _
    rfl
  · intro trace pc answer right world world' position _ _ responds before steps
    exact dated_download_step responds before steps
  · intro trace pc answer downloader world world' _ responds before
    exact before.mono rfl (Nat.le_of_eq (HostWorld.respond_kept responds).clock.symm)
  · intro trace move downloader right world world' _ _ moves before
    exact before.mono rfl (HostWorld.move_clock moves)

end FileTransfer
