import FileTransfer.Archive.Commit
import FileTransfer.Pipeline.LastRun

/-!
# A newer version of a file the archive still has

The name of the file is in the archive, so the listing leaves it out. Whether it
can still be listed later depends on the other files: `last_run` moves as soon
as any of them is new.
-/

namespace FileTransfer

set_option autoImplicit false

open Interaction

theorem Listings.unfound_eq_nil {listings : Listings} :
    listings.unfound = [] ↔ ∀ lookup ∈ listings.lookups, lookup.index.isSome = true := by
  simp only [Listings.unfound, List.map_eq_nil_iff, List.reverse_eq_nil_iff,
    List.filter_eq_nil_iff, Option.isNone_iff_eq_none, Option.isSome_iff_ne_none, ne_eq]

/-- The archive looked at holds what the host had written of the file in an
earlier second. -/
def Lookup.StoredOlder (written : List RemoteFile) (lookup : Lookup) : Prop :=
  ∃ index entry version, lookup.index = some index ∧ lookup.opened[index]? = some entry ∧
    version ∈ written ∧ entry.stored = (version.name.val, version.content) ∧
      version.name.val = lookup.attributes.name ∧ version.mtime < lookup.attributes.mtime

section

variable {env : Env Call.Answer}

/-- What `sftp_readdir` has returned since the directory was last opened. -/
def shownLast (trace : List (PipelineEvent env)) : List Attributes :=
  trace.foldr (fun event shown => match event with
    | .left (.listing _ _ .sftpOpendir) _ => []
    | .left (.listing _ _ (.sftpReaddir _)) (.entry attributes) => attributes :: shown
    | _ => shown) []

def LookedUp (lookups : List Lookup) (attributes : Attributes) : Prop :=
  ∃ lookup ∈ lookups, lookup.attributes = attributes

/-- In a listing the archive has been asked for every new entry, except for the
one at hand. -/
def DownloadPc.LooksUp (lookups : List Lookup) (shown : List Attributes) : DownloadPc → Prop
  | .listing vars _ (.sftpReaddir _) | .listing vars _ (.sftpAttributesFree _)
  | .listing vars _ (.sftpClosedir _) =>
      ∀ attributes ∈ shown, attributes.isNew vars.lastRun = true → LookedUp lookups attributes
  | .listing vars _ (.fileExists _ current _) =>
      ∀ attributes ∈ shown, attributes.isNew vars.lastRun = true →
        attributes = current ∨ LookedUp lookups attributes
  | _ => True

@[simp] theorem loop_looks_up (lookups : List Lookup) (shown : List Attributes)
    (vars : DownloadVars) (done todo : List Bytes) :
    (DownloadPc.loop vars done todo).LooksUp lookups shown := by
  cases todo <;> trivial

@[simp] theorem listed_looks_up (lookups : List Lookup) (shown : List Attributes)
    (vars : DownloadVars) (time : Nat) (newFiles : Option (List Bytes)) :
    (DownloadPc.listed vars time newFiles).LooksUp lookups shown :=
  DownloadPc.listed_elim (motive := fun pc => pc.LooksUp lookups shown)
    (fun _ => trivial) (fun _ _ _ _ => trivial) vars time newFiles

theorem looked_up_now {lookups : List Lookup} {shown : List Attributes} {lastRun : Nat}
    {current : Attributes}
    (before : ∀ attributes ∈ shown, attributes.isNew lastRun = true →
      attributes = current ∨ LookedUp lookups attributes)
    (opened : List Entry) (index : Option Nat) :
    ∀ attributes ∈ shown, attributes.isNew lastRun = true →
      LookedUp (⟨current, opened, index⟩ :: lookups) attributes := by
  intro attributes among new
  rcases before attributes among new with rfl | ⟨lookup, earlier, same⟩
  · exact ⟨_, List.mem_cons_self, rfl⟩
  · exact ⟨lookup, List.mem_cons_of_mem _ earlier, same⟩

theorem looks_up_step {trace : List (PipelineEvent env)} {pc : DownloadPc}
    (answer : (pc.call remoteHost1).Answer)
    (before : pc.LooksUp (listings trace).lookups (shownLast trace)) :
    (pc.next remoteHost1 answer).Meets
      (fun pc' => pc'.LooksUp (listings (.left pc answer :: trace)).lookups
        (shownLast (.left pc answer :: trace))) fun _ => True := by
  cases pc with
  | listing vars time pc =>
      cases pc with
      | sftpOpendir =>
          cases answer with
          | false => trivial
          | true => exact nofun
      | sftpReaddir newFiles =>
          cases answer with
          | entry current =>
              simp only [DownloadPc.next, ListPc.next]
              by_cases new : current.isNew vars.lastRun = true
              · rw [if_pos new]
                intro attributes among isNew
                rcases List.mem_cons.mp among with rfl | earlier
                · exact .inl rfl
                · exact .inr (before attributes earlier isNew)
              · rw [if_neg new]
                intro attributes among isNew
                rcases List.mem_cons.mp among with rfl | earlier
                · exact absurd isNew new
                · exact before attributes earlier isNew
          | eof | error => exact before
      | fileExists newFiles current pc =>
          cases pc with
          | zipOpen =>
              cases answer with
              | none => exact looked_up_now before [] none
              | some opened => exact before
          | zipNameLocate opened => cases answer <;> exact before
          | zipClose opened index =>
              have looked := looked_up_now before opened index
              cases index <;> exact looked
      | sftpAttributesFree newFiles => exact before
      | errorOpendir | sftpClosedir =>
          simp only [DownloadPc.next, ListPc.next, Next.meets_goto]
          exact listed_looks_up _ _ _ _ _
  | append vars file todo done pc =>
      simp only [DownloadPc.next]
      split
      · trivial
      · exact loop_looks_up _ _ _ _ _
      · trivial
  | readRunning vars => cases answer <;> trivial
  | session pc | sftp pc | fileSize vars file todo done | download vars file todo done pc =>
      simp only [DownloadPc.next]
      split <;> trivial
  | _ => trivial

variable {ok : PipelineCondition env} {init : PipelineState env → Prop}

theorem looks_up (starts : ∀ state, init state → state.left = some downloadThread.start)
    {trace : List (PipelineEvent env)} {state : PipelineState env}
    (run : PipelineRun env ok init trace state) :
    ∀ pc, state.left = some pc →
      DownloadPc.LooksUp (listings trace).lookups (shownLast trace) pc := by
  refine run.invariant (fun trace state => ∀ pc, state.left = some pc →
    DownloadPc.LooksUp (listings trace).lookups (shownLast trace) pc) ?_ ?_
  · intro state initially pc stands
    rw [starts state initially] at stands
    cases stands
    trivial
  · intro trace state event state' _ before _ steps
    cases steps with
    | @left pc answer right world world' responds =>
        intro pc' stands
        exact (looks_up_step answer (before pc rfl)).resumes stands
    | right responds => exact before
    | move moves => exact before

/-- At its end a listing reports every new entry it was shown that the archive
did not have. -/
theorem shown_reported (starts : ∀ state, init state → state.left = some downloadThread.start)
    {trace : List (PipelineEvent env)} {vars : DownloadVars} {time : Nat} {newFiles : List Bytes}
    {right : Option UploadPc} {world : env.World}
    (run : PipelineRun env ok init trace
      ⟨some (.listing vars time (.sftpClosedir newFiles)), right, world⟩)
    {attributes : Attributes} (shown : attributes ∈ shownLast trace)
    (new : attributes.isNew vars.lastRun = true)
    (absent : ∀ again ∈ (listings trace).lookups, again.attributes = attributes →
      again.index = none) : attributes.fullPath ∈ newFiles := by
  obtain ⟨again, among, rfl⟩ := looks_up starts run _ rfl attributes shown new
  have listed : Listed (listings trace) vars.lastRun newFiles := listing_points starts run _ rfl
  rw [listed.newFiles, Listings.unfound]
  apply List.mem_map_of_mem
  rw [List.mem_reverse, List.mem_filter]
  exact ⟨among, Option.isNone_iff_eq_none.mpr (absent again among rfl)⟩

/-- An entry a listing has left out because its name was in the archive is still
eligible after that listing if and only if the archive had the names of all
entries the listing looked up, or the entry is stamped after the `now` read
before the listing. And while it is eligible, a listing that is shown it again
reports it once its name is not in the archive any more. -/
theorem newer_version_eligible_iff
    (starts : ∀ state, init state → state.left = some downloadThread.start)
    {trace : List (PipelineEvent env)} {state : PipelineState env}
    {vars : DownloadVars} {time : Nat} {newFiles : List Bytes} {closed : Bool}
    (run : PipelineRun env ok init
      (.left (.listing vars time (.sftpClosedir newFiles)) closed :: trace) state)
    {lookup : Lookup} (looked : lookup ∈ (listings trace).lookups) :
    vars.lastRun < lookup.attributes.mtime ∧
      (∃ pc lastRun, state.left = some pc ∧ DownloadPc.lastRun pc = some lastRun ∧
        (lastRun < lookup.attributes.mtime ↔
          (∀ other ∈ (listings trace).lookups, other.index.isSome = true) ∨
            time < lookup.attributes.mtime)) ∧
      ∀ later vars' time' newFiles' right world,
        PipelineRun env ok init later
          ⟨some (.listing vars' time' (.sftpClosedir newFiles')), right, world⟩ →
        lookup.attributes ∈ shownLast later → vars'.lastRun < lookup.attributes.mtime →
        (∀ again ∈ (listings later).lookups, again.attributes = lookup.attributes →
          again.index = none) → lookup.attributes.fullPath ∈ newFiles' := by
  cases run with
  | step before meets steps =>
      cases steps with
      | @left pc answer right world world' responds =>
          obtain ⟨found, isNew⟩ := listing_points starts before _ rfl
          have both := isNew lookup looked
          simp only [Attributes.isNew, Bool.and_eq_true, decide_eq_true_eq] at both
          obtain ⟨regular, new⟩ := both
          refine ⟨new, ?_, ?_⟩
          · have next := next_closedir remoteHost1 vars time newFiles closed
            by_cases nothing : newFiles = []
            · have all := Listings.unfound_eq_nil.mp (found.symm.trans nothing)
              rw [if_pos nothing] at next
              exact ⟨_, vars.lastRun, congrArg Next.resume next, rfl, iff_of_true new (.inl all)⟩
            · have others : ¬ ∀ other ∈ (listings trace).lookups, other.index.isSome = true :=
                fun all => nothing (found.trans (Listings.unfound_eq_nil.mpr all))
              rw [if_neg nothing] at next
              exact ⟨_, time, congrArg Next.resume next, loop_last_run _ _ _,
                (or_iff_right others).symm⟩
          · intro later vars' time' newFiles' right' world'' run' shown eligible absent
            apply shown_reported starts run' shown _ absent
            simp only [Attributes.isNew, Bool.and_eq_true, decide_eq_true_eq]
            exact ⟨regular, eligible⟩

end

/-- A file is stored, then written again, together with `others`, while its
archive is pending; the second listing is at its end. -/
def writtenAgain (others : List (Cue hostEnv)) (calls : Nat) : List (Cue hostEnv) :=
  downloadCalls 11 ++ uploadCalls 10 ++ seconds 1 ++ writes fileA (ascii "first") ++
    downloadCalls 21 ++ seconds 1 ++ writes fileA (ascii "later") ++ others ++ seconds 4 ++
    downloadCalls calls

def againA : Attributes := ⟨ascii "a", .regular, 2⟩

def lookupA : Lookup :=
  ⟨againA, [⟨ascii "a", ascii "first", .aes256 zipPassphrase⟩], some 0⟩

def againVars : DownloadVars := ⟨[], (ascii "a", ascii "first"), 1⟩

theorem written_again_run (others : List (Cue hostEnv)) (calls : Nat) (newFiles : List Bytes)
    (looked : List Lookup)
    (plays : (play (fun _ _ _ => true) (writtenAgain others calls) [] hostStart).any
      (fun ended => decide (
        ended.2.left = some (.listing againVars 6 (.sftpClosedir newFiles)) ∧
          (listings ended.1).lookups = looked ∧
            ⟨fileA, 1, ascii "first"⟩ ∈ ended.2.world.written)) = true) :
    ∃ trace state, PipelineRun hostEnv (anyStep _ _ _) (HostStarted none)
        (.left (.listing againVars 6 (.sftpClosedir newFiles)) true :: trace) state ∧
      (listings trace).lookups = looked ∧
        ⟨fileA, 1, ascii "first"⟩ ∈ state.world.written := by
  have found : ∃ trace state,
      PipelineRun hostEnv (anyStep _ _ _) (HostStarted none) trace state ∧
        decide (state.left = some (.listing againVars 6 (.sftpClosedir newFiles)) ∧
          (listings trace).lookups = looked ∧
            ⟨fileA, 1, ascii "first"⟩ ∈ state.world.written) = true :=
    exists_run_of_play (fun _ _ _ => true) (writtenAgain others calls) hostStart _
      (fun _ _ _ _ => trivial) host_start_started plays
  obtain ⟨trace, ⟨left, right, world⟩, run, outcome⟩ := found
  obtain ⟨stands, lookups, written⟩ := of_decide_eq_true outcome
  simp only at stands written
  subst stands
  have responds : hostEnv.respond world
      (downloadThread.call (.listing againVars 6 (.sftpClosedir newFiles))) true =
        some world := rfl
  exact ⟨trace, _, .step run trivial (.left responds), lookups, written⟩

/-- The archive has been uploaded and removed since, and the next listing is at
its end. -/
def collectedSince : List (Cue hostEnv) :=
  writtenAgain [] 11 ++ uploadCalls 12 ++ downloadCalls 8

theorem shown_again_run :
    ∃ trace right world, PipelineRun hostEnv (anyStep _ _ _) (HostStarted none) trace
        ⟨some (.listing againVars 6 (.sftpClosedir [remote1CollectDir ++ ascii "a"])),
          right, world⟩ ∧
      shownLast trace = [againA] ∧ (listings trace).lookups = [⟨againA, [], none⟩] := by
  have found : ∃ trace state,
      PipelineRun hostEnv (anyStep _ _ _) (HostStarted none) trace state ∧
        decide (state.left =
            some (.listing againVars 6 (.sftpClosedir [remote1CollectDir ++ ascii "a"])) ∧
          shownLast trace = [againA] ∧ (listings trace).lookups = [⟨againA, [], none⟩]) = true :=
    exists_run_of_play (fun _ _ _ => true) collectedSince hostStart _
      (fun _ _ _ _ => trivial) host_start_started (by decide +kernel)
  obtain ⟨trace, ⟨left, right, world⟩, run, outcome⟩ := found
  obtain ⟨stands, shown, lookups⟩ := of_decide_eq_true outcome
  simp only at stands
  subst stands
  exact ⟨trace, right, world, run, shown, lookups⟩

/-- Nothing else is new: the later version stays eligible, and is reported once
the archive is gone. -/
theorem newer_version_eligible_alone :
    (∃ trace state, PipelineRun hostEnv (anyStep _ _ _) (HostStarted none)
        (.left (.listing againVars 6 (.sftpClosedir [])) true :: trace) state ∧
      lookupA ∈ (listings trace).lookups ∧
        ∃ pc lastRun, state.left = some pc ∧ DownloadPc.lastRun pc = some lastRun ∧
          lastRun < lookupA.attributes.mtime) ∧
    ∃ trace newFiles right world, PipelineRun hostEnv (anyStep _ _ _) (HostStarted none) trace
        ⟨some (.listing againVars 6 (.sftpClosedir newFiles)), right, world⟩ ∧
      againA.fullPath ∈ newFiles := by
  obtain ⟨trace, state, run, lookups, _⟩ :=
    written_again_run [] 10 [] [lookupA] (by decide +kernel)
  have looked : lookupA ∈ (listings trace).lookups := by simp [lookups]
  obtain ⟨_, ⟨pc, lastRun, stands, last, eligible⟩, reported⟩ :=
    newer_version_eligible_iff (fun _ started => started.1) run looked
  constructor
  · refine ⟨trace, state, run, looked, pc, lastRun, stands, last, eligible.mpr (.inl ?_)⟩
    intro other member
    rw [lookups, List.mem_singleton] at member
    rw [member]
    rfl
  · obtain ⟨later, right, world, run', shown, absent⟩ := shown_again_run
    refine ⟨later, _, right, world, run', reported _ _ _ _ _ _ run' ?_ (by decide) ?_⟩
    · rw [shown]
      exact List.mem_singleton_self againA
    · intro again member _
      rw [absent, List.mem_singleton] at member
      rw [member]

def lookupB : Lookup :=
  ⟨⟨ascii "b", .regular, 2⟩, lookupA.opened, none⟩

/-- A second new file moves `last_run` past the later version. -/
theorem newer_version_passed_over :
    ¬ ∀ (trace : List (PipelineEvent hostEnv)) (state : PipelineState hostEnv)
        (vars : DownloadVars) (time : Nat) (newFiles : List Bytes) (closed : Bool)
        (lookup : Lookup),
      PipelineRun hostEnv (anyStep _ _ _) (HostStarted none)
        (.left (.listing vars time (.sftpClosedir newFiles)) closed :: trace) state →
      lookup ∈ (listings trace).lookups → lookup.index.isSome = true →
        lookup.StoredOlder state.world.written →
          ∃ pc lastRun, state.left = some pc ∧ DownloadPc.lastRun pc = some lastRun ∧
            lastRun < lookup.attributes.mtime := by
  intro eligible
  obtain ⟨trace, state, run, lookups, written⟩ :=
    written_again_run (writes fileB (ascii "second")) 15 [remote1CollectDir ++ ascii "b"]
      [lookupA, lookupB] (by decide +kernel)
  have looked : lookupA ∈ (listings trace).lookups := by simp [lookups]
  have older : lookupA.StoredOlder state.world.written :=
    ⟨0, ⟨ascii "a", ascii "first", .aes256 zipPassphrase⟩, ⟨fileA, 1, ascii "first"⟩, rfl, rfl,
      written, rfl, rfl, by decide⟩
  obtain ⟨pc, lastRun, stands, last, later⟩ :=
    eligible trace state _ _ _ _ lookupA run looked rfl older
  cases run with
  | step before meets steps =>
      cases steps with
      | left responds =>
          cases stands
          cases last
          exact absurd later (by decide)

end FileTransfer
