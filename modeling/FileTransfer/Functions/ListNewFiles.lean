import FileTransfer.Functions.DownloadFile
import FileTransfer.Pipeline.History
import FileTransfer.Pipeline.Listings
import Mathlib.Data.List.Nodup

/-!
# What a listing loses

`list_new_files` against a directory that does not change and a server that may
stop answering at any entry. The caller moves `last_run` on whatever has been
collected by then.
-/

namespace FileTransfer

set_option autoImplicit false

open Interaction

structure RemoteDirectory where
  entries : List Attributes
  distinct : (entries.map (·.name)).Nodup

/-- `stream` is what `sftp_readdir` has still to return. -/
structure ListingWorld where
  base : World
  stream : List Attributes

/-- `sftp_readdir` returns the entries one after the other; it may fail at any
of them, and reports the end of the directory only there. -/
def RemoteDirectory.respond (directory : RemoteDirectory) (world : ListingWorld) :
    (call : Call) → call.Answer → Option ListingWorld
  | .sftpOpendir _, true => some { world with stream := directory.entries }
  | .sftpReaddir, .entry attributes =>
      if world.stream.head? = some attributes then
        some { world with stream := world.stream.tail }
      else none
  | .sftpReaddir, .eof => if world.stream.isEmpty then some world else none
  | .sftpReaddir, .error => some world
  | call, answer => (world.base.respond call answer).map fun base => { world with base := base }

def Call.lists : Call → Bool
  | .sftpOpendir _ | .sftpReaddir => true
  | _ => false

theorem RemoteDirectory.respond_elsewhere (directory : RemoteDirectory)
    {before after : ListingWorld} {call : Call} {answer : call.Answer}
    (responds : directory.respond before call answer = some after)
    (elsewhere : call.lists = false) :
    before.base.respond call answer = some after.base ∧ after.stream = before.stream := by
  have mapped : (before.base.respond call answer).map
      (fun base => { before with base := base }) = some after := by
    cases call with
    | sftpOpendir path | sftpReaddir => cases elsewhere
    | _ => exact responds
  obtain ⟨base, answered, rfl⟩ := Option.map_eq_some_iff.mp mapped
  exact ⟨answered, rfl⟩

theorem RemoteDirectory.respond_opendir (directory : RemoteDirectory)
    {before after : ListingWorld} {path : Bytes} {opens : Bool}
    (responds : directory.respond before (.sftpOpendir path) opens = some after) :
    after = if opens then { before with stream := directory.entries } else before := by
  cases opens with
  | true => exact (Option.some.inj responds).symm
  | false => exact (Option.some.inj responds).symm

theorem RemoteDirectory.respond_entry (directory : RemoteDirectory)
    {before after : ListingWorld} {attributes : Attributes}
    (responds : directory.respond before .sftpReaddir (.entry attributes) = some after) :
    before.stream.head? = some attributes ∧
      after = { before with stream := before.stream.tail } := by
  simp only [RemoteDirectory.respond] at responds
  split at responds
  · rename_i next
    exact ⟨next, (Option.some.inj responds).symm⟩
  · cases responds

theorem RemoteDirectory.respond_stop (directory : RemoteDirectory)
    {before after : ListingWorld} (answer : Readdir)
    (stops : ∀ attributes, answer ≠ .entry attributes)
    (responds : directory.respond before .sftpReaddir answer = some after) : after = before := by
  cases answer with
  | entry attributes => exact absurd rfl (stops attributes)
  | eof =>
      simp only [RemoteDirectory.respond] at responds
      split at responds
      · exact (Option.some.inj responds).symm
      · cases responds
  | error => exact (Option.some.inj responds).symm

abbrev directoryEnv (directory : RemoteDirectory) : Env Call.Answer where
  World := ListingWorld
  Move := Empty
  respond := directory.respond
  move := nofun

section

variable {path : Bytes} {lastRun : Nat}

/-- The entries `file_exists_in_zip` has asked libzip about, newest first, and
whether the archive could be opened and searched. -/
def lookups (trace : List (Turn (listNewFiles path lastRun))) : List (Attributes × Bool) :=
  trace.filterMap fun turn => match turn with
    | ⟨.fileExists _ attributes .zipOpen, none⟩ => some (attributes, false)
    | ⟨.fileExists _ attributes (.zipNameLocate _), searched⟩ => some (attributes, searched)
    | _ => none

/-- The name leads to some entry of the archive. `zip_name_locate` is called
without flags: it need not be the entry's own name. -/
def Attributes.located (attributes : Attributes) (entries : List Entry) : Bool :=
  ((Zip.opened entries).nameLocate attributes.name .guess).isSome

def takenFor (entries : List Entry) (lookup : Attributes × Bool) : Bool :=
  lookup.2 && lookup.1.located entries

def unfound (entries : List Entry) (lookups : List (Attributes × Bool)) : List Attributes :=
  (lookups.reverse.filter (!takenFor entries ·)).map (·.1)

/-- The entries `looked`, newest first, are those new ones that come before the
rest of the stream. -/
def Scanned (directory : RemoteDirectory) (lastRun : Nat) (looked stream : List Attributes) :
    Prop :=
  ∃ shown, directory.entries = shown ++ stream ∧
    looked.reverse = shown.filter (·.isNew lastRun)

/-- Where a listing stands, `new_files` are the entries looked up in vain. -/
def ListPc.Scans (directory : RemoteDirectory) (lastRun : Nat) (entries : List Entry)
    (lookups : List (Attributes × Bool)) (stream : List Attributes) : ListPc → Prop
  | .sftpOpendir | .errorOpendir => lookups = []
  | .sftpReaddir newFiles | .sftpAttributesFree newFiles | .sftpClosedir newFiles =>
      newFiles = (unfound entries lookups).map (·.fullPath) ∧
        Scanned directory lastRun (lookups.map (·.1)) stream
  | .fileExists newFiles attributes .zipOpen =>
      newFiles = (unfound entries lookups).map (·.fullPath) ∧
        Scanned directory lastRun (attributes :: lookups.map (·.1)) stream
  | .fileExists newFiles attributes (.zipNameLocate opened) =>
      newFiles = (unfound entries lookups).map (·.fullPath) ∧ opened = entries ∧
        Scanned directory lastRun (attributes :: lookups.map (·.1)) stream
  | .fileExists newFiles attributes (.zipClose opened index) =>
      ∃ searched earlier, lookups = (attributes, searched) :: earlier ∧
        newFiles = (unfound entries earlier).map (·.fullPath) ∧ opened = entries ∧
        index.isSome = takenFor entries (attributes, searched) ∧
        Scanned directory lastRun (lookups.map (·.1)) stream

/-- What a listing comes to: the entries looked up in vain, each of them a new
one of the directory. -/
structure Collected (directory : RemoteDirectory) (lastRun : Nat) (entries : List Entry)
    (lookups : List (Attributes × Bool)) (result : Bool × List Bytes) : Prop where
  looked : List.Sublist (lookups.map (·.1)).reverse directory.entries
  result : checkForNewFiles result =
    if unfound entries lookups = [] then none
    else some ((unfound entries lookups).map (·.fullPath))

theorem Scanned.read {directory : RemoteDirectory} {looked stream : List Attributes}
    {attributes : Attributes} (scanned : Scanned directory lastRun looked stream)
    (next : stream.head? = some attributes) :
    Scanned directory lastRun
      (if attributes.isNew lastRun then attributes :: looked else looked) stream.tail := by
  obtain ⟨shown, whole, same⟩ := scanned
  refine ⟨shown ++ [attributes], ?_, ?_⟩
  · rw [whole, List.append_assoc]
    exact congrArg (shown ++ ·) (List.eq_cons_of_mem_head? next)
  · by_cases new : attributes.isNew lastRun = true
    · simp [same, new]
    · simp [same, new]

theorem Scanned.sublist {directory : RemoteDirectory} {looked stream : List Attributes}
    (scanned : Scanned directory lastRun looked stream) :
    List.Sublist looked.reverse directory.entries := by
  obtain ⟨shown, whole, same⟩ := scanned
  rw [same, whole]
  exact List.filter_sublist.trans (List.sublist_append_left shown stream)

theorem unfound_cons (entries : List Entry) (lookup : Attributes × Bool)
    (earlier : List (Attributes × Bool)) :
    unfound entries (lookup :: earlier) =
      if takenFor entries lookup then unfound entries earlier
      else unfound entries earlier ++ [lookup.1] := by
  cases taken : takenFor entries lookup <;> simp [unfound, taken]

theorem collected_nothing (directory : RemoteDirectory) (entries : List Entry) :
    Collected directory lastRun entries [] (false, []) where
  looked := List.nil_sublist _
  result := rfl

theorem collected_closed {directory : RemoteDirectory} {entries : List Entry}
    {lookups : List (Attributes × Bool)} {stream : List Attributes} {newFiles : List Bytes}
    (same : newFiles = (unfound entries lookups).map (·.fullPath))
    (scanned : Scanned directory lastRun (lookups.map (·.1)) stream) :
    Collected directory lastRun entries lookups (!newFiles.isEmpty, newFiles) where
  looked := scanned.sublist
  result := by
    subst same
    cases unfound entries lookups <;> rfl

theorem listing_contract (directory : RemoteDirectory) (world : ListingWorld) :
    Contract (listNewFiles path lastRun) (directoryEnv directory)
      (fun trace pc now => now.base.localZip = world.base.localZip ∧
        pc.Scans directory lastRun world.base.entries (lookups trace) now.stream)
      (fun trace result _ =>
        Collected directory lastRun world.base.entries (lookups trace) result) := by
  rintro trace pc answer before after ⟨kept, scans⟩ responds
  have elsewhere : (pc.call path).lists = false →
      before.base.respond (pc.call path) answer = some after.base ∧
        after.stream = before.stream := directory.respond_elsewhere responds
  have quiet : (pc.call path).lists = false → (pc.call path).touches = false →
      after.base.localZip = world.base.localZip :=
    fun other touches => (World.respond_quiet (elsewhere other).1 touches).1.trans kept
  cases pc with
  | sftpOpendir =>
      have opened := directory.respond_opendir responds
      have nothing : lookups trace = [] := scans
      cases answer with
      | false =>
          cases opened
          exact ⟨kept, nothing⟩
      | true =>
          cases opened
          refine ⟨kept, ?_, ?_⟩
          · change [] = (unfound _ (lookups trace)).map _
            rw [nothing]
            rfl
          · change Scanned _ _ ((lookups trace).map _) _
            rw [nothing]
            exact ⟨[], rfl, rfl⟩
  | errorOpendir =>
      have nothing : lookups trace = [] := scans
      change Collected _ _ _ (lookups trace) _
      rw [nothing]
      exact collected_nothing _ _
  | sftpReaddir newFiles =>
      obtain ⟨same, scanned⟩ := scans
      cases answer with
      | entry attributes =>
          obtain ⟨next, rfl⟩ := directory.respond_entry responds
          have read := scanned.read next
          simp only [listNewFiles, ListPc.next]
          by_cases new : attributes.isNew lastRun = true
          · rw [if_pos new] at read ⊢
            exact ⟨kept, same, read⟩
          · rw [if_neg new] at read ⊢
            exact ⟨kept, same, read⟩
      | eof =>
          cases directory.respond_stop .eof (by simp) responds
          exact ⟨kept, same, scanned⟩
      | error =>
          cases directory.respond_stop .error (by simp) responds
          exact ⟨kept, same, scanned⟩
  | fileExists newFiles attributes pc =>
      cases pc with
      | zipOpen =>
          obtain ⟨same, scanned⟩ := scans
          obtain ⟨answered, stream⟩ := elsewhere rfl
          rw [← stream] at scanned
          cases answer with
          | none =>
              refine ⟨quiet rfl rfl, ?_, scanned⟩
              change _ = (unfound _ ((attributes, false) :: lookups trace)).map _
              rw [unfound_cons, same]
              simp [takenFor]
          | some opened =>
              have found := World.respond_zip_open localZipPath answered
              exact ⟨quiet rfl rfl, same, found.trans (World.entries_congr kept), scanned⟩
      | zipNameLocate opened =>
          obtain ⟨same, rfl, scanned⟩ := scans
          obtain ⟨_, stream⟩ := elsewhere rfl
          rw [← stream] at scanned
          cases answer with
          | false => exact ⟨quiet rfl rfl, false, _, rfl, same, rfl, rfl, scanned⟩
          | true => exact ⟨quiet rfl rfl, true, _, rfl, same, rfl, rfl, scanned⟩
      | zipClose opened index =>
          obtain ⟨searched, earlier, looked, same, rfl, found, scanned⟩ := scans
          obtain ⟨answered, stream⟩ := elsewhere rfl
          rw [← stream] at scanned
          have unchanged : after.base.localZip = world.base.localZip := by
            rw [World.respond_close_opened answered, kept]
          cases index with
          | none =>
              refine ⟨unchanged, ?_, scanned⟩
              change newFiles ++ [attributes.fullPath] = (unfound _ (lookups trace)).map _
              simp [looked, unfound_cons, ← found, same]
          | some position =>
              refine ⟨unchanged, ?_, scanned⟩
              change newFiles = (unfound _ (lookups trace)).map _
              rw [looked, unfound_cons, ← found, same]
              rfl
  | sftpAttributesFree newFiles =>
      obtain ⟨same, scanned⟩ := scans
      obtain ⟨_, stream⟩ := elsewhere rfl
      rw [← stream] at scanned
      exact ⟨quiet rfl rfl, same, scanned⟩
  | sftpClosedir newFiles =>
      obtain ⟨same, scanned⟩ := scans
      exact collected_closed same scanned

/-- A new regular entry whose name the archive does not have. -/
def Attributes.Due (attributes : Attributes) (lastRun : Nat) (entries : List Entry) : Prop :=
  attributes.isNew lastRun = true ∧ ∀ entry ∈ entries, entry.name ≠ attributes.name

/-- Reported once, or still newer than `last_run` after the iteration. -/
def InSight (vars : DownloadVars) (time : Nat) (result : Bool × List Bytes)
    (attributes : Attributes) : Prop :=
  ((checkForNewFiles result).getD []).count attributes.fullPath = 1 ∨
    ∃ lastRun, (DownloadPc.listed vars time (checkForNewFiles result)).lastRun = some lastRun ∧
      lastRun < attributes.mtime

/-- Not looked up, since the listing broke off before it, or taken for an entry
of the archive. -/
def Overlooked (entries : List Entry) (lookups : List (Attributes × Bool))
    (attributes : Attributes) : Prop :=
  ∀ lookup ∈ lookups, lookup.1 = attributes → takenFor entries lookup = true

theorem mem_unfound {entries : List Entry} {lookups : List (Attributes × Bool)}
    {attributes : Attributes} :
    attributes ∈ unfound entries lookups ↔ ¬ Overlooked entries lookups attributes := by
  constructor
  · intro member overlooked
    obtain ⟨lookup, looked, rfl⟩ := List.mem_map.mp member
    obtain ⟨looked, missing⟩ := List.mem_filter.mp looked
    rw [overlooked lookup (List.mem_reverse.mp looked) rfl] at missing
    cases missing
  · intro seen
    simp only [Overlooked, not_forall] at seen
    obtain ⟨lookup, looked, rfl, missing⟩ := seen
    apply List.mem_map_of_mem
    rw [List.mem_filter, List.mem_reverse]
    exact ⟨looked, by simpa using missing⟩

theorem unfound_eq_nil {entries : List Entry} {lookups : List (Attributes × Bool)} :
    unfound entries lookups = [] ↔ ∀ lookup ∈ lookups, takenFor entries lookup = true := by
  simp [unfound, List.filter_eq_nil_iff]

theorem full_path_injective {first second : Attributes} (same : first.fullPath = second.fullPath) :
    first.name = second.name := List.append_cancel_left same

theorem Collected.count_eq_one {directory : RemoteDirectory} {entries : List Entry}
    {lookups : List (Attributes × Bool)} {result : Bool × List Bytes} {attributes : Attributes}
    (collected : Collected directory lastRun entries lookups result)
    (member : attributes ∈ directory.entries) :
    ((unfound entries lookups).map (·.fullPath)).count attributes.fullPath = 1 ↔
      ¬ Overlooked entries lookups attributes := by
  have part : List.Sublist (unfound entries lookups) directory.entries := by
    apply List.Sublist.trans _ collected.looked
    rw [← List.map_reverse]
    exact List.filter_sublist.map _
  rw [← mem_unfound]
  constructor
  · intro once
    have there : attributes.fullPath ∈ (unfound entries lookups).map (·.fullPath) := by
      apply List.count_pos_iff.mp
      omega
    obtain ⟨other, found, same⟩ := List.mem_map.mp there
    have itself : other = attributes :=
      List.inj_on_of_nodup_map directory.distinct (part.subset found) member
        (full_path_injective same)
    exact itself ▸ found
  · intro found
    refine List.count_eq_one_of_mem ?_ (List.mem_map_of_mem found)
    have names : ((unfound entries lookups).map (·.name)).Nodup :=
      directory.distinct.sublist (part.map _)
    have paths : (unfound entries lookups).map (·.fullPath) =
        ((unfound entries lookups).map (·.name)).map (remote1CollectDir ++ ·) := by
      rw [List.map_map]
      rfl
    rw [paths]
    exact names.map fun _ _ same => List.append_cancel_left same

end

theorem listed_last_run (vars : DownloadVars) (time : Nat) (newFiles : Option (List Bytes)) :
    (DownloadPc.listed vars time newFiles).lastRun =
      some (if newFiles.isSome then time else vars.lastRun) := by
  cases newFiles with
  | none => rfl
  | some newFiles =>
      simp only [DownloadPc.listed]
      split
      · rfl
      · exact loop_last_run _ _ _

/-- An iteration loses no entry of the directory just if it reports nothing,
since all it has read was found in the archive, or whatever it has not read or
has taken for an entry of the archive is newer than the iteration itself. -/
theorem listing_loses_nothing_iff (directory : RemoteDirectory) (vars : DownloadVars) (time : Nat)
    {world world' : ListingWorld} {result : Bool × List Bytes}
    {trace : List (Turn (listNewFiles remote1CollectDir vars.lastRun))}
    (returned : Returned (listNewFiles remote1CollectDir vars.lastRun) (directoryEnv directory)
      world trace result world') :
    (∀ attributes ∈ directory.entries, attributes.Due vars.lastRun world.base.entries →
      InSight vars time result attributes) ↔
      (∀ lookup ∈ lookups trace, takenFor world.base.entries lookup = true) ∨
        ∀ attributes ∈ directory.entries, attributes.Due vars.lastRun world.base.entries →
          Overlooked world.base.entries (lookups trace) attributes → time < attributes.mtime := by
  have collected := (listing_contract directory world).returned ⟨rfl, rfl⟩ returned
  rw [← unfound_eq_nil]
  by_cases nothing : unfound world.base.entries (lookups trace) = []
  · have unreported : checkForNewFiles result = none := by rw [collected.result, if_pos nothing]
    apply iff_of_true _ (.inl nothing)
    intro attributes _ due
    refine .inr ⟨vars.lastRun, ?_, ?_⟩
    · rw [unreported]
      rfl
    · exact of_decide_eq_true (Bool.and_eq_true_iff.mp due.1).2
  · rw [or_iff_right nothing]
    have reported : checkForNewFiles result =
        some ((unfound world.base.entries (lookups trace)).map (·.fullPath)) := by
      rw [collected.result, if_neg nothing]
    have inSight : ∀ attributes ∈ directory.entries, (InSight vars time result attributes ↔
        (Overlooked world.base.entries (lookups trace) attributes → time < attributes.mtime)) := by
      intro attributes member
      rw [InSight, listed_last_run, reported, Option.getD_some, collected.count_eq_one member,
        imp_iff_not_or]
      simp
    constructor
    · intro kept attributes member due
      exact (inSight attributes member).mp (kept attributes member due)
    · intro newer attributes member due
      exact (inSight attributes member).mpr (newer attributes member due)

def twoFiles : RemoteDirectory where
  entries := [⟨ascii "a", .regular, 10⟩, ⟨ascii "b", .regular, 11⟩]
  distinct := by decide

def listsSmoothly (count : Nat) : List (ListingWorld → (call : Call) → Option call.Answer) :=
  List.replicate count fun world call => match call with
    | .sftpReaddir => some (world.stream.head?.elim .eof .entry)
    | call => some (world.base.smooth plainLayout call)

def readdirFails : ListingWorld → (call : Call) → Option call.Answer :=
  fun _ call => match call with
    | .sftpReaddir => some .error
    | _ => none

/-- Both are listed and reported. -/
theorem listing_loses_nothing_two_files :
    ∃ trace result world',
      Returned (listNewFiles remote1CollectDir 5) (directoryEnv twoFiles)
        ⟨⟨1, true, none, none, []⟩, []⟩ trace result world' ∧
      checkForNewFiles result = some (twoFiles.entries.map (·.fullPath)) ∧
      ∀ attributes ∈ twoFiles.entries, attributes.Due 5 [] →
        InSight ⟨[], ([], []), 5⟩ 20 result attributes := by
  have found : ∃ trace result world',
      Returned (listNewFiles remote1CollectDir 5) (directoryEnv twoFiles)
        ⟨⟨1, true, none, none, []⟩, []⟩ trace result world' ∧
      decide (checkForNewFiles result = some (twoFiles.entries.map (·.fullPath)) ∧
        lookups trace = twoFiles.entries.reverse.map (·, false)) = true :=
    exists_returned_of_perform (listsSmoothly 9) _ _ (by decide +kernel)
  obtain ⟨trace, result, world', returned, outcome⟩ := found
  obtain ⟨reported, looked⟩ := of_decide_eq_true outcome
  refine ⟨trace, result, world', returned, reported, ?_⟩
  apply (listing_loses_nothing_iff twoFiles ⟨[], ([], []), 5⟩ 20 returned).mpr
  right
  intro attributes member _ overlooked
  rw [looked] at overlooked
  have there : (attributes, false) ∈ twoFiles.entries.reverse.map (·, false) :=
    List.mem_map_of_mem (List.mem_reverse.mpr member)
  exact absurd (overlooked _ there rfl) Bool.false_ne_true

/-- The server fails after the first file: the second is neither reported nor
newer than the clock. -/
theorem broken_listing_loses_file :
    ¬ ∀ (directory : RemoteDirectory) (vars : DownloadVars) (time : Nat)
        (world world' : ListingWorld) (result : Bool × List Bytes)
        (trace : List (Turn (listNewFiles remote1CollectDir vars.lastRun))),
      Returned (listNewFiles remote1CollectDir vars.lastRun) (directoryEnv directory) world
        trace result world' →
      ∀ attributes ∈ directory.entries, attributes.Due vars.lastRun world.base.entries →
        InSight vars time result attributes := by
  intro kept
  have found : ∃ trace result world',
      Returned (listNewFiles remote1CollectDir 5) (directoryEnv twoFiles)
        ⟨⟨1, true, none, none, []⟩, []⟩ trace result world' ∧
      decide (checkForNewFiles result = some [remote1CollectDir ++ ascii "a"]) = true :=
    exists_returned_of_perform (listsSmoothly 4 ++ [readdirFails] ++ listsSmoothly 1) _ _
      (by decide +kernel)
  obtain ⟨trace, result, world', returned, outcome⟩ := found
  have reported := of_decide_eq_true outcome
  have inSight := kept twoFiles ⟨[], ([], []), 5⟩ 20 _ world' result trace returned
    ⟨ascii "b", .regular, 11⟩ (by decide) ⟨by decide, nofun⟩
  rw [InSight, listed_last_run, reported] at inSight
  rcases inSight with once | ⟨lastRun, moved, newer⟩
  · exact absurd once (by decide)
  · cases moved
    exact absurd newer (by decide)

end FileTransfer
