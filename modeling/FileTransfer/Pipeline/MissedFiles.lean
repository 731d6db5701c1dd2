import FileTransfer.Interaction.Poller
import FileTransfer.Pipeline.FreshFiles
import FileTransfer.Pipeline.LastRun

/-!
# Which files the listings miss

The routine is a poller: `last_run` is its mark, the files of the directory are
the items. `last_run` becomes the time read before the listing, and a file can
still get that stamp once the listing has passed; a listing that breaks off
early moves `last_run` past the files it did not come to. Such a file is missed
for good.
-/

namespace FileTransfer

set_option autoImplicit false

open Interaction

/-- Every write comes in a second after `last_run`, and every listing that finds
something leaves no file behind that is stamped up to its `now` and has not been
shown yet. -/
def InTime : PipelineCondition hostEnv :=
  fun trace state event => match event with
    | .move (.write _ _) =>
        (state.left.bind DownloadPc.lastRun).all
          (fun lastRun => decide (lastRun < state.world.clock)) = true
    | .left (.listing _ time (.sftpClosedir _)) _ =>
        (listings trace).unfound ≠ [] → ∀ file ∈ state.world.files,
          file.mtime ≤ time → file.attributes ∈ (listings trace).shown
    | _ => True

instance (trace : List (PipelineEvent hostEnv)) (state : PipelineState hostEnv)
    (event : PipelineEvent hostEnv) : Decidable (InTime trace state event) :=
  match event with
  | .move (.write _ _) => inferInstanceAs (Decidable (_ = true))
  | .move .sigint | .move .tick | .move (.remove _) | .right _ _ => inferInstanceAs (Decidable True)
  | .left (.listing _ _ pc) _ => match pc with
      | .sftpClosedir _ => inferInstanceAs (Decidable (_ → ∀ file ∈ state.world.files, _ → _))
      | .sftpOpendir | .errorOpendir | .sftpReaddir _ | .fileExists _ _ _
      | .sftpAttributesFree _ => inferInstanceAs (Decidable True)
  | .left (.session _) _ | .left (.sftp _) _ | .left .initialNow _ | .left (.readRunning _) _
  | .left (.now _) _ | .left (.fileSize _ _ _ _) _ | .left (.download _ _ _ _ _) _
  | .left (.append _ _ _ _ _) _ | .left (.sleep _) _ | .left .clearRunning _
  | .left .sftpFree _ | .left .sshDisconnect _ | .left .sshFree _ =>
      inferInstanceAs (Decidable True)

def FreshInTime (localZip : Option ZipFile) : PipelineCondition hostEnv :=
  fun trace state event => FreshWrites localZip trace state event ∧ InTime trace state event

instance (localZip : Option ZipFile) (trace : List (PipelineEvent hostEnv))
    (state : PipelineState hostEnv) (event : PipelineEvent hostEnv) :
    Decidable (FreshInTime localZip trace state event) :=
  inferInstanceAs (Decidable (_ ∧ _))

structure ShownNew (shown : List Attributes) (written : List RemoteFile) (lastRun : Nat)
    (file : RemoteFile) : Prop where
  written : file ∈ written
  shown : file.attributes ∈ shown
  new : lastRun < file.mtime

theorem ShownNew.mono {shown shown' : List Attributes} {written written' : List RemoteFile}
    {lastRun : Nat} {file : RemoteFile} (source : ShownNew shown written lastRun file)
    (more : shown ⊆ shown') (later : written ⊆ written') :
    ShownNew shown' written' lastRun file :=
  ⟨later source.written, more source.shown, source.new⟩

def Position.Sourced (shown : List Attributes) (written : List RemoteFile) : Position → Prop
  | .listing books _ newFiles looking =>
      (∀ path ∈ newFiles, ∃ file, path = file.path ∧
        ShownNew shown written books.lastRun file) ∧
      ∀ attributes, looking = some attributes → ∃ file, attributes = file.attributes ∧
        ShownNew shown written books.lastRun file
  | _ => True

/-- Every path reported or about to be is that of a file written and shown. -/
structure Sourced (listings : Listings) (written : List RemoteFile) (position : Position) :
    Prop where
  reported : ∀ path ∈ listings.reported,
    ∃ file ∈ written, path = file.path ∧ file.attributes ∈ listings.shown
  position : position.Sourced listings.shown written

theorem Position.Sourced.mono {position : Position} {shown shown' : List Attributes}
    {written written' : List RemoteFile} (sourced : position.Sourced shown written)
    (more : shown ⊆ shown') (later : written ⊆ written') : position.Sourced shown' written' := by
  cases position with
  | listing books time newFiles looking =>
      refine ⟨?_, ?_⟩
      · intro path member
        obtain ⟨file, same, source⟩ := sourced.1 path member
        exact ⟨file, same, source.mono more later⟩
      · intro attributes looks
        obtain ⟨file, same, source⟩ := sourced.2 attributes looks
        exact ⟨file, same, source.mono more later⟩
  | _ => trivial

theorem Sourced.move {listings : Listings} {written written' : List RemoteFile}
    {position : Position} (sourced : Sourced listings written position)
    (later : written ⊆ written') : Sourced listings written' position := by
  refine ⟨?_, sourced.position.mono (List.Subset.refl _) later⟩
  intro path member
  obtain ⟨file, there, same, seen⟩ := sourced.reported path member
  exact ⟨file, later there, same, seen⟩

theorem Sourced.unreported {listings listings' : Listings} {written : List RemoteFile}
    {position position' : Position} (sourced : Sourced listings written position)
    (reports : listings'.reports = listings.reports) (more : listings.shown ⊆ listings'.shown)
    (after : position'.Sourced listings'.shown written) : Sourced listings' written position' := by
  refine ⟨?_, after⟩
  intro path member
  rw [Listings.reported, reports] at member
  obtain ⟨file, there, same, seen⟩ := sourced.reported path member
  exact ⟨file, there, same, more seen⟩

theorem Position.sourced_loop (shown : List Attributes) (written : List RemoteFile)
    (books : Books) (done todo : List Bytes) :
    (Position.loop books done todo).Sourced shown written := by
  cases todo <;> trivial

theorem sourced_download_step {localZip : Option ZipFile} {listings : Listings}
    {world world' : HostWorld} {pc : DownloadPc} {answer : (pc.call remoteHost1).Answer}
    {position : Position} (sound : HostSound localZip listings world)
    (responds : world.respond (pc.call remoteHost1) answer = some world')
    (before : Sourced listings world.written pc.position) (steps : RoundStep pc answer position) :
    Sourced (listings.recordDownload pc answer) world'.written position := by
  rw [(HostWorld.respond_kept responds).written]
  have same : listings.shown ⊆ listings.shown := List.Subset.refl _
  cases steps with
  | stays quiet =>
      have shown := quiet.shown listings
      exact before.unreported (quiet.reports listings) (shown ▸ same) (shown ▸ before.position)
  | leaves quiet =>
      exact before.unreported (quiet.reports listings) (quiet.shown listings ▸ same) trivial
  | enters => exact before.unreported rfl same trivial
  | samples => exact before.unreported rfl same ⟨nofun, nofun⟩
  | @skips vars time newFiles attributes old =>
      have more : listings.shown ⊆ attributes :: listings.shown := List.subset_cons_self _ _
      exact before.unreported rfl more (before.position.mono more (List.Subset.refl _))
  | @shows vars time newFiles attributes new =>
      have more : listings.shown ⊆ attributes :: listings.shown := List.subset_cons_self _ _
      simp only [Attributes.isNew, Bool.and_eq_true, decide_eq_true_eq] at new
      refine before.unreported rfl more
        ⟨(before.position.mono more (List.Subset.refl _)).1, ?_⟩
      intro attributes' looks
      cases looks
      rcases HostWorld.respond_entry responds with ⟨file, there, rfl, _⟩ | ⟨other, _⟩
      · exact ⟨file, rfl, sound.streaming.visible there, List.mem_cons_self, new.2⟩
      · exact absurd new.1 other
  | finds => exact before.unreported rfl same ⟨before.position.1, nofun⟩
  | @misses vars time newFiles attributes pc answer next quiet =>
      have shown := quiet.shown listings
      obtain ⟨found, looked⟩ := before.position
      refine before.unreported (quiet.reports listings) (shown ▸ same) (shown ▸ ⟨?_, nofun⟩)
      intro path member
      rcases List.mem_append.mp member with earlier | missed
      · exact found path earlier
      · obtain ⟨file, same, source⟩ := looked attributes rfl
        refine ⟨file, ?_, source⟩
        rw [List.mem_singleton.mp missed, same]
        rfl
  | passes nothing looked quiet =>
      exact before.unreported (quiet.reports listings) (quiet.shown listings ▸ same) trivial
  | @reports vars time newFiles answer found =>
      refine ⟨?_, Position.sourced_loop _ _ _ _ _⟩
      intro path member
      simp only [Listings.recordDownload, Listings.reported_append] at member
      rcases List.mem_append.mp member with new | old
      · obtain ⟨file, same, there, seen, _⟩ := before.position.1 path new
        exact ⟨file, there, same, seen⟩
      · exact before.reported path old
  | appends => exact before.unreported rfl same (Position.sourced_loop _ _ _ _ _)
  | breaks stands quiet =>
      exact before.unreported (quiet.reports listings) (quiet.shown listings ▸ same)
        (Position.sourced_loop _ _ _ _ _)

theorem sourced {localZip : Option ZipFile} {ok : PipelineCondition hostEnv}
    (fresh : ∀ trace state event, ok trace state event → FreshWrites localZip trace state event)
    {trace : List (PipelineEvent hostEnv)} {state : PipelineState hostEnv}
    (run : PipelineRun hostEnv ok (HostStarted localZip) trace state) :
    ∀ pc : DownloadPc, state.left = some pc →
      Sourced (listings trace) state.world.written pc.position := by
  refine position_invariant (fun _ started => started.1)
    (fun listings (world : HostWorld) position => Sourced listings world.written position)
    ?_ ?_ ?_ ?_ run
  · exact fun _ _ => ⟨nofun, trivial⟩
  · intro trace pc answer right world world' position run _ responds before steps
    exact sourced_download_step (host_sound fresh run) responds before steps
  · intro trace pc answer downloader world world' _ responds before
    rw [(HostWorld.respond_kept responds).written]
    exact before
  · intro trace move downloader right world world' _ _ moves before
    cases move with
    | write name content =>
        cases moves
        exact before.move (List.subset_cons_self _ _)
    | sigint | tick | remove =>
        cases moves
        exact before

def poller (listings : Listings) (files : List RemoteFile) (lastRun : Nat) :
    Poller RemoteFile Nat where
  present := {file | file ∈ files}
  reported := {file | file.path ∈ listings.reported}
  mark := lastRun

/-- No file is missed, and one that has been shown is reported, about to be
reported, or just being looked up. -/
structure Tracked (listings : Listings) (files : List RemoteFile) (lastRun : Nat)
    (newFiles : List Bytes) (looking : Option Attributes) : Prop where
  covered : (poller listings files lastRun).Covered RemoteFile.mtime
  shown : ∀ file ∈ files, file.attributes ∈ listings.shown →
    file.path ∈ listings.reported ∨ file.path ∈ newFiles ∨ looking = some file.attributes

def Position.Tracked (listings : Listings) (files : List RemoteFile) : Position → Prop
  | .before => files = [] ∧ listings.start = none
  | .idle books | .file books _ _ _ =>
      FileTransfer.Tracked listings files books.lastRun [] none
  | .listing books _ newFiles looking =>
      FileTransfer.Tracked listings files books.lastRun newFiles looking
  | .after => True

theorem Tracked.quiet {listings listings' : Listings} {files : List RemoteFile} {lastRun : Nat}
    {newFiles : List Bytes} {looking : Option Attributes}
    (tracked : Tracked listings files lastRun newFiles looking)
    (reports : listings'.reports = listings.reports) (shown : listings'.shown = listings.shown) :
    Tracked listings' files lastRun newFiles looking := by
  have reported : listings'.reported = listings.reported := by
    rw [Listings.reported, reports, Listings.reported]
  obtain ⟨covered, shown'⟩ := tracked
  refine ⟨?_, ?_⟩
  · rw [poller, reported]
    exact covered
  · rw [shown, reported]
    exact shown'

theorem Position.Tracked.quiet {listings listings' : Listings} {files : List RemoteFile}
    {position : Position} (tracked : position.Tracked listings files)
    (start : listings'.start = listings.start) (reports : listings'.reports = listings.reports)
    (shown : listings'.shown = listings.shown) : position.Tracked listings' files := by
  cases position with
  | before => exact ⟨tracked.1, start.trans tracked.2⟩
  | idle | file | listing => exact FileTransfer.Tracked.quiet tracked reports shown
  | after => trivial

theorem Position.tracked_loop {listings : Listings} {files : List RemoteFile} {books : Books}
    (tracked : FileTransfer.Tracked listings files books.lastRun [] none)
    (done todo : List Bytes) : (Position.loop books done todo).Tracked listings files := by
  cases todo <;> exact tracked

/-- The name of a file is found in the archive only once the file has been
reported. -/
theorem found_reported {localZip : Option ZipFile} {ok : PipelineCondition hostEnv}
    (fresh : ∀ trace state event, ok trace state event → FreshWrites localZip trace state event)
    {trace : List (PipelineEvent hostEnv)} {vars : DownloadVars} {time : Nat}
    {newFiles : List Bytes} {file : RemoteFile} {opened : List Entry} {index : Nat}
    {right : Option UploadPc} {world : HostWorld}
    (run : PipelineRun hostEnv ok (HostStarted localZip) trace
      ⟨some (.listing vars time (.fileExists newFiles file.attributes
        (.zipClose opened (some index)))), right, world⟩)
    (written : file ∈ world.written) : file.path ∈ (listings trace).reported := by
  obtain ⟨distinct, _⟩ := host_sound fresh run
  obtain ⟨_, _, sound⟩ := listing_points (fun _ started => started.1) run _ rfl
  have located : (Zip.opened opened).nameLocate file.name.val .guess = some index := by
    rcases sound with missing | located
    · cases missing
    · exact located.symm
  obtain ⟨entry, inspected, looked⟩ := Zip.name_located located
  rcases inspected_named run _ rfl entry inspected with
    ⟨original, there, same⟩ | ⟨path, reported, accepted⟩
  · exact absurd (same.symm ▸ looked) (distinct.absent file written original there)
  · obtain ⟨other, there, rfl, _⟩ := (sourced fresh run _ rfl).reported path reported
    have short : other.name.val.length < 65536 :=
      Nat.lt_of_le_of_lt other.name.property.2.2.2 (by decide)
    rw [RemoteFile.base_name_path] at accepted
    have name := accepted_name_short accepted short
    rw [name] at looked
    rw [distinct.lookups file written other there looked]
    exact reported

theorem Tracked.report {listings : Listings} {files : List RemoteFile} {lastRun time : Nat}
    {newFiles : List Bytes} (tracked : Tracked listings files lastRun newFiles none)
    (behind : ∀ file ∈ files, file.mtime ≤ time → file.attributes ∈ listings.shown) :
    Tracked { listings with reports := newFiles.map (·, time) ++ listings.reports } files time
      [] none := by
  have reported := listings.reported_append newFiles time
  have handed : ∀ file ∈ files, file.attributes ∈ listings.shown →
      file.path ∈ listings.reported ∨ file.path ∈ newFiles := by
    intro file there seen
    rcases tracked.shown file there seen with old | new | looked
    · exact .inl old
    · exact .inr new
    · cases looked
  refine ⟨?_, ?_⟩
  · have covered : ((poller listings files lastRun).poll {file | file.path ∈ newFiles}
        time).Covered RemoteFile.mtime :=
      (Poller.poll_covered_iff _ time).mpr fun file there old =>
        handed file there (behind file there old)
    intro file there
    rcases covered file there with known | ahead
    · refine .inl ?_
      change file.path ∈ Listings.reported _
      rw [reported]
      exact List.mem_append.mpr (Or.symm known)
    · exact .inr ahead
  · intro file there seen
    refine .inl ?_
    rw [reported]
    rcases handed file there seen with old | new
    · exact List.mem_append_right _ old
    · exact List.mem_append_left _ new

theorem tracked_download_step {localZip : Option ZipFile} {ok : PipelineCondition hostEnv}
    (fresh : ∀ trace state event, ok trace state event → FreshInTime localZip trace state event)
    {trace : List (PipelineEvent hostEnv)} {pc : DownloadPc}
    {answer : (pc.call remoteHost1).Answer} {right : Option UploadPc} {world : HostWorld}
    {position : Position}
    (run : PipelineRun hostEnv ok (HostStarted localZip) trace ⟨some pc, right, world⟩)
    (inTime : InTime trace ⟨some pc, right, world⟩ (.left pc answer))
    (before : pc.position.Tracked (listings trace) world.files)
    (steps : RoundStep pc answer position) :
    position.Tracked ((listings trace).recordDownload pc answer) world.files := by
  have freshWrites := fun trace state event met => (fresh trace state event met).1
  cases steps with
  | stays quiet => exact before.quiet (quiet.start _) (quiet.reports _) (quiet.shown _)
  | leaves quiet => trivial
  | enters =>
      have empty : world.files = [] := before.1
      rw [empty]
      exact ⟨nofun, nofun⟩
  | @samples vars time => exact FileTransfer.Tracked.quiet before rfl rfl
  | @skips vars time newFiles attributes old =>
      have tracked : FileTransfer.Tracked (listings trace) world.files vars.lastRun newFiles
        none := before
      refine ⟨tracked.covered, ?_⟩
      rintro file there (_ | ⟨_, seen⟩)
      · rcases tracked.covered file there with reported | ahead
        · exact .inl reported
        · have later : vars.lastRun < file.mtime := ahead
          exact absurd old (by simp [Attributes.isNew, RemoteFile.attributes, later])
      · exact tracked.shown file there seen
  | @shows vars time newFiles attributes new =>
      have tracked : FileTransfer.Tracked (listings trace) world.files vars.lastRun newFiles
        none := before
      refine ⟨tracked.covered, ?_⟩
      rintro file there (_ | ⟨_, seen⟩)
      · exact .inr (.inr rfl)
      · rcases tracked.shown file there seen with reported | found | looked
        · exact .inl reported
        · exact .inr (.inl found)
        · cases looked
  | @finds vars time newFiles attributes opened index answer =>
      have tracked : FileTransfer.Tracked (listings trace) world.files vars.lastRun newFiles
        (some attributes) := before
      refine ⟨tracked.covered, ?_⟩
      intro file there seen
      rcases tracked.shown file there seen with reported | found | looked
      · exact .inl reported
      · exact .inr (.inl found)
      · cases looked
        have written := (host_sound freshWrites run).streaming.files there
        exact .inl (found_reported freshWrites run written)
  | @misses vars time newFiles attributes pc answer next quiet =>
      have tracked : FileTransfer.Tracked (listings trace) world.files vars.lastRun newFiles
        (some attributes) := before
      have tracked' : FileTransfer.Tracked (listings trace) world.files vars.lastRun
          (newFiles ++ [attributes.fullPath]) none := by
        refine ⟨tracked.covered, ?_⟩
        intro file there seen
        rcases tracked.shown file there seen with reported | found | looked
        · exact .inl reported
        · exact .inr (.inl (List.mem_append_left _ found))
        · cases looked
          exact .inr (.inl (List.mem_append_right _ (List.mem_singleton.mpr rfl)))
      exact tracked'.quiet (quiet.reports _) (quiet.shown _)
  | @passes vars time pc answer nothing looked quiet =>
      have tracked : FileTransfer.Tracked (listings trace) world.files vars.lastRun pc.newFiles
        pc.looking := before
      rw [nothing, looked] at tracked
      exact tracked.quiet (quiet.reports _) (quiet.shown _)
  | @reports vars time newFiles answer found =>
      have tracked : FileTransfer.Tracked (listings trace) world.files vars.lastRun newFiles
        none := before
      have listed : Listed (listings trace) vars.lastRun newFiles :=
        listing_points (fun _ started => started.1) run _ rfl
      exact Position.tracked_loop (tracked.report (inTime (listed.newFiles ▸ found))) [] _
  | @appends vars file todo done =>
      have tracked : FileTransfer.Tracked (listings trace) world.files vars.lastRun [] none :=
        before
      have after : FileTransfer.Tracked ((listings trace).recordDownload
        (.append vars file todo done (.semPost true)) ()) world.files vars.lastRun [] none :=
          tracked.quiet rfl rfl
      exact Position.tracked_loop after (done ++ [file]) todo
  | @breaks pc answer books file todo done stands quiet =>
      rw [stands] at before
      have tracked : FileTransfer.Tracked (listings trace) world.files books.lastRun [] none :=
        before
      exact Position.tracked_loop (tracked.quiet (quiet.reports _) (quiet.shown _)) done []

theorem Tracked.write {localZip : Option ZipFile} {listings : Listings} {world : HostWorld}
    {lastRun : Nat} {newFiles : List Bytes} {looking : Option Attributes} {file : RemoteFile}
    (tracked : Tracked listings world.files lastRun newFiles looking)
    (sound : HostSound localZip listings world)
    (fresh : Fresh localZip listings.start world file.name) (ahead : lastRun < file.mtime) :
    Tracked listings (world.write file).files lastRun newFiles looking := by
  refine ⟨?_, ?_⟩
  · have appeared := (Poller.appear_covered_iff tracked.covered file).mpr (.inr ahead)
    have fewer : {other | other ∈ (world.write file).files} ⊆
        insert file {other | other ∈ world.files} := by
      intro other there
      rcases List.mem_cons.mp there with rfl | earlier
      · exact .inl rfl
      · exact .inr (List.mem_of_mem_filter earlier)
    exact appeared.subset fewer
  · intro other there seen
    rcases List.mem_cons.mp there with rfl | earlier
    · obtain ⟨original, written, same⟩ := sound.streaming.recorded _ seen rfl
      have name : other.name = original.name :=
        Subtype.ext (congrArg Attributes.name same)
      exact absurd name (fresh.apart original written).different
    · exact tracked.shown other (List.mem_of_mem_filter earlier) seen

theorem Position.Tracked.write {localZip : Option ZipFile} {listings : Listings}
    {world : HostWorld} {position : Position} {file : RemoteFile}
    (tracked : position.Tracked listings world.files) (sound : HostSound localZip listings world)
    (fresh : Fresh localZip listings.start world file.name)
    (ahead : ∀ books, position.books = some books → books.lastRun < file.mtime) :
    position.Tracked listings (world.write file).files := by
  cases position with
  | before =>
      have later := fresh.later
      rw [tracked.2] at later
      cases later
  | idle books | file books path todo done | listing books time newFiles looking =>
      exact FileTransfer.Tracked.write tracked sound fresh (ahead books rfl)
  | after => trivial

theorem Position.Tracked.remove {listings : Listings} {files files' : List RemoteFile}
    {position : Position} (tracked : position.Tracked listings files) (fewer : files' ⊆ files) :
    position.Tracked listings files' := by
  cases position with
  | before =>
      obtain ⟨rfl, start⟩ := tracked
      exact ⟨List.subset_nil.mp fewer, start⟩
  | idle | file | listing =>
      obtain ⟨covered, shown⟩ := tracked
      exact ⟨covered.subset fun file there => fewer there,
        fun file there => shown file (fewer there)⟩
  | after => trivial

theorem tracked {localZip : Option ZipFile}
    {trace : List (PipelineEvent hostEnv)} {state : PipelineState hostEnv}
    (run : PipelineRun hostEnv (FreshInTime localZip) (HostStarted localZip) trace state) :
    ∀ pc : DownloadPc, state.left = some pc →
      pc.position.Tracked (listings trace) state.world.files := by
  refine position_invariant (fun _ started => started.1)
    (fun listings (world : HostWorld) position => position.Tracked listings world.files)
    ?_ ?_ ?_ ?_ run
  · exact fun _ started => ⟨started.2.2.2.1, rfl⟩
  · intro trace pc answer right world world' position run met responds before steps
    rw [(HostWorld.respond_kept responds).files]
    exact tracked_download_step (fun _ _ _ met => met) run met.2 before steps
  · intro trace pc answer downloader world world' _ responds before
    rw [(HostWorld.respond_kept responds).files]
    exact before
  · intro trace move downloader right world world' run met moves before
    cases move with
    | write name content =>
        cases moves
        refine before.write (host_sound (fun _ _ _ met => met.1) run) met.1 ?_
        intro books stands
        have inTime :
            (downloader.lastRun).all (fun lastRun => decide (lastRun < world.clock)) = true :=
          met.2
        rw [last_run_books, stands] at inTime
        exact of_decide_eq_true inTime
    | remove name =>
        cases moves
        exact before.remove (List.filter_subset_self _)
    | sigint | tick =>
        cases moves
        exact before

theorem nothing_missed {localZip : Option ZipFile} {trace : List (PipelineEvent hostEnv)}
    {state : PipelineState hostEnv}
    (run : PipelineRun hostEnv (FreshInTime localZip) (HostStarted localZip) trace state)
    {pc : DownloadPc} (stands : state.left = some pc) {books : Books}
    (keeps : pc.position.books = some books) :
    ∀ file ∈ state.world.files,
      ¬ (poller (listings trace) state.world.files books.lastRun).Missed RemoteFile.mtime file := by
  have track := tracked run pc stands
  have covered : (poller (listings trace) state.world.files books.lastRun).Covered
      RemoteFile.mtime := by
    cases position : pc.position with
    | before | after =>
        rw [position] at keeps
        cases keeps
    | idle | file | listing =>
        rw [position] at keeps track
        cases keeps
        exact track.covered
  exact Poller.covered_iff_not_missed.mp covered

/-- In a run whose writes and listings are in time, a listing that has come to
its end leaves nothing unreported that was there from its beginning on. -/
theorem complete_listing_reported {localZip : Option ZipFile}
    {trace : List (PipelineEvent hostEnv)} {vars : DownloadVars} {time : Nat}
    {newFiles : List Bytes} {right : Option UploadPc} {world : HostWorld}
    (run : PipelineRun hostEnv (FreshInTime localZip) (HostStarted localZip) trace
      ⟨some (.listing vars time (.sftpClosedir newFiles)), right, world⟩)
    (complete : world.directory.complete = true) (closed : Bool) :
    ∀ file ∈ world.directory.opened, file ∈ world.files →
      file.path ∈
        (listings
          (.left (.listing vars time (.sftpClosedir newFiles)) closed :: trace)).reported := by
  intro file opened there
  obtain ⟨_, streaming⟩ := host_sound (fun _ _ _ met => met.1) run
  have seen : file.attributes ∈ (listings trace).shown :=
    streaming.shown file (streaming.complete complete file opened there)
  have reported : (listings (.left (.listing vars time (.sftpClosedir newFiles)) closed ::
      trace)).reported = newFiles ++ (listings trace).reported :=
    (listings trace).reported_append _ _
  rw [reported]
  rcases (tracked run _ rfl).shown file there seen with old | new | looked
  · exact List.mem_append_right _ old
  · exact List.mem_append_left _ new
  · cases looked

theorem complete_listing_run (ok : PipelineCondition hostEnv)
    (meets : List (PipelineEvent hostEnv) → PipelineState hostEnv → PipelineEvent hostEnv → Bool)
    (sound : ∀ trace state event, meets trace state event = true → ok trace state event)
    (cues : List (Cue hostEnv)) (vars : DownloadVars) (time : Nat) (newFiles : List Bytes)
    (file : RemoteFile) (reported : List Bytes)
    (plays : (play meets cues [] hostStart).any (fun ended => decide (
      ended.2.left = some (.listing vars time (.sftpClosedir newFiles)) ∧
        ended.2.world.directory.complete = true ∧ file ∈ ended.2.world.directory.opened ∧
          file ∈ ended.2.world.files ∧ (listings ended.1).reported = reported)) = true) :
    ∃ trace right world, PipelineRun hostEnv ok (HostStarted none) trace
        ⟨some (.listing vars time (.sftpClosedir newFiles)), right, world⟩ ∧
      world.directory.complete = true ∧ file ∈ world.directory.opened ∧ file ∈ world.files ∧
        (listings trace).reported = reported := by
  have found : ∃ trace state, PipelineRun hostEnv ok (HostStarted none) trace state ∧
      decide (state.left = some (.listing vars time (.sftpClosedir newFiles)) ∧
        state.world.directory.complete = true ∧ file ∈ state.world.directory.opened ∧
          file ∈ state.world.files ∧ (listings trace).reported = reported) = true :=
    exists_run_of_play meets cues hostStart _ sound host_start_started plays
  obtain ⟨trace, ⟨left, right, world⟩, run, outcome⟩ := found
  obtain ⟨stands, rest⟩ := of_decide_eq_true outcome
  simp only at stands
  subst stands
  exact ⟨trace, right, world, run, rest⟩

/-- A file is written before the listing's second and reported by it. -/
theorem complete_listing_reported_one_file :
    ∃ trace vars time newFiles right world,
      PipelineRun hostEnv (FreshInTime none) (HostStarted none) trace
        ⟨some (.listing vars time (.sftpClosedir newFiles)), right, world⟩ ∧
      world.directory.opened ≠ [] ∧
        remote1CollectDir ++ ascii "a" ∈ (listings
          (.left (.listing vars time (.sftpClosedir newFiles)) true :: trace)).reported := by
  obtain ⟨trace, right, world, run, complete, opened, there, _⟩ :=
    complete_listing_run (FreshInTime none)
      (fun trace state event => decide (FreshInTime none trace state event))
      (fun _ _ _ => of_decide_eq_true)
      (downloadCalls 11 ++ uploadCalls 10 ++ seconds 1 ++ writes fileA (ascii "text") ++
        seconds 4 ++ downloadCalls 7)
      ⟨[], ([], []), 0⟩ 5 [remote1CollectDir ++ ascii "a"] ⟨fileA, 1, ascii "text"⟩ []
      (by decide +kernel)
  refine ⟨trace, _, _, _, right, world, run, ?_, ?_⟩
  · intro none
    rw [none] at opened
    cases opened
  · exact complete_listing_reported run complete true _ opened there

/-- The second file is written in the second of the first listing's `now`, after
that listing has passed, and no later listing reports it. -/
theorem late_file_never_reported :
    ¬ ∀ (trace : List (PipelineEvent hostEnv)) (vars : DownloadVars) (time : Nat)
        (newFiles : List Bytes) (right : Option UploadPc) (world : HostWorld) (closed : Bool),
      PipelineRun hostEnv (FreshWrites none) (HostStarted none) trace
        ⟨some (.listing vars time (.sftpClosedir newFiles)), right, world⟩ →
      world.directory.complete = true →
        ∀ file ∈ world.directory.opened, file ∈ world.files →
          file.path ∈ (listings
            (.left (.listing vars time (.sftpClosedir newFiles)) closed :: trace)).reported := by
  intro unmissed
  obtain ⟨trace, right, world, run, complete, opened, there, reported⟩ :=
    complete_listing_run (FreshWrites none)
      (fun trace state event => decide (FreshWrites none trace state event))
      (fun _ _ _ => of_decide_eq_true)
      (downloadCalls 11 ++ uploadCalls 10 ++ seconds 1 ++ writes fileA (ascii "first") ++
        downloadCalls 7 ++ writes fileB (ascii "second") ++ downloadCalls 14 ++ seconds 5 ++
        downloadCalls 9)
      ⟨[], (ascii "a", ascii "first"), 1⟩ 6 [] ⟨fileB, 1, ascii "second"⟩
      [remote1CollectDir ++ ascii "a"] (by decide +kernel)
  have known := unmissed trace _ _ _ right world true run complete _ opened there
  change remote1CollectDir ++ ascii "b" ∈ [] ++ (listings trace).reported at known
  rw [List.nil_append, reported, List.mem_singleton] at known
  exact absurd (List.append_cancel_left known) (by decide)

/-- The file has been left behind, and the listing under way is not about to
report it. -/
def Position.Passes (listings : Listings) (files : List RemoteFile) (file : RemoteFile) :
    Position → Prop
  | .before => False
  | .idle books | .file books _ _ _ =>
      (poller listings files books.lastRun).Missed RemoteFile.mtime file
  | .listing books _ newFiles looking =>
      (poller listings files books.lastRun).Missed RemoteFile.mtime file ∧
        file.path ∉ newFiles ∧ looking ≠ some file.attributes
  | .after => file.path ∉ listings.reported

theorem Missed.same {listings listings' : Listings} {files files' : List RemoteFile}
    {lastRun : Nat} {file : RemoteFile}
    (missed : (poller listings files lastRun).Missed RemoteFile.mtime file)
    (reports : listings'.reports = listings.reports) :
    (poller listings' files' lastRun).Missed RemoteFile.mtime file := by
  refine ⟨?_, missed.behind⟩
  change file.path ∉ listings'.reported
  rw [Listings.reported, reports]
  exact missed.unreported

theorem Position.Passes.same {listings listings' : Listings} {files files' : List RemoteFile}
    {file : RemoteFile} {position : Position} (passes : position.Passes listings files file)
    (reports : listings'.reports = listings.reports) : position.Passes listings' files' file := by
  cases position with
  | before => exact passes
  | idle | file => exact Missed.same passes reports
  | listing => exact ⟨Missed.same passes.1 reports, passes.2⟩
  | after =>
      change file.path ∉ listings'.reported
      rw [Listings.reported, reports]
      exact passes

theorem Position.Passes.unreported {listings : Listings} {files : List RemoteFile}
    {file : RemoteFile} {position : Position} (passes : position.Passes listings files file) :
    file.path ∉ listings.reported := by
  cases position with
  | before => cases passes
  | idle books | file books path todo done =>
      have missed : (poller listings files books.lastRun).Missed RemoteFile.mtime file := passes
      exact missed.unreported
  | listing => exact passes.1.unreported
  | after => exact passes

theorem Position.passes_loop {listings : Listings} {files : List RemoteFile} {file : RemoteFile}
    {books : Books} (missed : (poller listings files books.lastRun).Missed RemoteFile.mtime file)
    (done todo : List Bytes) : (Position.loop books done todo).Passes listings files file := by
  cases todo <;> exact missed

theorem passes_download_step {localZip : Option ZipFile} {ok : PipelineCondition hostEnv}
    (fresh : ∀ trace state event, ok trace state event → FreshWrites localZip trace state event)
    {trace : List (PipelineEvent hostEnv)} {pc : DownloadPc}
    {answer : (pc.call remoteHost1).Answer} {right : Option UploadPc} {world : HostWorld}
    {position : Position} {file : RemoteFile}
    (run : PipelineRun hostEnv ok (HostStarted localZip) trace ⟨some pc, right, world⟩)
    (written : file ∈ world.written)
    (before : pc.position.Passes (listings trace) world.files file)
    (steps : RoundStep pc answer position) :
    position.Passes ((listings trace).recordDownload pc answer) world.files file := by
  cases steps with
  | stays quiet => exact before.same (quiet.reports _)
  | leaves quiet =>
      change file.path ∉ Listings.reported _
      rw [Listings.reported, quiet.reports]
      exact before.unreported
  | enters => cases before
  | samples => exact ⟨Missed.same before rfl, List.not_mem_nil, (Option.some_ne_none _).symm⟩
  | skips | finds =>
      obtain ⟨missed, unfound, _⟩ := before
      exact ⟨Missed.same missed rfl, unfound, (Option.some_ne_none _).symm⟩
  | @shows vars time newFiles attributes new =>
      obtain ⟨missed, unfound, _⟩ := before
      refine ⟨Missed.same missed rfl, unfound, ?_⟩
      intro looks
      cases looks
      have behind : file.mtime ≤ vars.lastRun := missed.behind
      simp only [Attributes.isNew, Bool.and_eq_true, decide_eq_true_eq] at new
      exact absurd behind (Nat.not_le_of_lt new.2)
  | @misses vars time newFiles attributes pc answer next quiet =>
      obtain ⟨missed, unfound, passed⟩ := before
      refine ⟨Missed.same missed (quiet.reports _), ?_, (Option.some_ne_none _).symm⟩
      intro among
      rcases List.mem_append.mp among with earlier | last
      · exact unfound earlier
      · -- the entry looked up is another file, and no two have one name
        obtain ⟨_, looked⟩ := (sourced fresh run _ rfl).position
        obtain ⟨other, rfl, source⟩ := looked attributes rfl
        have same : file.path = other.path := List.mem_singleton.mp last
        have name : file.name = other.name := Subtype.ext (List.append_cancel_left same)
        have one := (host_sound fresh run).distinct.names file written other source.written name
        exact passed (congrArg (fun file : RemoteFile => some file.attributes) one.symm)
  | @passes vars time pc answer nothing looked quiet =>
      exact Missed.same before.1 (quiet.reports _)
  | @reports vars time newFiles answer found =>
      obtain ⟨missed, unfound, _⟩ := before
      have dates : vars.books.lastRun ≤ time := (dated run _ rfl).2.1
      have polled : ((poller (listings trace) world.files vars.lastRun).poll
          {other | other.path ∈ newFiles} time).Missed RemoteFile.mtime file :=
        missed.poll (fun among => absurd among unfound) dates
      refine Position.passes_loop ⟨?_, polled.behind⟩ [] _
      change file.path ∉ Listings.reported _
      simp only [Listings.recordDownload, Listings.reported_append]
      intro among
      rcases List.mem_append.mp among with new | old
      · exact unfound new
      · exact missed.unreported old
  | @appends vars path todo done =>
      exact Position.passes_loop (Missed.same before rfl) (done ++ [path]) todo
  | @breaks pc answer books path todo done stands quiet =>
      rw [stands] at before
      exact Position.passes_loop (Missed.same before (quiet.reports _)) done []

theorem returns_unreported {pc : DownloadPc} {answer : (pc.call remoteHost1).Answer}
    (ends : pc.next remoteHost1 answer = .done ()) (listings : Listings) :
    (listings.recordDownload pc answer).reports = listings.reports := by
  unfold Listings.recordDownload
  split
  case h_6 =>
    rw [next_closedir] at ends
    cases ends
  all_goals rfl

structure LeftBehind (file : RemoteFile) (trace : List (PipelineEvent hostEnv))
    (state : PipelineState hostEnv) : Prop where
  written : file ∈ state.world.written
  unreported : file.path ∉ (listings trace).reported
  passes : ∀ pc : DownloadPc, state.left = some pc →
    pc.position.Passes (listings trace) state.world.files file

theorem left_behind_step {localZip : Option ZipFile} {ok : PipelineCondition hostEnv}
    (fresh : ∀ trace state event, ok trace state event → FreshWrites localZip trace state event)
    {trace : List (PipelineEvent hostEnv)} {state state' : PipelineState hostEnv}
    {event : PipelineEvent hostEnv} {file : RemoteFile}
    (run : PipelineRun hostEnv ok (HostStarted localZip) trace state)
    (steps : Step downloadThread uploadThread hostEnv state event state')
    (before : LeftBehind file trace state) : LeftBehind file (event :: trace) state' := by
  obtain ⟨written, unreported, passes⟩ := before
  cases steps with
  | @left pc answer right world world' responds =>
      have kept := HostWorld.respond_kept responds
      refine ⟨kept.written ▸ written, ?_, ?_⟩
      · cases next : pc.next remoteHost1 answer with
        | goto pc' =>
            have steps := (round_step pc answer).goes next
            exact (passes_download_step fresh run written (passes pc rfl) steps).unreported
        | done result =>
            change file.path ∉ ((listings trace).recordDownload pc answer).reported
            rw [Listings.reported, returns_unreported next]
            exact unreported
      · intro pc' stands
        have steps := (round_step pc answer).resumes stands
        exact (passes_download_step fresh run written (passes pc rfl) steps).same rfl
  | @right pc answer left world world' responds =>
      have kept := HostWorld.respond_kept responds
      exact ⟨kept.written ▸ written, unreported, fun pc stands => (passes pc stands).same rfl⟩
  | @move move left right world world' moves =>
      refine ⟨?_, unreported, fun pc stands => (passes pc stands).same rfl⟩
      cases move with
      | write name content =>
          cases moves
          exact List.mem_cons_of_mem _ written
      | sigint | tick | remove =>
          cases moves
          exact written

/-- Under fresh names, a file left behind is not reported whatever happens
later. -/
theorem left_behind_for_good {localZip : Option ZipFile} {ok : PipelineCondition hostEnv}
    (fresh : ∀ trace state event, ok trace state event → FreshWrites localZip trace state event)
    {trace trace' : List (PipelineEvent hostEnv)} {state state' : PipelineState hostEnv}
    {file : RemoteFile} (run : PipelineRun hostEnv ok (HostStarted localZip) trace state)
    (before : LeftBehind file trace state)
    (path : Path downloadThread uploadThread hostEnv ok trace state trace' state') :
    LeftBehind file trace' state' := by
  induction path with
  | nil => exact before
  | cons meets steps rest ih =>
      exact ih (.step run meets steps) (left_behind_step fresh run steps before)

end FileTransfer
