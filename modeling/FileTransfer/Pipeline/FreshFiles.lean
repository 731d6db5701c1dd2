import FileTransfer.Pipeline.ArchivedNames

/-!
# Files under fresh names

Every file is written once, under a name libzip cannot take for that of another
file. Then what a listing has been shown, or has reported, is one file, and the
archive has its name only once it has been reported.
-/

namespace FileTransfer

set_option autoImplicit false

open Interaction

/-- Different names that libzip does not take for one another either. -/
structure Apart (name other : FileName) : Prop where
  different : name ≠ other
  looked : lookupName name.val .guess ≠ some other.val
  found : lookupName other.val .guess ≠ some name.val

instance (name other : FileName) : Decidable (Apart name other) :=
  decidable_of_iff (name ≠ other ∧ lookupName name.val .guess ≠ some other.val ∧
    lookupName other.val .guess ≠ some name.val)
    ⟨fun ⟨different, looked, found⟩ => ⟨different, looked, found⟩,
      fun ⟨different, looked, found⟩ => ⟨different, looked, found⟩⟩

/-- No file has been written under the name, nor is there one in the archive at
the start, and the routine has read its initial `last_run` in an earlier
second. -/
structure Fresh (localZip : Option ZipFile) (start : Option Nat) (world : HostWorld)
    (name : FileName) : Prop where
  apart : ∀ file ∈ world.written, Apart name file.name
  absent : ∀ entry ∈ startEntries localZip, lookupName name.val .guess ≠ some entry.name
  later : start.any (fun start => decide (start < world.clock)) = true

instance (localZip : Option ZipFile) (start : Option Nat) (world : HostWorld) (name : FileName) :
    Decidable (Fresh localZip start world name) :=
  decidable_of_iff ((∀ file ∈ world.written, Apart name file.name) ∧
    (∀ entry ∈ startEntries localZip, lookupName name.val .guess ≠ some entry.name) ∧
      start.any (fun start => decide (start < world.clock)) = true)
    ⟨fun ⟨apart, absent, later⟩ => ⟨apart, absent, later⟩,
      fun ⟨apart, absent, later⟩ => ⟨apart, absent, later⟩⟩

def FreshWrites (localZip : Option ZipFile) : PipelineCondition hostEnv :=
  fun trace state event => match event with
    | .move (.write name _) => Fresh localZip (listings trace).start state.world name
    | _ => True

instance (localZip : Option ZipFile) (trace : List (PipelineEvent hostEnv))
    (state : PipelineState hostEnv) (event : PipelineEvent hostEnv) :
    Decidable (FreshWrites localZip trace state event) :=
  match event with
  | .move (.write name _) =>
      inferInstanceAs (Decidable (Fresh localZip (listings trace).start state.world name))
  | .move .sigint | .move .tick | .move (.remove _) | .left _ _ | .right _ _ =>
      inferInstanceAs (Decidable True)

structure Distinct (localZip : Option ZipFile) (written : List RemoteFile) : Prop where
  names : ∀ file ∈ written, ∀ other ∈ written, file.name = other.name → file = other
  lookups : ∀ file ∈ written, ∀ other ∈ written,
    lookupName file.name.val .guess = some other.name.val → file = other
  absent : ∀ file ∈ written, ∀ entry ∈ startEntries localZip,
    lookupName file.name.val .guess ≠ some entry.name

theorem Distinct.write {localZip : Option ZipFile} {start : Option Nat} {world : HostWorld}
    {file : RemoteFile} (distinct : Distinct localZip world.written)
    (fresh : Fresh localZip start world file.name) :
    Distinct localZip (file :: world.written) := by
  obtain ⟨names, lookups, absent⟩ := distinct
  refine ⟨?_, ?_, ?_⟩
  · rintro one (_ | ⟨_, earlier⟩) other (_ | ⟨_, earlier'⟩) same
    · rfl
    · exact absurd same (fresh.apart other earlier').different
    · exact absurd same.symm (fresh.apart one earlier).different
    · exact names one earlier other earlier' same
  · rintro one (_ | ⟨_, earlier⟩) other (_ | ⟨_, earlier'⟩) same
    · rfl
    · exact absurd same (fresh.apart other earlier').looked
    · exact absurd same (fresh.apart one earlier).found
    · exact lookups one earlier other earlier' same
  · rintro one (_ | ⟨_, earlier⟩) entry member
    · exact fresh.absent entry member
    · exact absent one earlier entry member

structure Streaming (listings : Listings) (world : HostWorld) : Prop where
  files : world.files ⊆ world.written
  visible : world.directory.visible ⊆ world.written
  opened : world.directory.opened ⊆ world.written
  shown : ∀ file ∈ world.directory.shown, file.attributes ∈ listings.shown
  recorded : ∀ attributes ∈ listings.shown, attributes.type = .regular →
    ∃ file ∈ world.written, attributes = file.attributes
  complete : world.directory.complete = true →
    ∀ file ∈ world.directory.opened, file ∈ world.files → file ∈ world.directory.shown

theorem Streaming.of_kept {listings : Listings} {world world' : HostWorld}
    (kept : world.Kept world') (files : world.files ⊆ world.written)
    (visible : world'.directory.visible ⊆ world.written)
    (opened : world'.directory.opened ⊆ world.written)
    (shown : ∀ file ∈ world'.directory.shown, file.attributes ∈ listings.shown)
    (recorded : ∀ attributes ∈ listings.shown, attributes.type = .regular →
      ∃ file ∈ world.written, attributes = file.attributes)
    (complete : world'.directory.complete = true →
      ∀ file ∈ world'.directory.opened, file ∈ world.files → file ∈ world'.directory.shown) :
    Streaming listings world' := by
  obtain ⟨_, sameFiles, sameWritten⟩ := kept
  rw [← sameFiles] at files complete
  rw [← sameWritten] at files visible opened recorded
  exact ⟨files, visible, opened, shown, recorded, complete⟩

theorem Streaming.keep {listings listings' : Listings} {world world' : HostWorld}
    (streaming : Streaming listings world) (kept : world.Kept world')
    (directory : world'.directory = world.directory)
    (shown : listings'.shown = listings.shown) : Streaming listings' world' := by
  obtain ⟨files, visible, opened, shown', recorded, complete⟩ := streaming
  rw [← directory] at visible opened shown' complete
  rw [← shown] at shown' recorded
  exact .of_kept kept files visible opened shown' recorded complete

theorem streaming_readdir {listings : Listings} {world world' : HostWorld} {vars : DownloadVars}
    {time : Nat} {newFiles : List Bytes} {answer : Readdir} (streaming : Streaming listings world)
    (responds : world.respond .sftpReaddir answer = some world') :
    Streaming (listings.recordDownload (.listing vars time (.sftpReaddir newFiles)) answer)
      world' := by
  have kept := HostWorld.respond_kept responds
  cases answer with
  | error => exact streaming.keep kept (HostWorld.respond_readdir_error responds) rfl
  | eof =>
      obtain ⟨all, directory⟩ := HostWorld.respond_eof responds
      obtain ⟨files, visible, opened, shown, recorded, _⟩ := streaming
      apply Streaming.of_kept kept files
      · rw [directory]
        exact visible
      · rw [directory]
        exact opened
      · rw [directory]
        exact shown
      · exact recorded
      · rw [directory]
        exact fun _ => all
  | entry attributes =>
      obtain ⟨files, visible, opened, shown, recorded, complete⟩ := streaming
      rcases HostWorld.respond_entry responds with
        ⟨file, there, rfl, directory⟩ | ⟨other, directory⟩
      · apply Streaming.of_kept kept files
        · rw [directory]
          exact visible
        · rw [directory]
          exact opened
        · rw [directory]
          rintro shown' (_ | ⟨_, earlier⟩)
          · exact List.mem_cons_self
          · exact List.mem_cons_of_mem _ (shown shown' earlier)
        · rintro attributes (_ | ⟨_, earlier⟩) regular
          · exact ⟨file, visible there, rfl⟩
          · exact recorded attributes earlier regular
        · rw [directory]
          exact fun ended one begun there' =>
            List.mem_cons_of_mem _ (complete ended one begun there')
      · apply Streaming.of_kept kept files
        · rw [directory]
          exact visible
        · rw [directory]
          exact opened
        · rw [directory]
          exact fun file member => List.mem_cons_of_mem _ (shown file member)
        · rintro attributes' (_ | ⟨_, earlier⟩) regular
          · exact absurd regular other
          · exact recorded attributes' earlier regular
        · rw [directory]
          exact complete

theorem streaming_opendir {listings : Listings} {world world' : HostWorld} {vars : DownloadVars}
    {time : Nat} {opens : Bool} (streaming : Streaming listings world)
    (responds : world.respond (.sftpOpendir remote1CollectDir) opens = some world') :
    Streaming (listings.recordDownload (.listing vars time .sftpOpendir) opens) world' := by
  have kept := HostWorld.respond_kept responds
  have directory := HostWorld.respond_opendir responds
  cases opens with
  | false => exact streaming.keep kept directory rfl
  | true =>
      rw [if_pos rfl] at directory
      obtain ⟨files, _, _, _, recorded, _⟩ := streaming
      apply Streaming.of_kept kept files
      · rw [directory]
        exact files
      · rw [directory]
        exact files
      · rw [directory]
        exact nofun
      · exact recorded
      · rw [directory]
        exact nofun

theorem record_shown {listings : Listings} {pc : DownloadPc}
    {answer : (pc.call remoteHost1).Answer}
    (quiet : (pc.call remoteHost1).listsDirectory = false) :
    (listings.recordDownload pc answer).shown = listings.shown := by
  unfold Listings.recordDownload
  split
  case h_3 => cases quiet
  all_goals rfl

theorem streaming_download_step {listings : Listings} {world world' : HostWorld}
    {pc : DownloadPc} {answer : (pc.call remoteHost1).Answer}
    (streaming : Streaming listings world)
    (responds : world.respond (pc.call remoteHost1) answer = some world') :
    Streaming (listings.recordDownload pc answer) world' := by
  cases quiet : (pc.call remoteHost1).listsDirectory with
  | false =>
      exact streaming.keep (HostWorld.respond_kept responds)
        (HostWorld.respond_directory responds quiet) (record_shown quiet)
  | true =>
      cases pc with
      | listing vars time pc =>
          cases pc with
          | sftpOpendir => exact streaming_opendir streaming responds
          | sftpReaddir newFiles => exact streaming_readdir streaming responds
          | fileExists newFiles attributes pc => cases pc <;> cases quiet
          | _ => cases quiet
      | session pc | sftp pc => cases pc <;> cases quiet
      | download vars file todo done pc => cases pc <;> cases quiet
      | append vars file todo done pc => cases pc <;> cases quiet
      | _ => cases quiet

theorem Streaming.write {localZip : Option ZipFile} {start : Option Nat} {listings : Listings}
    {world : HostWorld} {file : RemoteFile} (streaming : Streaming listings world)
    (fresh : Fresh localZip start world file.name) : Streaming listings (world.write file) := by
  obtain ⟨files, visible, opened, shown, recorded, complete⟩ := streaming
  refine ⟨?_, ?_, ?_, shown, ?_, ?_⟩
  · exact List.cons_subset_cons file fun other member => files (List.mem_of_mem_filter member)
  · exact List.cons_subset_cons file visible
  · exact fun other member => List.mem_cons_of_mem file (opened member)
  · intro attributes member regular
    obtain ⟨other, earlier, same⟩ := recorded attributes member regular
    exact ⟨other, List.mem_cons_of_mem file earlier, same⟩
  · intro ended one begun there
    rcases List.mem_cons.mp there with rfl | there
    · exact absurd rfl (fresh.apart one (opened begun)).different
    · exact complete ended one begun (List.mem_of_mem_filter there)

structure HostSound (localZip : Option ZipFile) (listings : Listings) (world : HostWorld) :
    Prop where
  distinct : Distinct localZip world.written
  streaming : Streaming listings world

theorem host_sound {localZip : Option ZipFile} {ok : PipelineCondition hostEnv}
    (fresh : ∀ trace state event, ok trace state event → FreshWrites localZip trace state event)
    {trace : List (PipelineEvent hostEnv)} {state : PipelineState hostEnv}
    (run : PipelineRun hostEnv ok (HostStarted localZip) trace state) :
    HostSound localZip (listings trace) state.world := by
  refine run.invariant
    (fun trace state => HostSound localZip (listings trace) state.world) ?_ ?_
  · rintro ⟨left, right, world⟩ ⟨_, _, _, files, written, directory⟩
    simp only at files written directory
    refine ⟨⟨?_, ?_, ?_⟩, ⟨?_, ?_, ?_, ?_, nofun, ?_⟩⟩ <;>
      simp [files, written, directory]
  · intro trace state event state' run ⟨distinct, streaming⟩ meets steps
    cases steps with
    | @left pc answer right world world' responds =>
        refine ⟨?_, streaming_download_step streaming responds⟩
        rw [(HostWorld.respond_kept responds).written]
        exact distinct
    | @right pc answer left world world' responds =>
        refine ⟨?_, streaming.keep (HostWorld.respond_kept responds)
          (HostWorld.respond_directory responds (upload_lists_nothing pc)) rfl⟩
        rw [(HostWorld.respond_kept responds).written]
        exact distinct
    | @move move left right world world' moves =>
        cases move with
        | write name content =>
            cases moves
            have new := fresh _ _ _ meets
            exact ⟨distinct.write new, streaming.write new⟩
        | remove name =>
            cases moves
            obtain ⟨files, visible, opened, shown, recorded, complete⟩ := streaming
            refine ⟨distinct, ?_, visible, opened, shown, recorded, ?_⟩
            · exact fun file member => files (List.mem_of_mem_filter member)
            · exact fun ended one begun there =>
                complete ended one begun (List.mem_of_mem_filter there)
        | sigint | tick =>
            cases moves
            obtain ⟨files, visible, opened, shown, recorded, complete⟩ := streaming
            exact ⟨distinct, files, visible, opened, shown, recorded, complete⟩

end FileTransfer
