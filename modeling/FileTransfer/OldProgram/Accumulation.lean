import FileTransfer.OldProgram.Disk

/-!
# The old program's archive only grows

The archive is never deleted, and each round adds to it. What is uploaded in a
round is the whole archive, so that a delivery makes up for every one that
failed before it. This rests on the downloaded files being saved beside the
archive and not over it.
-/

namespace FileTransfer.Old

set_option autoImplicit false

open Interaction

/-- The file is saved elsewhere than over the archive. -/
def Clear (file : Bytes) : Prop := localFile file ≠ localZipPath

def World.stored (world : World) : List (Bytes × Bytes) := world.entries.map (·.stored)

/-- The archives committed or read for an upload, newest first. -/
def archives : List (Turn main) → List ZipFile
  | [] => []
  | ⟨.createZip _ (.zipClose _), .written file⟩ :: turns
  | ⟨.createZip _ (.zipCloseSource _), .written file⟩ :: turns
  | ⟨.upload _ .ifstreamOpen, some file⟩ :: turns => file :: archives turns
  | _ :: turns => archives turns

section

variable {setting : Setting} {world after : World}

def ListPc.Lists : ListPc → Prop
  | .sftpReaddir newFiles | .sftpAttributesFree newFiles | .sftpClosedir newFiles =>
      ∀ file ∈ newFiles, Clear file
  | .sftpOpendir | .errorOpendir => True

theorem list_next (apart : setting.Apart) {path : Bytes} (lastRun : Nat) {pc : ListPc}
    {answer : (pc.call path).Answer} (lists : pc.Lists)
    (responds : setting.respond world (pc.call path) answer = some after) :
    (pc.next path lastRun answer).Meets ListPc.Lists fun listed =>
      ∀ file ∈ listed.2, Clear file := by
  cases pc with
  | sftpOpendir =>
      cases answer with
      | false => trivial
      | true => exact fun file member => by cases member
  | errorOpendir => exact fun file member => by cases member
  | sftpReaddir newFiles =>
      cases answer with
      | eof | error => exact lists
      | entry attributes =>
          have served : setting.serves attributes = true := by
            change (if setting.serves attributes = true then some world else none) = some after
              at responds
            split at responds
            · assumption
            · cases responds
          simp only [ListPc.next]
          split
          · intro file member
            rcases List.mem_append.mp member with earlier | last
            · exact lists file earlier
            · rw [List.mem_singleton.mp last]
              exact apart attributes served
          · exact lists
  | sftpAttributesFree newFiles => exact lists
  | sftpClosedir newFiles => exact lists

/-- An open `ofstream` writes elsewhere than to the archive. -/
def World.Aside (world : World) : Prop := ∀ path, world.ofs = some path → path ≠ localZipPath

theorem aside_respond {call : Call} {answer : call.Answer} (other : ¬ call.OpensStream)
    (aside : world.Aside) (responds : setting.respond world call answer = some after) :
    after.Aside := by
  intro path writes
  rcases respond_ofs other responds with same | closed
  · exact aside path (same ▸ writes)
  · rw [closed] at writes
    cases writes

theorem entries_store {disk : LocalDisk} {path : Bytes} {file : ZipFile}
    (short : (baseName path).length ≤ 255) (other : path ≠ localZipPath) :
    (disk.store path file short).files localZipPath = disk.files localZipPath :=
  Function.update_of_ne (Ne.symm other) _ _

def World.Same (world after : World) : Prop :=
  after.disk.files localZipPath = world.disk.files localZipPath

theorem World.Same.entries (same : world.Same after) : after.entries = world.entries := by
  unfold World.entries LocalDisk.entries
  rw [same]

theorem same_of_spares {call : Call} {answer : call.Answer} (spares : call.Spares)
    (responds : setting.respond world call answer = some after) : world.Same after := by
  unfold World.Same
  rw [respond_disk spares responds]

theorem download_next {remoteFile : Bytes} (clear : Clear remoteFile) (aside : world.Aside)
    {pc : DownloadFilePc} {answer : (pc.call remoteFile (localFile remoteFile)).Answer}
    (responds : setting.respond world (pc.call remoteFile (localFile remoteFile)) answer =
      some after) :
    after.Aside ∧ world.Same after := by
  cases pc with
  | sftpOpen =>
      cases answer <;> cases responds <;> exact ⟨aside, rfl⟩
  | ofstreamOpen =>
      cases answer with
      | false =>
          cases responds
          exact ⟨aside, rfl⟩
      | true =>
          simp only [DownloadFilePc.call, Setting.respond] at responds
          split at responds
          · rename_i short
            cases responds
            refine ⟨?_, entries_store short clear⟩
            intro path writes
            cases writes
            exact clear
          · cases responds
  | sftpRead =>
      cases answer <;> cases responds <;> exact ⟨aside, rfl⟩
  | ofstreamWrite block =>
      cases answer with
      | false =>
          cases responds
          exact ⟨aside, rfl⟩
      | true =>
          simp only [DownloadFilePc.call, Setting.respond, Option.bind_eq_some_iff] at responds
          obtain ⟨path, writes, file, there, responds⟩ := responds
          split at responds
          · rename_i short
            cases responds
            exact ⟨aside, entries_store short (aside path writes)⟩
          · cases responds
  | sftpClose =>
      cases responds
      exact ⟨aside, rfl⟩
  | ofstreamClose =>
      cases responds
      refine ⟨?_, rfl⟩
      intro path writes
      cases writes

/-- While files are queued the handle holds the entries of the archive. -/
def CreateZipPc.Holds (files : List Bytes) (world : World) : CreateZipPc → Prop
  | .zipSourceFile archive file todo | .zipFileAdd archive file todo
  | .zipNameLocate archive file todo | .zipFileSetEncryption archive _ file todo =>
      archive.Queues world.entries files ∧ file ∈ files ∧ todo ⊆ files
  | .strerrorSource archive | .zipCloseSource archive | .zipClose archive =>
      archive.Queues world.entries files
  | .zipOpen | .strerrorOpen | .strerrorClose _ => True

def CreateZipPc.committed : (pc : CreateZipPc) → (pc.call localZipPath zipPassphrase).Answer →
    Option ZipFile
  | .zipClose _, closed | .zipCloseSource _, closed => closed.file
  | _, _ => none

variable {files : List Bytes}

theorem loop_holds {archive : Zip} {todo : List Bytes}
    (queues : archive.Queues world.entries files) (ahead : todo ⊆ files) :
    (CreateZipPc.loop archive todo).Holds files world := by
  cases todo with
  | nil => exact queues
  | cons file todo =>
      exact ⟨queues, ahead List.mem_cons_self, List.subset_of_cons_subset ahead⟩

inductive Closes (world after : World) : Option ZipFile → Prop where
  | same (same : world.Same after) : Closes world after none
  | written {file : ZipFile} (there : after.disk.files localZipPath = some file)
      (keeps : world.stored ⊆ file.stored) : Closes world after (some file)

theorem zip_close_closes {archive : Zip} (queues : archive.Queues world.entries files)
    {closed : Zip.CloseResult}
    (responds : setting.respond world (.zipClose archive) closed = some after) :
    Closes world after closed.file := by
  simp only [Setting.respond, Option.map_eq_some_iff] at responds
  obtain ⟨disk, closes, rfl⟩ := responds
  cases closed with
  | discarded | failed =>
      simp only [LocalDisk.respond] at closes
      split at closes <;> cases closes
      exact .same rfl
  | written file =>
      simp only [LocalDisk.respond] at closes
      split at closes
      · rename_i fits
        cases closes
        have writes : archive.write world.disk.readFile = some file.entries := by
          have both := fits.1
          simp only [Zip.closes, Bool.and_eq_true, decide_eq_true_eq] at both
          exact both.2
        refine .written (by simp [LocalDisk.store]) ?_
        intro stored member
        obtain ⟨entry, there, rfl⟩ := List.mem_map.mp member
        exact queues.keeps writes there
      · cases closes

theorem create_zip_next {pc : CreateZipPc}
    {answer : (pc.call localZipPath zipPassphrase).Answer} (holds : pc.Holds files world)
    (responds : setting.respond world (pc.call localZipPath zipPassphrase) answer = some after) :
    Closes world after (pc.committed answer) ∧
      (pc.next files localZipPath zipPassphrase answer).Meets
        (fun pc' => pc'.Holds files after) fun _ => True := by
  cases pc with
  | zipOpen =>
      have same : world.Same after := same_of_spares (by trivial) responds
      refine ⟨.same same, ?_⟩
      cases answer with
      | none => trivial
      | some opened =>
          have opens : opened = world.entries := by
            simp only [CreateZipPc.call, Setting.respond, Option.map_eq_some_iff] at responds
            obtain ⟨disk, opens, _⟩ := responds
            simp only [LocalDisk.respond] at opens
            split at opens
            · exact LocalDisk.opens_entries ‹_›
            · cases opens
          have queues := Zip.queues_opened after.entries files
          rw [same.entries, ← opens] at queues
          apply loop_holds ?_ (List.Subset.refl files)
          rw [same.entries, ← opens]
          exact queues
  | strerrorOpen =>
      cases responds
      exact ⟨.same rfl, trivial⟩
  | zipSourceFile archive file todo =>
      cases answer with
      | false =>
          cases responds
          exact ⟨.same rfl, holds.1⟩
      | true =>
          cases responds
          exact ⟨.same rfl, holds⟩
  | strerrorSource archive =>
      cases responds
      exact ⟨.same rfl, holds⟩
  | zipCloseSource archive => exact ⟨zip_close_closes holds responds, trivial⟩
  | zipFileAdd archive file todo =>
      have same : world.Same after := same_of_spares (by trivial) responds
      obtain ⟨queues, among, ahead⟩ := holds
      refine ⟨.same same, ?_, among, ahead⟩
      rw [same.entries]
      exact queues.add among answer
  | zipNameLocate archive file todo =>
      have same : world.Same after := same_of_spares (by trivial) responds
      obtain ⟨queues, among, ahead⟩ := holds
      rw [← same.entries] at queues
      refine ⟨.same same, ?_⟩
      cases answer <;> exact ⟨queues, among, ahead⟩
  | zipFileSetEncryption archive index file todo =>
      have same : world.Same after := same_of_spares (by trivial) responds
      obtain ⟨queues, among, ahead⟩ := holds
      refine ⟨.same same, loop_holds ?_ ahead⟩
      rw [same.entries]
      exact queues.set index zipPassphrase answer
  | zipClose archive =>
      refine ⟨zip_close_closes holds responds, ?_⟩
      cases answer <;> trivial
  | strerrorClose archive =>
      cases responds
      exact ⟨.same rfl, trivial⟩

/-- What of the archive has been sent while it is read. -/
structure Sending (world : World) (stream : Ifstream) (sent : Bytes) : Prop where
  archive : world.disk.files localZipPath = some stream.file
  sent : sent = stream.file.bytes.take stream.position
  spoilt : stream.good = false → stream.file.bytes.length ≤ stream.position

def UploadFilePc.Sends (world : World) : UploadFilePc → Prop
  | .sftpOpen stream => Sending world stream [] ∧ stream.good = true
  | .ifstreamRead stream => Sending world stream world.remote
  | .sftpWrite stream block => Sending world stream (world.remote ++ block)
  | .sftpClose true => ∃ file, world.disk.files localZipPath = some file ∧
      world.remote = file.bytes
  | _ => True

theorem Sending.read {stream : Ifstream} {sent : Bytes} (sending : Sending world stream sent) :
    Sending world (stream.read 4096 .complete).2 (sent ++ (stream.read 4096 .complete).1) := by
  obtain ⟨archive, rfl, spoilt⟩ := sending
  cases good : stream.good with
  | false =>
      have stays : stream.read 4096 .complete = ([], stream) := by simp [Ifstream.read, good]
      rw [stays, List.append_nil]
      exact ⟨archive, rfl, spoilt⟩
  | true =>
      have reads : stream.read 4096 .complete =
          ((stream.file.bytes.drop stream.position).take 4096, { stream with
            position := stream.position +
              ((stream.file.bytes.drop stream.position).take 4096).length
            good := ((stream.file.bytes.drop stream.position).take 4096).length = 4096 }) := by
        simp [Ifstream.read, good]
      rw [reads]
      refine ⟨archive, ?_, ?_⟩
      · have whole : (stream.file.bytes.drop stream.position).take
            ((stream.file.bytes.drop stream.position).take 4096).length =
              (stream.file.bytes.drop stream.position).take 4096 := by
          rw [List.length_take, List.take_eq_take_iff]
          omega
        rw [List.take_add, whole]
      · intro short
        simp only [decide_eq_false_iff_not, List.length_take, List.length_drop] at short ⊢
        omega

theorem upload_next (readable : setting.readable = true) {pc : UploadFilePc}
    {answer : (pc.call localZipPath remote2DestPath).Answer} (sends : pc.Sends world)
    (responds : setting.respond world (pc.call localZipPath remote2DestPath) answer =
      some after) :
    after.disk = world.disk ∧
      (pc.next localZipPath remote2DestPath answer).Meets (fun pc' => pc'.Sends after)
        fun _ => True := by
  have disk : after.disk = world.disk := by
    apply respond_disk ?_ responds
    cases pc <;> trivial
  refine ⟨disk, ?_⟩
  cases pc with
  | ifstreamOpen =>
      cases answer with
      | none => trivial
      | some file =>
          refine ⟨⟨?_, rfl, fun spoilt => by cases spoilt⟩, rfl⟩
          simp only [UploadFilePc.call, Setting.respond] at responds
          split at responds
          · cases responds
            assumption
          · cases responds
  | sftpOpen stream =>
      cases answer with
      | false => trivial
      | true =>
          cases responds
          exact ⟨sends.1.archive, sends.1.sent, sends.1.spoilt⟩
  | errorOpen | errorWrite => trivial
  | ifstreamRead stream =>
      have complete : answer = .complete ∧ after = world := by
        simp only [UploadFilePc.call, Setting.respond, readable] at responds
        split at responds
        · cases responds
          refine ⟨?_, rfl⟩
          cases answer with
          | complete => rfl
          | error => simp [DiskRead.isComplete] at *
        · cases responds
      obtain ⟨rfl, rfl⟩ := complete
      have sending : Sending after stream after.remote := sends
      have read := sending.read
      simp only [UploadFilePc.next]
      split
      · exact read
      · rename_i ended
        simp only [Bool.or_eq_true, decide_eq_true_eq, not_or] at ended
        have nothing : (stream.read 4096 .complete).1 = [] :=
          List.eq_nil_of_length_eq_zero (by omega)
        rw [nothing, List.append_nil] at read
        refine ⟨_, read.archive, ?_⟩
        rw [read.sent, List.take_of_length_le (read.spoilt (by simpa using ended.1))]
  | sftpWrite stream block =>
      cases answer with
      | none => trivial
      | some count =>
          cases responds
          simp only [UploadFilePc.next]
          split
          · rename_i all
            have sending : Sending world stream (world.remote ++ block) := sends
            refine ⟨sending.archive, ?_, sending.spoilt⟩
            change world.remote ++ block.take count.val = _
            rw [all, List.take_length]
            exact sending.sent
          · trivial
  | sftpClose result => trivial

def MainPc.Keeps (world : World) : MainPc → Prop
  | .check _ pc => pc.Lists
  | .download files file todo _ =>
      (∀ file ∈ files, Clear file) ∧ Clear file ∧ ∀ file ∈ todo, Clear file
  | .createZip files pc =>
      (∀ file ∈ files, Clear file) ∧ pc.Holds (files.map localFile) world
  | .upload files pc => (∀ file ∈ files, Clear file) ∧ pc.Sends world
  | .unlink file todo => file ≠ localZipPath ∧ ∀ file ∈ todo, file ≠ localZipPath
  | _ => True

/-- What has been committed or read so far is still in the archive, and was in
every archive after it. -/
structure Accumulated (turns : List (Turn main)) (pc : MainPc) (world : World) : Prop where
  aside : world.Aside
  there : ∀ file ∈ archives turns, file.stored ⊆ world.stored
  ordered : (archives turns).Pairwise fun later earlier => earlier.stored ⊆ later.stored
  keeps : pc.Keeps world

variable {turns : List (Turn main)} {pc : MainPc}

theorem World.Same.stored (same : world.Same after) : after.stored = world.stored := by
  unfold World.stored
  rw [same.entries]

theorem stored_of_there {file : ZipFile} (there : world.disk.files localZipPath = some file) :
    world.stored = file.stored := by
  unfold World.stored World.entries LocalDisk.entries
  rw [there]
  rfl

theorem same_of_unlink {path : Bytes} {deleted : Bool} (other : path ≠ localZipPath)
    (responds : setting.respond world (.unlink path) deleted = some after) : world.Same after := by
  simp only [Setting.respond, Option.map_eq_some_iff] at responds
  obtain ⟨disk, unlinks, rfl⟩ := responds
  cases deleted with
  | false =>
      cases unlinks
      rfl
  | true =>
      simp only [LocalDisk.respond] at unlinks
      split at unlinks <;> cases unlinks
      exact Function.update_of_ne (Ne.symm other) _ _

theorem Accumulated.idle {answer : pc.call.Answer} (accumulated : Accumulated turns pc world)
    (aside : after.Aside) (same : world.Same after)
    (silent : archives (⟨pc, answer⟩ :: turns) = archives turns) {pc' : MainPc}
    (keeps : pc'.Keeps after) : Accumulated (⟨pc, answer⟩ :: turns) pc' after := by
  refine ⟨aside, ?_, ?_, keeps⟩
  · rw [silent, same.stored]
    exact accumulated.there
  · rw [silent]
    exact accumulated.ordered

theorem Accumulated.archive {answer : pc.call.Answer} {file : ZipFile}
    (accumulated : Accumulated turns pc world) (aside : after.Aside)
    (there : after.disk.files localZipPath = some file) (keeps : world.stored ⊆ file.stored)
    (recorded : archives (⟨pc, answer⟩ :: turns) = file :: archives turns) {pc' : MainPc}
    (keeps' : pc'.Keeps after) : Accumulated (⟨pc, answer⟩ :: turns) pc' after := by
  have stored : after.stored = file.stored := stored_of_there there
  have earlier : ∀ old ∈ archives turns, old.stored ⊆ file.stored :=
    fun old member => List.Subset.trans (accumulated.there old member) keeps
  refine ⟨aside, ?_, ?_, keeps'⟩
  · rw [recorded, stored]
    intro old member
    rcases List.mem_cons.mp member with rfl | member
    · exact List.Subset.refl _
    · exact earlier old member
  · rw [recorded]
    exact List.pairwise_cons.mpr ⟨earlier, accumulated.ordered⟩

theorem downloads_keeps {files todo : List Bytes} (clear : ∀ file ∈ files, Clear file)
    (ahead : ∀ file ∈ todo, Clear file) : (MainPc.downloads files todo).Keeps world := by
  cases todo with
  | nil => exact ⟨clear, trivial⟩
  | cons file todo =>
      exact ⟨clear, ahead file List.mem_cons_self,
        fun other member => ahead other (List.mem_cons_of_mem file member)⟩

theorem deletes_keeps {todo : List Bytes} (ahead : ∀ file ∈ todo, file ≠ localZipPath) :
    (MainPc.deletes todo).Keeps world := by
  cases todo with
  | nil => trivial
  | cons file todo =>
      exact ⟨ahead file List.mem_cons_self,
        fun other member => ahead other (List.mem_cons_of_mem file member)⟩

theorem archives_create_zip (files : List Bytes) {pc : CreateZipPc}
    (answer : (pc.call localZipPath zipPassphrase).Answer) (turns : List (Turn main)) :
    archives (⟨.createZip files pc, answer⟩ :: turns) =
      (pc.committed answer).toList ++ archives turns := by
  cases pc with
  | zipClose archive | zipCloseSource archive => cases answer <;> rfl
  | _ => rfl

theorem main_contract (apart : setting.Apart) (readable : setting.readable = true) :
    Contract main (env setting) Accumulated fun _ _ _ => True := by
  intro turns pc answer world after accumulated responds
  have keeps := accumulated.keeps
  cases pc with
  | check lastRun pc =>
      have same : world.Same after := same_of_spares (by cases pc <;> trivial) responds
      have aside : after.Aside :=
        aside_respond (by cases pc <;> exact id) accumulated.aside responds
      have lists := list_next apart lastRun keeps responds
      change (MainPc.next (.check lastRun pc) answer).Meets _ _
      simp only [MainPc.next]
      split
      · rename_i pc' goes
        exact accumulated.idle aside same rfl (lists.goes goes)
      · rename_i listed ends
        rw [ends] at lists
        split
        · exact accumulated.idle aside same rfl trivial
        · rename_i files found
          have same' : files = listed.2 := by
            unfold checkForNewFiles at found
            split at found
            · cases found
            · split at found
              · cases found
              · exact (Option.some.inj found).symm
          have clear : ∀ file ∈ files, Clear file := same' ▸ lists
          exact accumulated.idle aside same rfl (downloads_keeps clear clear)
  | download files file todo pc =>
      obtain ⟨clear, this, ahead⟩ := keeps
      obtain ⟨aside, same⟩ := download_next this accumulated.aside responds
      change (MainPc.next (.download files file todo pc) answer).Meets _ _
      simp only [MainPc.next]
      split
      · exact accumulated.idle aside same rfl ⟨clear, this, ahead⟩
      · exact accumulated.idle aside same rfl trivial
      · exact accumulated.idle aside same rfl (downloads_keeps clear ahead)
  | createZip files pc =>
      obtain ⟨clear, holds⟩ := keeps
      obtain ⟨closes, next⟩ := create_zip_next holds responds
      have aside : after.Aside :=
        aside_respond (by cases pc <;> exact id) accumulated.aside responds
      have moves : ∀ pc' : MainPc, pc'.Keeps after →
          Accumulated (⟨.createZip files pc, answer⟩ :: turns) pc' after := by
        intro pc' keeps'
        have recorded := archives_create_zip files answer turns
        generalize pc.committed answer = committed at closes recorded
        cases closes with
        | same same => exact accumulated.idle aside same recorded keeps'
        | written there grows => exact accumulated.archive aside there grows recorded keeps'
      change (MainPc.next (.createZip files pc) answer).Meets _ _
      simp only [MainPc.next]
      split
      · rename_i pc' goes
        exact moves _ ⟨clear, next.goes goes⟩
      · exact moves _ trivial
      · exact moves _ ⟨clear, trivial⟩
  | upload files pc =>
      obtain ⟨clear, sends⟩ := keeps
      obtain ⟨disk, next⟩ := upload_next readable sends responds
      have aside : after.Aside :=
        aside_respond (by cases pc <;> exact id) accumulated.aside responds
      have same : world.Same after := by
        unfold World.Same
        rw [disk]
      have moves : ∀ pc' : MainPc, pc'.Keeps after →
          Accumulated (⟨.upload files pc, answer⟩ :: turns) pc' after := by
        intro pc' keeps'
        cases pc with
        | ifstreamOpen =>
            cases answer with
            | none => exact accumulated.idle aside same rfl keeps'
            | some file =>
                have there : after.disk.files localZipPath = some file := (next.goes rfl).1.archive
                refine accumulated.archive aside there ?_ rfl keeps'
                have stored : after.stored = file.stored := stored_of_there there
                rw [← stored, same.stored]
                exact List.Subset.refl _
        | _ => exact accumulated.idle aside same rfl keeps'
      change (MainPc.next (.upload files pc) answer).Meets _ _
      simp only [MainPc.next]
      split
      · rename_i pc' goes
        exact moves _ ⟨clear, next.goes goes⟩
      · apply moves
        apply deletes_keeps
        intro path member
        obtain ⟨file, there, rfl⟩ := List.mem_map.mp member
        exact clear file there
  | unlink file todo =>
      change setting.respond world (.unlink file) answer = some after at responds
      have aside : after.Aside := aside_respond id accumulated.aside responds
      have same : world.Same after := same_of_unlink keeps.1 responds
      exact accumulated.idle aside same rfl (deletes_keeps keeps.2)
  | ssh1 lastRun pc | sftp1 lastRun pc | ssh2 lastRun pc | sftp2 lastRun pc =>
      have same : world.Same after := same_of_spares (by cases pc <;> trivial) responds
      have aside : after.Aside :=
        aside_respond (by cases pc <;> exact id) accumulated.aside responds
      simp only [MainPc.next]
      split <;> first | trivial | exact accumulated.idle aside same rfl trivial
  | free1 second =>
      cases responds
      cases second with
      | false => trivial
      | true => exact accumulated.idle accumulated.aside rfl rfl trivial
  | free2 => trivial
  | _ =>
      cases responds
      exact accumulated.idle accumulated.aside rfl rfl trivial

end

/-- In every run of the old program in which local files can be read, whichever
remote and archive calls fail: as long as no listed file is saved over the
archive, every archive that is committed or read for an upload holds all that
every such archive before it held, and so does the one on the disk. When an
upload has succeeded, the second host has the bytes of that archive: a delivery
makes up for all that failed before it. -/
theorem deliveries_accumulate {setting : Setting} (apart : setting.Apart)
    (readable : setting.readable = true) {world now : World} (closed : world.ofs = none)
    {turns : List (Turn main)} {pc : MainPc}
    (stands : Stands main (env setting) world turns pc now) :
    (archives turns).Pairwise (fun later earlier => earlier.stored ⊆ later.stored) ∧
      (∀ file ∈ archives turns, file.stored ⊆ now.stored) ∧
      ∀ files, pc = .upload files (.sftpClose true) →
        ∃ file, now.disk.files localZipPath = some file ∧ now.remote = file.bytes := by
  have accumulated : Accumulated turns pc now := by
    refine (main_contract apart readable).stands ⟨?_, ?_, List.Pairwise.nil, trivial⟩ stands
    · intro path writes
      rw [closed] at writes
      cases writes
    · intro file member
      cases member
  refine ⟨accumulated.ordered, accumulated.there, ?_⟩
  intro files ends
  have keeps := accumulated.keeps
  rw [ends] at keeps
  exact keeps.2

def listsAB : Setting where
  reads := fun _ => []
  serves := fun attributes => attributes.name = ascii "a" || attributes.name = ascii "b"
  plenty := true
  readable := true

def bareWorld : World where
  disk := ⟨fun _ => none, nofun⟩
  ofs := none
  remote := []
  unanswered := []

/-- Nothing fails; `sftp_readdir` and `sftp_read` are at the end. -/
def succeeds (world : World) : (call : Call) → Option call.Answer
  | .time => some 5
  | .sleepFor _ | .sshDisconnect _ | .sshFree _ | .sshGetError _ | .sftpFree _ => some ()
  | .sftpAttributesFree | .zipStrerror _ => some ()
  | .sshNew _ | .sshOptionsSet _ _ _ | .sshConnect _ | .sshUserauthPublickeyAuto _ => some true
  | .sftpNew _ | .sftpInit _ | .sftpOpendir _ | .sftpClosedir => some true
  | .sftpOpen _ _ _ | .sftpClose _ | .zipSourceFile _ | .zipFileAdd _ _ _ => some true
  | .zipNameLocate _ _ _ | .zipFileSetEncryption _ _ _ | .unlink _ => some true
  | .sftpReaddir => some .eof
  | .sftpRead _ => some .eof
  | .sftpWrite block => some (some (Fin.last block.length))
  | .zipOpen _ _ => some (some world.entries)
  | .zipClose archive => (archive.write world.disk.readFile).map fun entries =>
      .written ⟨entries, entries.flatMap (·.content)⟩
  | .ifstreamOpen path => some (world.disk.files path)
  | .ifstreamRead _ _ => some .complete
  | .ofstreamOpen _ | .ofstreamWrite _ | .ofstreamClose => some true

def listing (name : Bytes) (_ : World) : (call : Call) → Option call.Answer
  | .sftpReaddir => some (.entry ⟨name, .regular, 9⟩)
  | _ => none

def reading (content : Bytes) (_ : World) : (call : Call) → Option call.Answer
  | .sftpRead count =>
      if fits : content ≠ [] ∧ content.length ≤ count then some (.data ⟨content, fits⟩) else none
  | _ => none

def refusing (_ : World) : (call : Call) → Option call.Answer
  | .sftpOpen _ _ _ => some false
  | _ => none

def fetches (name content : Bytes) : List (World → (call : Call) → Option call.Answer) :=
  [succeeds, listing name] ++ List.replicate 5 succeeds ++ [reading content] ++
    List.replicate 11 succeeds

/-- The first upload fails. After the second the host has both files. -/
theorem second_delivery_accumulates :
    ∃ turns now, Stands main (env listsAB) bareWorld turns
        (.upload [remote1CollectDir ++ ascii "b"] (.sftpClose true)) now ∧
      (archives turns).length = 4 ∧
      (archives turns).Pairwise (fun later earlier => earlier.stored ⊆ later.stored) ∧
      now.remote = ascii "xy" := by
  have found : ∃ turns pc now, Stands main (env listsAB) bareWorld turns pc now ∧
      decide (pc = .upload [remote1CollectDir ++ ascii "b"] (.sftpClose true) ∧
        (archives turns).length = 4 ∧ now.remote = ascii "xy") = true :=
    exists_stands_of_advance (List.replicate 17 succeeds ++ fetches (ascii "a") (ascii "x") ++
      [refusing] ++ List.replicate 4 succeeds ++ fetches (ascii "b") (ascii "y") ++
      List.replicate 4 succeeds) _ _ (by decide +kernel)
  obtain ⟨turns, pc, now, stands, outcome⟩ := found
  obtain ⟨rfl, four, remote⟩ := of_decide_eq_true outcome
  have apart : listsAB.Apart := by
    intro attributes served
    simp only [listsAB, Bool.or_eq_true, decide_eq_true_eq] at served
    rcases served with name | name <;> rw [name] <;> decide
  exact ⟨turns, now, stands, four, (deliveries_accumulate apart rfl rfl stands).1, remote⟩

end FileTransfer.Old
