import FileTransfer.Interaction.Progress
import FileTransfer.Pipeline.SizeThreshold
import FileTransfer.Pipeline.Snapshot
import Mathlib.Data.Prod.Lex

/-!
# An archive over the threshold

The downloader waits for an archive over the threshold to be deleted, and the
uploader, which alone deletes it, does not touch one. So such an archive stays
for ever once the uploader is outside its checks. Any other archive can still be
uploaded and removed, unless the uploader is about to unlink it without having
sent it as it is.
-/

namespace FileTransfer

set_option autoImplicit false

open Interaction

def DownloadPc.sessionUp : DownloadPc → Bool
  | .session _ | .sftp _ | .sshDisconnect | .sshFree => false
  | _ => true

def UploadPc.sessionUp : UploadPc → Bool
  | .session _ | .sftp _ | .sshDisconnect | .sshFree => false
  | _ => true

def UploadFilePc.failed : UploadFilePc → Bool
  | .errorOpen | .errorWrite | .sftpClose false | .semPost false => true
  | _ => false

/-- The uploader does not go round its loop again. -/
def UploadPc.leaving : UploadPc → Bool
  | .upload pc => pc.failed
  | .clearRunning | .sftpFree | .sshDisconnect | .sshFree => true
  | _ => false

def UploadPc.inLoop : UploadPc → Bool
  | .readRunning | .fileExists | .fileSize | .unlink | .sleep => true
  | .upload pc => !pc.failed
  | _ => false

/-- The uploader is not between its checks and its unlink. -/
def UploadPc.outside : UploadPc → Bool
  | .upload _ | .unlink => false
  | _ => true

/-- The uploader has its checks still, or again, before it. -/
def UploadPc.yetToCheck : UploadPc → Bool
  | .session _ | .sftp _ | .readRunning | .fileExists | .fileSize | .sleep => true
  | _ => false

/-- The downloader has found the archive within the threshold and has not
closed its own handle yet. -/
def DownloadPc.pastSizeCheck : DownloadPc → Bool
  | .download _ _ _ _ _ => true
  | .append _ _ _ _ (.semPost _) => false
  | .append _ _ _ _ _ => true
  | _ => false

/-- `running` is true, both sessions are up and there is a local archive. -/
structure Live (state : PipelineState libraryEnv) : Prop where
  running : state.world.running = true
  download : ∃ pc, state.left = some pc ∧ pc.sessionUp = true
  upload : ∃ pc, state.right = some pc ∧ pc.sessionUp = true
  present : state.world.localZip.isSome = true

/-- Every call is answered as when nothing goes wrong. -/
def Smoothly (layout : List Entry → Bytes) : PipelineCondition libraryEnv :=
  fun _ state event => match event with
    | .left pc answer => answer = state.world.smooth layout (pc.call remoteHost1)
    | .right pc answer =>
        answer = state.world.smooth layout (pc.call remoteHost2 remote2DestPath)
    | .move _ => False

/-- And the archive is not unlinked. -/
def SmoothlyKeeping (layout : List Entry → Bytes) : PipelineCondition libraryEnv :=
  fun trace state event =>
    Smoothly layout trace state event ∧ ∀ removed, event ≠ .right .unlink removed

/-- The step from `state` to `after` removes the archive, and the bytes the last
successful upload has sent are those of the archive. -/
structure Removes (localZip : Option ZipFile) (trace : List (PipelineEvent libraryEnv))
    (state after : PipelineState libraryEnv) (file : ZipFile) : Prop where
  present : state.world.localZip = some file
  uploaded : (history localZip trace).uploads.head? = some (file, file.bytes)
  unlinks : Step downloadThread uploadThread libraryEnv state (.right .unlink true) after
  gone : after.world.localZip = none

/-- There is a continuation without a failure in which the archive is kept until
it has been uploaded as it then is, and is removed then. -/
def Drains (layout : List Entry → Bytes) (localZip : Option ZipFile)
    (trace : List (PipelineEvent libraryEnv)) (state : PipelineState libraryEnv) : Prop :=
  ∃ trace' state' after file, Path downloadThread uploadThread libraryEnv (SmoothlyKeeping layout)
    trace state trace' state' ∧ Removes localZip trace' state' after file

/-- Where an uploader has to stand for the archive to be uploaded and removed in
the round it is in: before its checks with an archive it will not skip, past
them with the archive not opened yet, or with one it sends whole and that is
still the archive. -/
inductive UploadPc.Uploads (history : History) (world : World) (pc : UploadPc) : Prop where
  | checks (before : pc.yetToCheck = true) (small : Small world)
  | opens (before : pc = .upload .semWait ∨ pc = .upload .ifstreamOpen)
  | sends (sends : pc.SendsArchive history world)

@[simp] theorem loop_past_size_check (vars : DownloadVars) (done todo : List Bytes) :
    (DownloadPc.loop vars done todo).pastSizeCheck = false := by
  cases todo <;> rfl

@[simp] theorem listed_past_size_check (vars : DownloadVars) (time : Nat)
    (newFiles : Option (List Bytes)) :
    (DownloadPc.listed vars time newFiles).pastSizeCheck = false :=
  DownloadPc.listed_elim (motive := fun pc => pc.pastSizeCheck = false)
    (fun _ => rfl) (fun _ _ _ _ => rfl) vars time newFiles

theorem past_size_check_next {world world' : World} {pc : DownloadPc}
    {answer : (pc.call remoteHost1).Answer}
    (responds : world.respond (pc.call remoteHost1) answer = some world')
    (small : pc.pastSizeCheck = true → Small world) :
    (pc.next remoteHost1 answer).Meets
      (fun pc' => pc'.pastSizeCheck = true → Small world) fun _ => True := by
  cases pc with
  | fileSize vars file todo done =>
      have checked := (World.respond_stat localZipPath responds).2
      simp only [DownloadPc.next]
      split
      · exact fun past => by cases past
      · rename_i within
        exact fun _ => checked.mp (Nat.not_lt.mp within)
  | download vars file todo done pc =>
      simp only [DownloadPc.next]
      split
      · exact small
      · exact fun past => by cases past
      · exact small
  | append vars file todo done pc =>
      cases pc with
      | semPost result =>
          cases result
          · exact fun past => by cases past
          · exact fun past => by simp [loop_past_size_check] at past
      | _ =>
          simp only [DownloadPc.next]
          split
          · exact fun _ => small rfl
          · exact fun past => by simp [loop_past_size_check] at past
          · exact fun past => by cases past
  | listing vars time pc =>
      simp only [DownloadPc.next]
      split
      · exact fun past => by cases past
      · exact fun past => by simp [listed_past_size_check] at past
  | session pc | sftp pc =>
      simp only [DownloadPc.next]
      split <;> trivial
  | readRunning vars => cases answer <;> exact fun past => by cases past
  | sshFree => trivial
  | _ => exact fun past => by cases past

theorem small_of_same {world world' : World} (small : Small world)
    (localZip : world'.localZip = world.localZip) : Small world' := by
  intro file present
  exact small file (localZip ▸ present)

/-- While the downloader is past its size check the archive is within the
threshold: nobody else makes it grow. -/
theorem downloading_small {localZip : Option ZipFile} {ok : PipelineCondition libraryEnv}
    {trace : List (PipelineEvent libraryEnv)} {state : PipelineState libraryEnv}
    (run : PipelineRun libraryEnv ok (Started localZip) trace state) :
    ∀ pc, state.left = some pc → pc.pastSizeCheck = true → Small state.world := by
  refine run.invariant (fun _ state => ∀ pc : DownloadPc, state.left = some pc →
    pc.pastSizeCheck = true → Small state.world) ?_ ?_
  · rintro state ⟨atLeft, _, _, _, _⟩ pc stands past
    rw [atLeft] at stands
    cases stands
    cases past
  · intro trace state event state' _ before _ steps
    cases steps with
    | @left pc answer right world world' responds =>
        intro pc' stands past
        have small : Small world :=
          (past_size_check_next responds (before pc rfl)).resumes stands past
        cases download_effect responds with
        | opens found => exact small
        | commit closes =>
            cases stands
            cases past
        | quiet records same remoteFile opened => exact small_of_same small same
    | right responds =>
        intro pc stands past
        rcases upload_local_zip responds with same | ⟨_, gone⟩
        · exact small_of_same (before pc stands past) same
        · intro file present
          exact absurd (gone.symm.trans present) (by simp)
    | @move move left right world world' moves =>
        cases move
        cases moves
        exact before

/-- The archive is over the threshold and both threads have yet to check it. -/
structure Wedged (state : PipelineState libraryEnv) : Prop where
  large : ¬ Small state.world
  download : ∀ pc, state.left = some pc → pc.pastSizeCheck = false
  upload : ∀ pc, state.right = some pc → pc.outside = true

theorem outside_next {world world' : World} {pc : UploadPc}
    {answer : (pc.call remoteHost2 remote2DestPath).Answer}
    (responds : world.respond (pc.call remoteHost2 remote2DestPath) answer = some world')
    (outside : pc.outside = true) (large : ¬ Small world) :
    (pc.next remoteHost2 remote2DestPath answer).Meets (fun pc' => pc'.outside = true)
      fun _ => True := by
  cases pc with
  | fileSize =>
      have checked := (World.respond_stat localZipPath responds).2
      simp only [UploadPc.next]
      split
      · rename_i within
        exact absurd (checked.mp within) large
      · rfl
  | session pc | sftp pc | fileExists =>
      simp only [UploadPc.next]
      split <;> trivial
  | readRunning => cases answer <;> rfl
  | upload pc | unlink => cases outside
  | sshFree => trivial
  | _ => rfl

theorem wedged_step {state state' : PipelineState libraryEnv} {event : PipelineEvent libraryEnv}
    (wedged : Wedged state)
    (steps : Step downloadThread uploadThread libraryEnv state event state') :
    Wedged state' := by
  obtain ⟨large, download, upload⟩ := wedged
  cases steps with
  | @left pc answer right world world' responds =>
      have unchecked : pc.pastSizeCheck = false := download pc rfl
      have same : world'.localZip = world.localZip := by
        cases download_effect responds with
        | opens found => rfl
        | commit closes => cases unchecked
        | quiet records same remoteFile opened => exact same
      refine ⟨fun small => large (small_of_same small same.symm), ?_, upload⟩
      intro pc' stands
      have next := (past_size_check_next responds (by simp [unchecked])).resumes stands
      cases past : pc'.pastSizeCheck with
      | false => rfl
      | true => exact absurd (next past) large
  | @right pc answer left world world' responds =>
      have outside : pc.outside = true := upload pc rfl
      have same : world'.localZip = world.localZip := by
        rcases upload_local_zip responds with same | ⟨rfl, _⟩
        · exact same
        · cases outside
      exact ⟨fun small => large (small_of_same small same.symm), download,
        fun _ stands => (outside_next responds outside large).resumes stands⟩
  | @move move left right world world' moves =>
      cases move
      cases moves
      exact ⟨large, download, upload⟩

theorem wedged_for_ever {ok : PipelineCondition libraryEnv}
    {trace trace' : List (PipelineEvent libraryEnv)} {state state' : PipelineState libraryEnv}
    (wedged : Wedged state)
    (path : Path downloadThread uploadThread libraryEnv ok trace state trace' state') :
    Wedged state' := by
  induction path with
  | nil => exact wedged
  | cons _ steps _ ih => exact ih (wedged_step wedged steps)

theorem Removes.at_unlink {localZip : Option ZipFile} {trace : List (PipelineEvent libraryEnv)}
    {state after : PipelineState libraryEnv} {file : ZipFile}
    (removes : Removes localZip trace state after file) : state.right = some .unlink := by
  obtain ⟨_, _, unlinks, _⟩ := removes
  cases unlinks with
  | right responds => rfl

theorem wedged_never_drains {layout : List Entry → Bytes} {localZip : Option ZipFile}
    {trace : List (PipelineEvent libraryEnv)} {state : PipelineState libraryEnv}
    (wedged : Wedged state) : ¬ Drains layout localZip trace state := by
  rintro ⟨trace', state', after, file, path, removes⟩
  have stays := wedged_for_ever wedged path
  cases stays.upload _ removes.at_unlink

-- The uploader first makes its checks, so that whatever a pending append commits
-- is uploaded too; then the downloader leaves its critical section; then the
-- uploader goes on to its unlink.

/-- At most this many calls until `append_to_zip` has posted the semaphore. -/
def AppendPc.rest : AppendPc → Nat
  | .semWait => 0
  | .zipOpen => 8
  | .strerrorOpen => 2
  | .zipSourceBuffer _ => 7
  | .strerrorSource _ => 3
  | .zipCloseSource _ => 2
  | .zipFileAdd _ => 6
  | .zipNameLocate _ => 5
  | .zipFileSetEncryption _ _ => 4
  | .zipClose _ => 3
  | .strerrorClose _ => 2
  | .semPost _ => 1

def DownloadPc.rest : DownloadPc → Nat
  | .append _ _ _ _ pc => pc.rest
  | _ => 0

@[simp] theorem loop_rest (vars : DownloadVars) (done todo : List Bytes) :
    (DownloadPc.loop vars done todo).rest = 0 := by
  cases todo <;> rfl

/-- In its critical section the downloader gets closer to the post by every
call, whatever the answer. -/
theorem rest_next {pc : DownloadPc} (answer : (pc.call remoteHost1).Answer)
    (inside : pc.critical = true) :
    (pc.next remoteHost1 answer).Meets (fun pc' => pc'.rest < pc.rest) fun _ => False := by
  cases pc with
  | append vars file todo done pc =>
      cases pc with
      | semWait => cases inside
      | zipOpen | zipSourceBuffer | zipNameLocate =>
          cases answer <;> simp [DownloadPc.next, AppendPc.next, DownloadPc.rest, AppendPc.rest]
      | zipClose archive =>
          cases answer <;> simp [DownloadPc.next, AppendPc.next, DownloadPc.rest, AppendPc.rest]
      | semPost result =>
          cases result
          · exact Nat.zero_lt_one
          · change (DownloadPc.loop vars (done ++ [file]) todo).rest < 1
            rw [loop_rest]
            exact Nat.zero_lt_one
      | _ => simp [DownloadPc.next, AppendPc.next, DownloadPc.rest, AppendPc.rest]
  | _ => cases inside

/-- Falls with every block read from the stream, and once more at its end. -/
def Ifstream.rest (stream : Ifstream) : Nat :=
  if stream.good then stream.file.bytes.length - stream.position + 2 else 1

theorem read_rest (stream : Ifstream) {count : Nat} (positive : 0 < count)
    (more : ((stream.read count .complete).2.good ||
      decide (0 < (stream.read count .complete).1.length)) = true) :
    (stream.read count .complete).2.rest < stream.rest := by
  cases good : stream.good with
  | false => simp [Ifstream.read, good] at more
  | true =>
      simp only [Ifstream.read, Ifstream.rest, good, if_true, List.length_take, List.length_drop,
        decide_eq_true_eq]
      split <;> omega

def UploadFilePc.stage : UploadFilePc → Nat
  | .semWait => 6
  | .ifstreamOpen => 5
  | .sftpOpen _ => 4
  | .ifstreamRead _ | .sftpWrite _ _ => 3
  | .sftpClose _ => 2
  | .semPost _ => 1
  | _ => 0

def UploadPc.stage : UploadPc → Nat
  | .sleep => 10
  | .readRunning => 9
  | .fileExists => 8
  | .fileSize => 7
  | .upload pc => pc.stage
  | _ => 0

def UploadPc.copyRest : UploadPc → Nat
  | .upload (.ifstreamRead stream) => 2 * stream.rest
  | .upload (.sftpWrite stream _) => 2 * stream.rest + 1
  | _ => 0

/-- Where the uploader goes when nothing goes wrong: on, until the unlink. -/
structure Advances (pc pc' : UploadPc) : Prop where
  inLoop : pc'.inLoop = true
  outside : pc'.outside = true → pc.outside = true
  closer : pc'.stage < pc.stage ∨ (pc'.stage = pc.stage ∧ pc'.copyRest < pc.copyRest)

theorem upload_inside {pc : UploadFilePc} {conclusion : Prop}
    (outside : (UploadPc.upload pc).outside = true) : conclusion := by cases outside

theorem upload_file_advances (layout : List Entry → Bytes) {world : World} {pc : UploadFilePc}
    {file : ZipFile} (inLoop : (UploadPc.upload pc).inLoop = true)
    (found : world.localZip = some file) :
    ∃ pc', (UploadPc.upload pc).next remoteHost2 remote2DestPath
      (world.smooth layout ((UploadPc.upload pc).call remoteHost2 remote2DestPath)) = .goto pc' ∧
        Advances (.upload pc) pc' := by
  cases pc with
  | semWait =>
      exact ⟨.upload .ifstreamOpen, rfl, rfl, upload_inside, .inl (Nat.lt_succ_self _)⟩
  | ifstreamOpen =>
      refine ⟨.upload (.sftpOpen ⟨file, 0, true⟩), ?_, rfl, upload_inside,
        .inl (Nat.lt_succ_self _)⟩
      simp only [UploadPc.call, UploadFilePc.call, World.smooth, found]
      rfl
  | sftpOpen stream =>
      exact ⟨.upload (.ifstreamRead stream), rfl, rfl, upload_inside,
        .inl (Nat.lt_succ_self _)⟩
  | ifstreamRead stream =>
      cases more : (stream.read 4096 .complete).2.good ||
          decide (0 < (stream.read 4096 .complete).1.length) with
      | true =>
          have shorter := read_rest stream (by decide : 0 < 4096) more
          refine ⟨.upload (.sftpWrite (stream.read 4096 .complete).2
            (stream.read 4096 .complete).1), ?_, rfl, upload_inside, .inr ⟨rfl, ?_⟩⟩
          · change (UploadPc.upload (.ifstreamRead stream)).next remoteHost2 remote2DestPath
              DiskRead.complete = _
            simp only [UploadPc.next, UploadFilePc.next]
            rw [if_pos more]
          · simp only [UploadPc.copyRest]
            omega
      | false =>
          refine ⟨.upload (.sftpClose true), ?_, rfl, upload_inside,
            .inl (Nat.lt_succ_self _)⟩
          change (UploadPc.upload (.ifstreamRead stream)).next remoteHost2 remote2DestPath
            DiskRead.complete = _
          simp only [UploadPc.next, UploadFilePc.next]
          rw [if_neg (by simp [more])]
  | sftpWrite stream block =>
      refine ⟨.upload (.ifstreamRead stream), ?_, rfl, upload_inside,
        .inr ⟨rfl, Nat.lt_succ_self _⟩⟩
      simp only [UploadPc.call, UploadFilePc.call, World.smooth, UploadPc.next, UploadFilePc.next]
      rw [if_pos trivial]
  | sftpClose result =>
      cases result with
      | false => cases inLoop
      | true =>
          exact ⟨.upload (.semPost true), rfl, rfl, upload_inside,
            .inl (Nat.lt_succ_self _)⟩
  | semPost result =>
      cases result with
      | false => cases inLoop
      | true =>
          exact ⟨.unlink, rfl, rfl, (fun outside => by cases outside),
            .inl (Nat.lt_succ_self _)⟩
  | errorOpen | errorWrite => cases inLoop

theorem upload_advances (layout : List Entry → Bytes) {world : World} {pc : UploadPc}
    (inLoop : pc.inLoop = true) (running : world.running = true)
    (present : world.localZip.isSome = true) (small : pc.outside = true → Small world) :
    pc = .unlink ∨ ∃ pc', pc.next remoteHost2 remote2DestPath
      (world.smooth layout (pc.call remoteHost2 remote2DestPath)) = .goto pc' ∧
        Advances pc pc' := by
  obtain ⟨file, found⟩ := Option.isSome_iff_exists.mp present
  cases pc with
  | unlink => exact .inl rfl
  | sleep => exact .inr ⟨.readRunning, rfl, rfl, fun _ => rfl, .inl (Nat.lt_succ_self _)⟩
  | readRunning =>
      refine .inr ⟨.fileExists, ?_, rfl, fun _ => rfl, .inl (Nat.lt_succ_self _)⟩
      simp only [UploadPc.call, World.smooth, running]
      rfl
  | fileExists =>
      refine .inr ⟨.fileSize, ?_, rfl, fun _ => rfl, .inl (Nat.lt_succ_self _)⟩
      simp [UploadPc.call, World.smooth, UploadPc.next, checkFileExists, World.fileSize, found]
  | fileSize =>
      have within : file.bytes.length ≤ maxZipSize := small rfl file found
      refine .inr ⟨.upload .semWait, ?_, rfl, upload_inside, .inl (Nat.lt_succ_self _)⟩
      simp [UploadPc.call, World.smooth, UploadPc.next, getFileSize, World.fileSize, found, within]
  | upload pc => exact .inr (upload_file_advances layout inLoop found)
  | _ => cases inLoop

theorem outside_of_yet_to_check {pc : UploadPc} (before : pc.yetToCheck = true) :
    pc.outside = true := by
  cases pc with
  | upload pc | unlink => cases before
  | _ => rfl

theorem in_loop_cases {pc : UploadPc} (inLoop : pc.inLoop = true) :
    pc.yetToCheck = true ∨ (pc = .upload .semWait ∨ pc = .upload .ifstreamOpen) ∨
      pc.sending = true := by
  cases pc with
  | upload pc =>
      cases pc with
      | semWait => exact .inr (.inl (.inl rfl))
      | ifstreamOpen => exact .inr (.inl (.inr rfl))
      | sftpOpen | ifstreamRead | sftpWrite => exact .inr (.inr rfl)
      | sftpClose result | semPost result =>
          cases result with
          | false => cases inLoop
          | true => exact .inr (.inr rfl)
      | errorOpen | errorWrite => cases inLoop
  | unlink => exact .inr (.inr rfl)
  | session pc | sftp pc | clearRunning | sftpFree | sshDisconnect | sshFree => cases inLoop
  | _ => exact .inl rfl

theorem in_loop_of_sending {pc : UploadPc} (sending : pc.sending = true) : pc.inLoop = true := by
  cases pc with
  | upload pc =>
      cases pc with
      | sftpClose result | semPost result =>
          cases result with
          | false => cases sending
          | true => rfl
      | semWait | ifstreamOpen | errorOpen | errorWrite => cases sending
      | _ => rfl
  | unlink => rfl
  | _ => cases sending

theorem session_up_cases {pc : UploadPc} (up : pc.sessionUp = true) :
    pc.leaving = true ∨ pc.inLoop = true := by
  cases pc with
  | upload pc =>
      cases failed : pc.failed with
      | true => exact .inl failed
      | false => exact .inr (congrArg not failed)
  | session pc | sftp pc | sshDisconnect | sshFree => cases up
  | clearRunning | sftpFree => exact .inl rfl
  | _ => exact .inr rfl

theorem leaving_next {pc : UploadPc} (answer : (pc.call remoteHost2 remote2DestPath).Answer)
    (leaving : pc.leaving = true) :
    (pc.next remoteHost2 remote2DestPath answer).Meets (fun pc' => pc'.leaving = true)
      fun _ => True := by
  cases pc with
  | upload pc =>
      cases pc with
      | sftpClose result | semPost result =>
          cases result with
          | false => rfl
          | true => cases leaving
      | errorOpen | errorWrite => rfl
      | _ => cases leaving
  | clearRunning | sftpFree | sshDisconnect => rfl
  | sshFree => trivial
  | _ => cases leaving

theorem leaving_for_ever {ok : PipelineCondition libraryEnv}
    {trace trace' : List (PipelineEvent libraryEnv)} {state state' : PipelineState libraryEnv}
    (leaving : ∀ pc, state.right = some pc → pc.leaving = true)
    (path : Path downloadThread uploadThread libraryEnv ok trace state trace' state') :
    ∀ pc, state'.right = some pc → pc.leaving = true := by
  induction path with
  | nil => exact leaving
  | cons _ steps _ ih =>
      apply ih
      cases steps with
      | left responds => exact leaving
      | @right pc answer left world world' responds =>
          exact fun _ stands => (leaving_next answer (leaving pc rfl)).resumes stands
      | move moves => exact leaving

/-- The uploader is past the opening, and what it will have sent is not the
archive. -/
def Lost (history : History) (state : PipelineState libraryEnv) : Prop :=
  ∃ pc, state.right = some pc ∧ pc.sending = true ∧ ¬ pc.SendsArchive history state.world

theorem sending_stage {pc : UploadPc} (sending : pc.sending = true) : pc.stage ≤ 4 := by
  cases pc with
  | upload pc =>
      cases pc with
      | sftpOpen => exact Nat.le_refl 4
      | ifstreamRead | sftpWrite => exact Nat.le_succ 3
      | sftpClose result | semPost result => exact Nat.le_of_ble_eq_true rfl
      | _ => cases sending
  | unlink => exact Nat.zero_le 4
  | _ => cases sending

theorem smooth_reads_whole (layout : List Entry → Bytes) (world : World) (pc : UploadPc) :
    pc.readsWhole (world.smooth layout (pc.call remoteHost2 remote2DestPath)) = true := by
  cases pc with
  | upload pc => cases pc <;> rfl
  | _ => rfl

theorem sending_advances {pc pc' : UploadPc} (sending : pc.sending = true)
    (advances : Advances pc pc') : pc'.sending = true := by
  have late := sending_stage sending
  rcases in_loop_cases advances.inLoop with yet | before | sending'
  · have before := advances.outside (outside_of_yet_to_check yet)
    cases pc with
    | upload pc | unlink => cases before
    | _ => cases sending
  · have early : 4 < pc'.stage := by
      rcases before with rfl | rfl
      · exact Nat.lt_add_of_pos_right Nat.two_pos
      · exact Nat.lt_succ_self 4
    rcases advances.closer with lower | ⟨same, _⟩ <;> omega
  · exact sending'

theorem lost_step (layout : List Entry → Bytes) {localZip : Option ZipFile}
    {ok : PipelineCondition libraryEnv} {trace : List (PipelineEvent libraryEnv)}
    {state state' : PipelineState libraryEnv} {event : PipelineEvent libraryEnv}
    (run : PipelineRun libraryEnv ok (Started localZip) trace state)
    (lost : Lost (history localZip trace) state)
    (meets : SmoothlyKeeping layout trace state event)
    (steps : Step downloadThread uploadThread libraryEnv state event state') :
    Lost (history localZip (event :: trace)) state' := by
  obtain ⟨pc, stands, sending, lost⟩ := lost
  have heavier := grown run
  cases steps with
  | @left pc' answer right world world' responds =>
      have sound : pc'.Sound := run.keepsLeft download_keeps (fun _ started => started.1) pc' rfl
      change right = some pc at stands
      subst stands
      exact ⟨pc, rfl, sending, lost_download_step heavier sound sending lost responds⟩
  | @right pc answer left world world' responds =>
      cases stands
      obtain ⟨rfl, kept⟩ := meets
      obtain ⟨opened, bytes, now, sent, present, _⟩ := heavier.upload pc rfl sending
      obtain ⟨pc', next, advances⟩ : ∃ pc', pc.next remoteHost2 remote2DestPath
          (world.smooth layout (pc.call remoteHost2 remote2DestPath)) = .goto pc' ∧
            Advances pc pc' := by
        cases pc with
        | upload pc => exact upload_file_advances layout (in_loop_of_sending sending) present
        | unlink => exact absurd rfl (kept _)
        | _ => cases sending
      have further := sending_advances sending advances
      have stays := lost_upload_next sending lost (by rw [sent]; rfl)
        (smooth_reads_whole layout world pc) responds
      refine ⟨pc', ?_, further, stays.goes next further⟩
      rw [show uploadThread.next pc _ = _ from next]
      rfl
  | move moves => cases meets.1

theorem lost_for_ever (layout : List Entry → Bytes) {localZip : Option ZipFile}
    {trace trace' : List (PipelineEvent libraryEnv)} {state state' : PipelineState libraryEnv}
    (run : PipelineRun libraryEnv (anyStep _ _ _) (Started localZip) trace state)
    (lost : Lost (history localZip trace) state)
    (path : Path downloadThread uploadThread libraryEnv (SmoothlyKeeping layout)
      trace state trace' state') : Lost (history localZip trace') state' := by
  induction path with
  | nil => exact lost
  | cons meets steps _ ih =>
      exact ih (.step run trivial steps) (lost_step layout run lost meets steps)

theorem outside_not_sending {pc : UploadPc} (outside : pc.outside = true) :
    pc.sending = false := by
  cases pc with
  | upload pc | unlink => cases outside
  | _ => rfl

theorem UploadPc.Uploads.small {history : History} {world : World} {pc : UploadPc}
    (uploads : pc.Uploads history world) (outside : pc.outside = true) : Small world := by
  cases uploads with
  | checks before small => exact small
  | opens before => rcases before with rfl | rfl <;> cases outside
  | sends sends =>
      obtain ⟨file, sent, _⟩ := sends
      exact absurd (sending_of_sends sent) (Bool.eq_false_iff.mp (outside_not_sending outside))

theorem UploadPc.Uploads.in_loop {history : History} {world : World} {pc : UploadPc}
    (uploads : pc.Uploads history world) (up : pc.sessionUp = true) : pc.inLoop = true := by
  cases uploads with
  | checks before small =>
      cases pc with
      | session pc | sftp pc => cases up
      | upload pc | unlink | clearRunning | sftpFree | sshDisconnect | sshFree => cases before
      | _ => rfl
  | opens before => rcases before with rfl | rfl <;> rfl
  | sends sends =>
      obtain ⟨file, sent, _⟩ := sends
      exact in_loop_of_sending (sending_of_sends sent)

theorem UploadPc.Uploads.sends_archive {history : History} {world : World} {pc : UploadPc}
    (uploads : pc.Uploads history world) (sending : pc.sending = true) :
    pc.SendsArchive history world := by
  cases uploads with
  | checks before small =>
      rw [outside_not_sending (outside_of_yet_to_check before)] at sending
      cases sending
  | opens before => rcases before with rfl | rfl <;> cases sending
  | sends sends => exact sends

/-- A call of the uploader that leaves it in its loop, with nothing lost in a
read and no large archive before its checks. -/
theorem uploads_next {history : History} {world world' : World} {pc : UploadPc}
    {answer : (pc.call remoteHost2 remote2DestPath).Answer}
    (uploads : pc.sending = true → pc.SendsArchive history world)
    (whole : pc.readsWhole answer = true)
    (responds : world.respond (pc.call remoteHost2 remote2DestPath) answer = some world') :
    (pc.next remoteHost2 remote2DestPath answer).Meets
      (fun pc' => pc'.inLoop = true → (pc'.outside = true → Small world') →
        pc'.Uploads (history.recordUpload pc answer) world') fun _ => True := by
  refine (sends_archive_next uploads whole responds).imp ?_ fun _ _ => trivial
  intro pc' sends inLoop small
  rcases in_loop_cases inLoop with yet | before | sending
  · exact .checks yet (small (outside_of_yet_to_check yet))
  · exact .opens before
  · exact .sends (sends sending)

structure Draining (localZip : Option ZipFile) (trace : List (PipelineEvent libraryEnv))
    (state : PipelineState libraryEnv) : Prop where
  run : PipelineRun libraryEnv (anyStep _ _ _) (Started localZip) trace state
  running : state.world.running = true
  present : state.world.localZip.isSome = true
  upload : ∃ pc, state.right = some pc ∧ pc.inLoop = true ∧
    pc.Uploads (history localZip trace) state.world

def Draining.AtUnlink (localZip : Option ZipFile) (trace : List (PipelineEvent libraryEnv))
    (state : PipelineState libraryEnv) : Prop :=
  Draining localZip trace state ∧ state.right = some .unlink

/-- The uploader's stage comes first; within a stage, what is left of the copy
loop and of the downloader's critical section counts. -/
def drainRank (state : PipelineState libraryEnv) : ℕ ×ₗ ℕ :=
  toLex (state.right.elim 0 UploadPc.stage,
    state.right.elim 0 UploadPc.copyRest + state.left.elim 0 DownloadPc.rest)

theorem draining_upload_step (layout : List Entry → Bytes) {localZip : Option ZipFile}
    {trace : List (PipelineEvent libraryEnv)} {left : Option DownloadPc} {pc : UploadPc}
    {world : World} (draining : Draining localZip trace ⟨left, some pc, world⟩)
    (before : pc ≠ .unlink) (free : pc = .upload .semWait → 0 < world.zipSemaphore) :
    ∃ event state', SmoothlyKeeping layout trace ⟨left, some pc, world⟩ event ∧
      Step downloadThread uploadThread libraryEnv ⟨left, some pc, world⟩ event state' ∧
        Draining localZip (event :: trace) state' ∧
          drainRank state' < drainRank ⟨left, some pc, world⟩ := by
  obtain ⟨run, running, present, _, stands, inLoop, uploads⟩ := draining
  cases stands
  have answered := smooth_responds layout world (pc.call remoteHost2 remote2DestPath) (by
    intro waits
    apply free
    cases pc with
    | upload pc => cases pc <;> first | rfl | cases waits
    | session pc | sftp pc => cases inLoop
    | _ => cases waits)
  obtain ⟨world', responds⟩ := Option.isSome_iff_exists.mp answered
  obtain ⟨pc', next, advances⟩ :=
    (upload_advances layout inLoop running present uploads.small).resolve_left before
  have steps : Step downloadThread uploadThread libraryEnv ⟨left, some pc, world⟩
      (.right pc (world.smooth layout (pc.call remoteHost2 remote2DestPath)))
      ⟨left, some pc', world'⟩ := .right_goto responds next
  have same : world'.localZip = world.localZip := by
    rcases upload_local_zip responds with same | ⟨removes, _⟩
    · exact same
    · exact absurd removes before
  have goesOn : world'.running = true := by
    refine (World.respond_running responds ?_).trans running
    cases pc with
    | upload pc => cases pc <;> nofun
    | session pc | sftp pc | clearRunning => cases inLoop
    | _ => nofun
  have uploads' := (uploads_next uploads.sends_archive (smooth_reads_whole layout world pc)
    responds).goes next advances.inLoop fun outside =>
      small_of_same (uploads.small (advances.outside outside)) same
  refine ⟨.right pc (world.smooth layout (pc.call remoteHost2 remote2DestPath)), _, ⟨rfl, ?_⟩,
    steps, ⟨.step run trivial steps, goesOn, ?_, pc', rfl, advances.inLoop, uploads'⟩, ?_⟩
  · intro removed unlinks
    cases unlinks
    exact before rfl
  · exact (congrArg Option.isSome same).trans present
  · rw [drainRank, drainRank, Prod.Lex.toLex_lt_toLex]
    rcases advances.closer with lower | ⟨stage, lower⟩
    · exact .inl lower
    · exact .inr ⟨stage, Nat.add_lt_add_right lower _⟩

theorem download_keeps_archive {world world' : World} {pc : DownloadPc}
    {answer : (pc.call remoteHost1).Answer}
    (responds : world.respond (pc.call remoteHost1) answer = some world')
    (present : world.localZip.isSome = true) : world'.localZip.isSome = true := by
  cases download_effect responds with
  | opens found => exact present
  | commit closes => rfl
  | quiet records same remoteFile opened => exact (congrArg Option.isSome same).trans present

theorem draining_download_step (layout : List Entry → Bytes) {localZip : Option ZipFile}
    {trace : List (PipelineEvent libraryEnv)} {pc : DownloadPc} {world : World}
    (draining : Draining localZip trace ⟨some pc, some (.upload .semWait), world⟩)
    (inside : pc.critical = true) :
    ∃ event state',
      SmoothlyKeeping layout trace ⟨some pc, some (.upload .semWait), world⟩ event ∧
      Step downloadThread uploadThread libraryEnv ⟨some pc, some (.upload .semWait), world⟩
        event state' ∧ Draining localZip (event :: trace) state' ∧
          drainRank state' < drainRank ⟨some pc, some (.upload .semWait), world⟩ := by
  obtain ⟨run, running, present, _, stands, inLoop, _⟩ := draining
  cases stands
  have answered := smooth_responds layout world (pc.call remoteHost1) (by
    intro waits
    cases pc with
    | append vars file todo done pc =>
        cases pc with
        | semWait => cases inside
        | _ => cases waits
    | _ => cases inside)
  obtain ⟨world', responds⟩ := Option.isSome_iff_exists.mp answered
  have closer := rest_next (world.smooth layout (pc.call remoteHost1)) inside
  cases next : pc.next remoteHost1 (world.smooth layout (pc.call remoteHost1)) with
  | done result =>
      rw [next] at closer
      exact closer.elim
  | goto pc' =>
      rw [next, Next.meets_goto] at closer
      have steps : Step downloadThread uploadThread libraryEnv
          ⟨some pc, some (.upload .semWait), world⟩
          (.left pc (world.smooth layout (pc.call remoteHost1)))
          ⟨some pc', some (.upload .semWait), world'⟩ := .left_goto responds next
      have kept : world'.localZip.isSome = true := download_keeps_archive responds present
      have goesOn : world'.running = true := by
        refine (World.respond_running responds ?_).trans running
        cases pc with
        | append vars file todo done pc => cases pc <;> nofun
        | _ => cases inside
      refine ⟨.left pc (world.smooth layout (pc.call remoteHost1)), _, ⟨rfl, nofun⟩, steps,
        ⟨.step run trivial steps, goesOn, kept, .upload .semWait, rfl, rfl, .opens (.inl rfl)⟩, ?_⟩
      rw [drainRank, drainRank, Prod.Lex.toLex_lt_toLex]
      exact .inr ⟨rfl, Nat.add_lt_add_left closer _⟩

theorem draining_at_unlink (layout : List Entry → Bytes) {localZip : Option ZipFile}
    {trace : List (PipelineEvent libraryEnv)} {state : PipelineState libraryEnv}
    (draining : Draining localZip trace state) :
    ∃ trace' state', Path downloadThread uploadThread libraryEnv (SmoothlyKeeping layout)
      trace state trace' state' ∧ Draining.AtUnlink localZip trace' state' := by
  by_cases there : state.right = some .unlink
  · exact ⟨trace, state, .nil, draining, there⟩
  refine exists_path_of_descent
    (fun trace state => Draining localZip trace state ∧ state.right ≠ some .unlink)
    (Draining.AtUnlink localZip) drainRank ?_ ⟨draining, there⟩
  rintro trace state ⟨draining, before⟩
  have total := library_semaphore_total draining.run
  obtain ⟨pc, stands, _⟩ := draining.upload
  obtain ⟨left, right, world⟩ := state
  simp only at stands total before
  subst stands
  have step : ∃ event state', SmoothlyKeeping layout trace ⟨left, some pc, world⟩ event ∧
      Step downloadThread uploadThread libraryEnv ⟨left, some pc, world⟩ event state' ∧
        Draining localZip (event :: trace) state' ∧
          drainRank state' < drainRank ⟨left, some pc, world⟩ := by
    by_cases waits : pc = .upload .semWait ∧ held DownloadPc.critical left = 1
    · -- the downloader has to leave its critical section first
      obtain ⟨rfl, inside⟩ := waits
      cases left with
      | none => cases inside
      | some pc =>
          cases critical : pc.critical with
          | false => simp [critical] at inside
          | true => exact draining_download_step layout draining critical
    · refine draining_upload_step layout draining (fun same => before (congrArg some same)) ?_
      rintro rfl
      have outside : held UploadPc.critical (some (.upload .semWait)) = 0 := rfl
      have free : held DownloadPc.critical left ≠ 1 := fun inside => waits ⟨rfl, inside⟩
      omega
  obtain ⟨event, state', smooth, steps, next, closer⟩ := step
  refine ⟨event, state', smooth, steps, ?_⟩
  by_cases arrived : state'.right = some .unlink
  · exact .inl ⟨next, arrived⟩
  · exact .inr ⟨⟨next, arrived⟩, closer⟩

theorem draining_drains (layout : List Entry → Bytes) {localZip : Option ZipFile}
    {trace : List (PipelineEvent libraryEnv)} {state : PipelineState libraryEnv}
    (draining : Draining localZip trace state) : Drains layout localZip trace state := by
  obtain ⟨trace', state', path, ⟨_, _, _, pc, stands, _, uploads⟩, arrived⟩ :=
    draining_at_unlink layout draining
  cases stands.symm.trans arrived
  obtain ⟨file, sent, present⟩ := uploads.sends_archive rfl
  obtain ⟨left, right, world⟩ := state'
  simp only at stands present
  subst stands
  have removed : world.respond (.unlink localZipPath) true =
      some { world with localZip := none } := by
    simp [World.respond, present]
  exact ⟨trace', _, _, file, path, present, sent, .right removed, rfl⟩

def UploadPc.uploadFailed : UploadPc → Bool
  | .upload pc => pc.failed
  | _ => false

/-- No call with which `upload_file` gives up. -/
def UploadPc.goesOn (pc : UploadPc) (answer : (pc.call remoteHost2 remote2DestPath).Answer) :
    Bool :=
  !(pc.next remoteHost2 remote2DestPath answer).resume.any UploadPc.uploadFailed

/-- While the uploader has its checks before it, no append commits an archive
over the threshold, and no unlink that fails leaves one to it; no append commits
between an upload and its unlink; no upload fails; and no read of the archive
fails with something left to read. -/
def StaysUploadable : PipelineCondition libraryEnv :=
  fun _ state event => match event with
    | .left (.append _ _ _ _ (.zipClose _)) (.written written) =>
        (state.right.any UploadPc.yetToCheck = true → written.bytes.length ≤ maxZipSize) ∧
          state.right ≠ some .unlink
    | .right .unlink false => Small state.world
    | .right pc answer => pc.readsWhole answer = true ∧ pc.goesOn answer = true
    | _ => True

theorem yet_to_check_next {pc : UploadPc}
    (answer : (pc.call remoteHost2 remote2DestPath).Answer) :
    (pc.next remoteHost2 remote2DestPath answer).Meets
      (fun pc' => pc'.yetToCheck = true → pc.yetToCheck = true ∨ pc = .unlink)
      fun _ => True := by
  cases pc with
  | upload pc =>
      simp only [UploadPc.next]
      split <;> exact fun yet => by cases yet
  | unlink => exact fun _ => .inr rfl
  | session pc | sftp pc | fileExists | fileSize =>
      simp only [UploadPc.next]
      split <;> first | trivial | exact fun _ => .inl rfl
  | readRunning => cases answer <;> exact fun _ => .inl rfl
  | sleep => exact fun _ => .inl rfl
  | sshFree => trivial
  | clearRunning | sftpFree | sshDisconnect => exact fun yet => by cases yet

theorem stays_right {trace : List (PipelineEvent libraryEnv)} {state : PipelineState libraryEnv}
    {pc : UploadPc} {answer : (pc.call remoteHost2 remote2DestPath).Answer}
    (stays : StaysUploadable trace state (.right pc answer)) :
    pc.readsWhole answer = true ∧ pc.goesOn answer = true := by
  cases pc with
  | unlink => exact ⟨rfl, rfl⟩
  | _ => exact stays

theorem goes_on_next {pc : UploadPc} {answer : (pc.call remoteHost2 remote2DestPath).Answer}
    (goesOn : pc.goesOn answer = true) :
    (pc.next remoteHost2 remote2DestPath answer).Meets
      (fun pc' => pc'.uploadFailed = false) fun _ => True := by
  unfold UploadPc.goesOn at goesOn
  cases next : pc.next remoteHost2 remote2DestPath answer with
  | goto pc' => simpa [next] using goesOn
  | done result => trivial

theorem upload_file_returns {pc : UploadFilePc}
    {answer : (pc.call localZipPath remote2DestPath).Answer} {result : Bool}
    (returns : pc.next localZipPath remote2DestPath answer = .done result) :
    pc = .semPost result := by
  cases pc with
  | semPost posted =>
      cases returns
      rfl
  | ifstreamOpen | sftpOpen => cases answer <;> cases returns
  | ifstreamRead stream =>
      simp only [UploadFilePc.next] at returns
      split at returns <;> cases returns
  | sftpWrite stream block =>
      cases answer with
      | none => cases returns
      | some count =>
          simp only [UploadFilePc.next] at returns
          split at returns <;> cases returns
  | _ => cases returns

theorem leaving_up_next {world world' : World} {pc : UploadPc}
    {answer : (pc.call remoteHost2 remote2DestPath).Answer}
    (before : pc.leaving = true → pc.sessionUp = true → world.running = false)
    (goesOn : pc.goesOn answer = true)
    (responds : world.respond (pc.call remoteHost2 remote2DestPath) answer = some world') :
    (pc.next remoteHost2 remote2DestPath answer).Meets
      (fun pc' => pc'.leaving = true → pc'.sessionUp = true → world'.running = false)
      fun _ => True := by
  have stays : pc.leaving = true → pc.sessionUp = true → world'.running = false :=
    fun leaving up => World.respond_stopped responds (before leaving up)
  have fine := goes_on_next goesOn
  cases pc with
  | upload pc =>
      simp only [UploadPc.next] at fine ⊢
      split at fine
      · exact fun failed => absurd failed (Bool.eq_false_iff.mp fine)
      · exact fun leaving => by cases leaving
      · rename_i returns
        obtain rfl := upload_file_returns returns
        exact fun _ _ => stays rfl rfl
  | readRunning =>
      cases answer with
      | true => exact fun leaving => by cases leaving
      | false =>
          have read : false = world.running := World.respond_read_running responds
          exact fun _ _ => World.respond_stopped responds read.symm
  | clearRunning => exact fun _ _ => stays rfl rfl
  | sftpFree | sshDisconnect => exact fun _ up => by cases up
  | sshFree => trivial
  | sftp pc =>
      simp only [UploadPc.next]
      split
      · exact fun leaving => by cases leaving
      · exact fun _ up => by cases up
      · exact fun leaving => by cases leaving
  | session pc | fileExists | fileSize =>
      simp only [UploadPc.next]
      split <;> trivial
  | unlink | sleep => exact fun leaving => by cases leaving

/-- Under that condition an archive over the threshold is only ever there while
the uploader is about to upload or remove it, or has given up. -/
theorem none_large_left {localZip : Option ZipFile} {trace : List (PipelineEvent libraryEnv)}
    {state : PipelineState libraryEnv}
    (starts : ∀ file, localZip = some file → file.bytes.length ≤ maxZipSize)
    (run : PipelineRun libraryEnv StaysUploadable (Started localZip) trace state) :
    ∀ pc, state.right = some pc → pc.yetToCheck = true → Small state.world := by
  refine run.invariant (fun _ state => ∀ pc : UploadPc, state.right = some pc →
    pc.yetToCheck = true → Small state.world) ?_ ?_
  · rintro state ⟨_, _, _, _, present⟩ pc _ _ file found
    exact starts file (present.symm.trans found)
  · intro trace state event state' _ before meets steps
    cases steps with
    | @left pc answer right world world' responds =>
        intro pc' stands yet
        cases download_effect responds with
        | opens found => exact before pc' stands yet
        | @commit vars file todo done archive written closes =>
            intro file' present
            cases present
            exact meets.1 (by rw [stands]; exact yet)
        | quiet records same remoteFile opened => exact small_of_same (before pc' stands yet) same
    | @right pc answer left world world' responds =>
        intro pc' stands yet
        rcases (yet_to_check_next answer).resumes stands yet with check | rfl
        · have small : Small world := before pc rfl check
          rcases upload_local_zip responds with same | ⟨rfl, _⟩
          · exact small_of_same small same
          · cases check
        · cases answer with
          | false =>
              cases responds
              exact meets
          | true =>
              have gone : world'.localZip = none := @World.respond_unlink _ _ localZipPath responds
              intro file present
              exact absurd (gone.symm.trans present) (by simp)
    | @move move left right world world' moves =>
        cases move
        cases moves
        exact before

theorem archive_sent {localZip : Option ZipFile} {trace : List (PipelineEvent libraryEnv)}
    {state : PipelineState libraryEnv}
    (run : PipelineRun libraryEnv StaysUploadable (Started localZip) trace state) :
    ∀ pc, state.right = some pc → pc.sending = true →
      pc.SendsArchive (history localZip trace) state.world := by
  refine run.invariant (fun trace state => ∀ pc : UploadPc, state.right = some pc →
    pc.sending = true → pc.SendsArchive (history localZip trace) state.world) ?_ ?_
  · rintro state ⟨_, atRight, _, _, _⟩ pc stands sending
    rw [atRight] at stands
    cases stands
    cases sending
  · intro trace state event state' run before meets steps
    have total := library_semaphore_total run
    cases steps with
    | @left pc answer right world world' responds =>
        intro pc' stands sending
        obtain ⟨file, sent, present⟩ := before pc' stands sending
        cases download_effect responds with
        | opens found => exact ⟨file, sent, present⟩
        | quiet records same remoteFile opened =>
            exact ⟨file, (sends_download _ _ _ _).trans sent, same.trans present⟩
        | @commit vars listed todo done archive written closes =>
            -- past the opening the uploader has the semaphore or is at its unlink
            change right = some pc' at stands
            subst stands
            have outside : pc'.critical = true ∨ pc' = .unlink := by
              cases pc' with
              | upload pc => cases pc <;> first | exact .inl rfl | cases sending
              | unlink => exact .inr rfl
              | _ => cases sending
            rcases outside with inside | rfl
            · have critical : (DownloadPc.append vars listed todo done
                  (.zipClose archive)).critical = true := rfl
              simp only [held_some, inside, critical, Bool.toNat_true] at total
              omega
            · exact absurd rfl meets.2
    | @right pc answer left world world' responds =>
        intro pc' stands sending
        exact (sends_archive_next (before pc rfl) (stays_right meets).1
          responds).resumes stands sending
    | @move move left right world world' moves =>
        cases move
        cases moves
        exact before

theorem leaving_stopped {localZip : Option ZipFile} {trace : List (PipelineEvent libraryEnv)}
    {state : PipelineState libraryEnv}
    (run : PipelineRun libraryEnv StaysUploadable (Started localZip) trace state) :
    ∀ pc, state.right = some pc → pc.leaving = true → pc.sessionUp = true →
      state.world.running = false := by
  refine run.invariant (fun _ (state : PipelineState libraryEnv) =>
    ∀ pc : UploadPc, state.right = some pc → pc.leaving = true → pc.sessionUp = true →
      state.world.running = false) ?_ ?_
  · rintro state ⟨_, atRight, _, _, _⟩ pc stands leaving
    rw [atRight] at stands
    cases stands
    cases leaving
  · intro trace state event state' _ before meets steps
    have stopped := stopped_step steps
    cases steps with
    | left responds => exact fun pc stands leaving up => stopped (before pc stands leaving up)
    | @right pc answer left world world' responds =>
        exact fun _ stands =>
          (leaving_up_next (before pc rfl) (stays_right meets).2 responds).resumes stands
    | move moves => exact fun pc stands leaving up => stopped (before pc stands leaving up)

theorem leaving_never_drains {layout : List Entry → Bytes} {localZip : Option ZipFile}
    {trace : List (PipelineEvent libraryEnv)} {state : PipelineState libraryEnv} {pc : UploadPc}
    (stands : state.right = some pc) (leaving : pc.leaving = true) :
    ¬ Drains layout localZip trace state := by
  rintro ⟨trace', state', after, file, path, removes⟩
  have leaves : ∀ pc, state.right = some pc → pc.leaving = true := by
    intro pc' at'
    cases stands.symm.trans at'
    exact leaving
  cases leaving_for_ever leaves path _ removes.at_unlink

theorem large_never_drains {layout : List Entry → Bytes} {localZip : Option ZipFile}
    {trace : List (PipelineEvent libraryEnv)} {state : PipelineState libraryEnv} {pc : UploadPc}
    (run : PipelineRun libraryEnv (anyStep _ _ _) (Started localZip) trace state)
    (stands : state.right = some pc) (outside : pc.outside = true)
    (large : ¬ Small state.world) : ¬ Drains layout localZip trace state := by
  apply wedged_never_drains
  refine ⟨large, ?_, ?_⟩
  · intro pc' at'
    cases past : pc'.pastSizeCheck with
    | false => rfl
    | true => exact absurd (downloading_small run pc' at' past) large
  · intro pc' at'
    cases stands.symm.trans at'
    exact outside

theorem lost_never_drains {layout : List Entry → Bytes} {localZip : Option ZipFile}
    {trace : List (PipelineEvent libraryEnv)} {state : PipelineState libraryEnv}
    (run : PipelineRun libraryEnv (anyStep _ _ _) (Started localZip) trace state)
    (lost : Lost (history localZip trace) state) : ¬ Drains layout localZip trace state := by
  rintro ⟨trace', state', after, file, path, removes⟩
  obtain ⟨pc, stands, _, lost⟩ := lost_for_ever layout run lost path
  cases stands.symm.trans removes.at_unlink
  exact lost ⟨file, removes.uploaded, removes.present⟩

/-- The archive can still be uploaded and removed exactly if the uploader has
still to check it and it is within the threshold, or is past its checks and has
not opened it, or has opened it, will have sent all of it and nothing has been
committed since. In a run that meets the condition it always can be. -/
theorem archive_drains (layout : List Entry → Bytes) (localZip : Option ZipFile) :
    (∀ trace state,
      PipelineRun libraryEnv (anyStep _ _ _) (Started localZip) trace state → Live state →
        (Drains layout localZip trace state ↔
          ∃ pc, state.right = some pc ∧ pc.Uploads (history localZip trace) state.world)) ∧
    ((∀ file, localZip = some file → file.bytes.length ≤ maxZipSize) →
      ∀ trace state, PipelineRun libraryEnv StaysUploadable (Started localZip) trace state →
        Live state → Drains layout localZip trace state) := by
  constructor
  · intro trace state run ⟨running, _, ⟨pc, stands, up⟩, present⟩
    constructor
    · intro drains
      rcases session_up_cases up with leaving | inLoop
      · exact absurd drains (leaving_never_drains stands leaving)
      rcases in_loop_cases inLoop with before | before | sending
      · refine ⟨pc, stands, .checks before ?_⟩
        by_contra large
        exact large_never_drains run stands (outside_of_yet_to_check before) large drains
      · exact ⟨pc, stands, .opens before⟩
      · refine ⟨pc, stands, .sends ?_⟩
        by_contra lost
        exact lost_never_drains run ⟨pc, stands, sending, lost⟩ drains
    · rintro ⟨pc', stands', uploads⟩
      cases stands.symm.trans stands'
      exact draining_drains layout
        ⟨run, running, present, pc, stands, uploads.in_loop up, uploads⟩
  · intro starts trace state run ⟨running, _, ⟨pc, stands, up⟩, present⟩
    have inLoop : pc.inLoop = true := by
      rcases session_up_cases up with leaving | inLoop
      · rw [leaving_stopped run pc stands leaving up] at running
        cases running
      · exact inLoop
    refine draining_drains layout ⟨run.any, running, present, pc, stands, inLoop, ?_⟩
    rcases in_loop_cases inLoop with before | before | sending
    · exact .checks before (none_large_left starts run pc stands before)
    · exact .opens before
    · exact .sends (archive_sent run pc stands sending)

/-- No append over the threshold or before an unlink, and no unlink, upload or
read that fails. -/
def keepsUploadable (state : PipelineState libraryEnv) : PipelineEvent libraryEnv → Bool
  | .left (.append _ _ _ _ (.zipClose _)) (.written written) =>
      decide (written.bytes.length ≤ maxZipSize ∧ state.right ≠ some .unlink)
  | .right .unlink false => false
  | .right pc answer => pc.readsWhole answer && pc.goesOn answer
  | _ => true

/-- One small file has been appended; the uploader is at the head of its
loop. -/
theorem archive_drains_small :
    ∃ trace state, PipelineRun libraryEnv StaysUploadable (Started none) trace state ∧
      Live state ∧ Drains plainLayout none trace state ∧
        ∃ pc, state.right = some pc ∧ pc.Uploads (history none trace) state.world := by
  have found : ∃ trace state,
      PipelineRun libraryEnv StaysUploadable (Started none) trace state ∧
        (state.world.running && state.left.any DownloadPc.sessionUp &&
          state.right.any UploadPc.sessionUp && state.world.localZip.isSome) = true :=
    exists_run_of_play
      (fun _ state event => keepsUploadable state event)
      (bothSetUp plainLayout ++ fetches plainLayout (ascii "a") [ascii "text"] 1 1 1 ++
        appends plainLayout)
      (startState none) _
      (by
        intro trace state event meets
        unfold StaysUploadable
        split
        · exact ⟨fun _ => (of_decide_eq_true meets).1, (of_decide_eq_true meets).2⟩
        · cases meets
        · rename_i pc answer _
          cases pc with
          | unlink => exact ⟨rfl, rfl⟩
          | _ => exact Bool.and_eq_true_iff.mp meets
        · trivial)
      (start_state_started none) (by decide +kernel)
  obtain ⟨trace, state, run, outcome⟩ := found
  simp only [Bool.and_eq_true, Option.any_eq_true] at outcome
  obtain ⟨⟨⟨running, download⟩, upload⟩, present⟩ := outcome
  have live : Live state := ⟨running, download, upload, present⟩
  have drains := (archive_drains plainLayout none).2 nofun trace state run live
  have uploads := ((archive_drains plainLayout none).1 trace state run.any live).mp drains
  exact ⟨trace, state, run, live, drains, uploads⟩

theorem large_archive_wedged (content : Bytes) (large : maxZipSize < content.length) :
    Wedged ⟨some (.sleep (appendedVars content)), some .readRunning,
      ⟨1, true, some (largeArchive content), none, []⟩⟩ := by
  refine ⟨?_, ?_, ?_⟩
  · intro small
    have within := small (largeArchive content) rfl
    rw [large_archive_length] at within
    omega
  · intro pc stands
    cases stands
    rfl
  · intro pc stands
    cases stands
    rfl

/-- An append makes the archive too large before the uploader comes to its
checks, and nothing removes it any more. -/
theorem large_archive_stays :
    ¬ ∀ (layout : List Entry → Bytes) (trace : List (PipelineEvent libraryEnv))
        (state : PipelineState libraryEnv),
      PipelineRun libraryEnv (anyStep _ _ _) (Started none) trace state → Live state →
        Drains layout none trace state := by
  intro drains
  obtain ⟨listedTrace, listed⟩ := small_then_large_run .readRunning 0 (by decide +kernel)
  have stored := (large_content_read (some .readRunning) ⟨1, true, some smallArchive, none, []⟩
    listedTrace).trans (large_append largeContent _)
  obtain ⟨trace, run⟩ := listed.reach stored
  have live : Live ⟨some (.sleep (appendedVars largeContent)), some .readRunning,
      ⟨1, true, some (largeArchive largeContent), none, []⟩⟩ :=
    ⟨rfl, ⟨_, rfl, rfl⟩, ⟨_, rfl, rfl⟩, rfl⟩
  have wedged := large_archive_wedged largeContent (by rw [large_content_length]; decide)
  exact wedged_never_drains wedged (drains plainLayout trace _ run live)

end FileTransfer
