import FileTransfer.Pipeline.LargeArchive

/-!
# The two threads stop together

A routine that leaves its loop clears `running` on its way out, and so does
SIGINT; nothing sets it again. A routine whose session set-up fails returns
without clearing it.
-/

namespace FileTransfer

set_option autoImplicit false

open Interaction

/-- `create_ssh_session` or `create_sftp_session` comes to NULL. -/
def DownloadPc.failsSetUp : (pc : DownloadPc) → (pc.call remoteHost1).Answer → Bool
  | .session pc, answer => pc.next remoteHost1 answer = .done false
  | .sftp pc, answer => pc.next answer = .done false
  | _, _ => false

def UploadPc.failsSetUp :
    (pc : UploadPc) → (pc.call remoteHost2 remote2DestPath).Answer → Bool
  | .session pc, answer => pc.next remoteHost2 answer = .done false
  | .sftp pc, answer => pc.next answer = .done false
  | _, _ => false

def downloadSetUpFailed (trace : List (PipelineEvent libraryEnv)) : Bool :=
  trace.any fun event => match event with
    | .left pc answer => pc.failsSetUp answer
    | _ => false

def uploadSetUpFailed (trace : List (PipelineEvent libraryEnv)) : Bool :=
  trace.any fun event => match event with
    | .right pc answer => pc.failsSetUp answer
    | _ => false

/-- A routine whose set-up has failed returns only when `running` is false
already. -/
def AbandonedOnlyStopped : PipelineCondition libraryEnv :=
  fun trace state event => match event with
    | .left pc answer => pc.next remoteHost1 answer = .done () →
        downloadSetUpFailed (event :: trace) = true → state.world.running = false
    | .right pc answer => pc.next remoteHost2 remote2DestPath answer = .done () →
        uploadSetUpFailed (event :: trace) = true → state.world.running = false
    | .move _ => True

instance (trace : List (PipelineEvent libraryEnv)) (state : PipelineState libraryEnv)
    (event : PipelineEvent libraryEnv) : Decidable (AbandonedOnlyStopped trace state event) :=
  match event with
  | .left pc answer => inferInstanceAs (Decidable (pc.next remoteHost1 answer = .done () → _ → _))
  | .right pc answer =>
      inferInstanceAs (Decidable (pc.next remoteHost2 remote2DestPath answer = .done () → _ → _))
  | .move _ => inferInstanceAs (Decidable True)

/-- Behind the loop `running` is false, unless the loop was never entered. -/
def DownloadPc.Leaving (failed : Bool) (world : World) : DownloadPc → Prop
  | .sftpFree => world.running = false
  | .sshDisconnect | .sshFree => failed = true ∨ world.running = false
  | _ => True

def UploadPc.Leaving (failed : Bool) (world : World) : UploadPc → Prop
  | .sftpFree => world.running = false
  | .sshDisconnect | .sshFree => failed = true ∨ world.running = false
  | _ => True

theorem stopped_path {ok : PipelineCondition libraryEnv}
    {trace trace' : List (PipelineEvent libraryEnv)} {state state' : PipelineState libraryEnv}
    (path : Path downloadThread uploadThread libraryEnv ok trace state trace' state')
    (stopped : state.world.running = false) : state'.world.running = false := by
  induction path with
  | nil => exact stopped
  | cons meets steps rest ih => exact ih (stopped_step steps stopped)

theorem DownloadPc.Leaving.stays {failed : Bool} {world world' : World} {pc : DownloadPc}
    (leaving : pc.Leaving failed world)
    (stays : world.running = false → world'.running = false) : pc.Leaving failed world' := by
  cases pc with
  | sftpFree => exact stays leaving
  | sshDisconnect => exact leaving.imp_right stays
  | sshFree => exact leaving.imp_right stays
  | _ => trivial

theorem UploadPc.Leaving.stays {failed : Bool} {world world' : World} {pc : UploadPc}
    (leaving : pc.Leaving failed world)
    (stays : world.running = false → world'.running = false) : pc.Leaving failed world' := by
  cases pc with
  | sftpFree => exact stays leaving
  | sshDisconnect => exact leaving.imp_right stays
  | sshFree => exact leaving.imp_right stays
  | _ => trivial

theorem download_leaving_step {failed : Bool} {world world' : World} {pc : DownloadPc}
    {answer : (pc.call remoteHost1).Answer} (leaving : pc.Leaving failed world)
    (responds : world.respond (pc.call remoteHost1) answer = some world') :
    (pc.next remoteHost1 answer).Meets
      (fun pc' => pc'.Leaving (pc.failsSetUp answer || failed) world')
      fun _ => (pc.failsSetUp answer || failed) = true ∨ world'.running = false := by
  have stays := World.respond_stopped responds
  cases pc with
  | session pc | sftp pc =>
      simp only [DownloadPc.next]
      split
      · trivial
      · rename_i fails
        exact .inl (by simp [DownloadPc.failsSetUp, fails])
      · trivial
  | clearRunning =>
      cases responds
      rfl
  | sftpFree => exact .inr (stays leaving)
  | sshDisconnect => exact leaving.imp_right stays
  | sshFree => exact leaving.imp_right stays
  | readRunning vars => cases answer <;> trivial
  | listing vars time pc =>
      simp only [DownloadPc.next]
      split
      · trivial
      · exact DownloadPc.listed_elim (motive := DownloadPc.Leaving _ world') (fun _ => trivial)
          (fun _ _ _ _ => trivial) _ _ _
  | append vars file todo done pc =>
      simp only [DownloadPc.next]
      split
      · trivial
      · exact DownloadPc.loop_elim (motive := DownloadPc.Leaving _ world') (fun _ => trivial)
          (fun _ _ _ _ => trivial) _ _ _
      · trivial
  | fileSize vars file todo done | download vars file todo done pc =>
      simp only [DownloadPc.next]
      split <;> trivial
  | _ => trivial

theorem upload_leaving_step {failed : Bool} {world world' : World} {pc : UploadPc}
    {answer : (pc.call remoteHost2 remote2DestPath).Answer} (leaving : pc.Leaving failed world)
    (responds : world.respond (pc.call remoteHost2 remote2DestPath) answer = some world') :
    (pc.next remoteHost2 remote2DestPath answer).Meets
      (fun pc' => pc'.Leaving (pc.failsSetUp answer || failed) world')
      fun _ => (pc.failsSetUp answer || failed) = true ∨ world'.running = false := by
  have stays := World.respond_stopped responds
  cases pc with
  | session pc | sftp pc =>
      simp only [UploadPc.next]
      split
      · trivial
      · rename_i fails
        exact .inl (by simp [UploadPc.failsSetUp, fails])
      · trivial
  | clearRunning =>
      cases responds
      rfl
  | sftpFree => exact .inr (stays leaving)
  | sshDisconnect => exact leaving.imp_right stays
  | sshFree => exact leaving.imp_right stays
  | readRunning => cases answer <;> trivial
  | fileExists | fileSize | upload pc =>
      simp only [UploadPc.next]
      split <;> trivial
  | _ => trivial

structure Stopping (trace : List (PipelineEvent libraryEnv)) (state : PipelineState libraryEnv) :
    Prop where
  download : ∀ pc, state.left = some pc → pc.Leaving (downloadSetUpFailed trace) state.world
  upload : ∀ pc, state.right = some pc → pc.Leaving (uploadSetUpFailed trace) state.world
  returned : state.left = none ∨ state.right = none → state.world.running = false

theorem stopping {localZip : Option ZipFile} {trace : List (PipelineEvent libraryEnv)}
    {state : PipelineState libraryEnv}
    (run : PipelineRun libraryEnv AbandonedOnlyStopped (Started localZip) trace state) :
    Stopping trace state := by
  apply run.invariant Stopping
  · rintro state ⟨atLeft, atRight, _⟩
    refine ⟨?_, ?_, ?_⟩
    · intro pc stands
      rw [atLeft] at stands
      cases stands
      trivial
    · intro pc stands
      rw [atRight] at stands
      cases stands
      trivial
    · rw [atLeft, atRight]
      rintro (gone | gone) <;> cases gone
  · intro trace state event state' _ before meets steps
    obtain ⟨download, upload, returned⟩ := before
    have stays := stopped_step steps
    cases steps with
    | @left pc answer right world world' responds =>
        have leaving := download_leaving_step (download pc rfl) responds
        refine ⟨?_, ?_, ?_⟩
        · intro pc' stands
          exact leaving.resumes stands
        · intro pc' stands
          exact (upload pc' stands).stays stays
        · rintro (gone | gone)
          · cases next : pc.next remoteHost1 answer with
            | goto pc' =>
                change (pc.next remoteHost1 answer).resume = none at gone
                simp [next] at gone
            | done result =>
                rw [next] at leaving
                rcases leaving with failed | stopped
                · exact stays (meets next failed)
                · exact stopped
          · exact stays (returned (.inr gone))
    | @right pc answer left world world' responds =>
        have leaving := upload_leaving_step (upload pc rfl) responds
        refine ⟨?_, ?_, ?_⟩
        · intro pc' stands
          exact (download pc' stands).stays stays
        · intro pc' stands
          exact leaving.resumes stands
        · rintro (gone | gone)
          · exact stays (returned (.inl gone))
          · cases next : pc.next remoteHost2 remote2DestPath answer with
            | goto pc' =>
                change (pc.next remoteHost2 remote2DestPath answer).resume = none at gone
                simp [next] at gone
            | done result =>
                rw [next] at leaving
                rcases leaving with failed | stopped
                · exact stays (meets next failed)
                · exact stopped
    | @move move left right world world' moves =>
        cases move
        cases moves
        exact ⟨fun pc stands => (download pc stands).stays fun _ => rfl,
          fun pc stands => (upload pc stands).stays fun _ => rfl, fun _ => rfl⟩

-- With `running` false and nothing going wrong every call brings its thread
-- closer to its return, except that the copy loop of `upload_file` goes round
-- until its stream is used up.

def SshSessionPc.ahead : SshSessionPc → Nat
  | .sshNew => 15
  | .setUser => 14
  | .setHost => 13
  | .setAcceptedTypes => 12
  | .errorOptions => 11
  | .sshConnect => 10
  | .errorConnect => 9
  | .importPrivkey => 8
  | .errorImport => 7
  | .userauth => 6
  | .errorUserauth => 5
  | .keyFreeRejected => 4
  | .disconnectRejected => 3
  | .sshFree => 2
  | .keyFree => 1

def SftpSessionPc.ahead : SftpSessionPc → Nat
  | .sftpNew => 5
  | .errorNew => 4
  | .sftpInit => 3
  | .errorInit => 2
  | .sftpFree => 1

def FileExistsPc.ahead : FileExistsPc → Nat
  | .zipOpen => 3
  | .zipNameLocate _ => 2
  | .zipClose _ _ => 1

def ListPc.ahead : ListPc → Nat
  | .sftpOpendir => 3
  | .errorOpendir => 1
  | .sftpReaddir _ => 2
  | .fileExists _ _ pc => 4 + pc.ahead
  | .sftpAttributesFree _ => 3
  | .sftpClosedir _ => 1

/-- How many files the listing will report at most. -/
def ListPc.collected : ListPc → Nat
  | .sftpReaddir newFiles | .sftpAttributesFree newFiles | .sftpClosedir newFiles =>
      newFiles.length
  | .fileExists newFiles _ _ => newFiles.length + 1
  | _ => 0

def DownloadFilePc.ahead : DownloadFilePc → Nat
  | .sftpOpen => 3
  | .sftpRead _ => 2
  | .sftpClose _ _ => 1

def AppendPc.ahead : AppendPc → Nat
  | .semWait => 9
  | pc => pc.rest

/-- Fifteen calls are enough for a file. -/
def DownloadPc.ahead : DownloadPc → Nat
  | .session pc => 20 + pc.ahead
  | .sftp pc => 10 + pc.ahead
  | .initialNow => 7
  | .readRunning _ => 5
  | .now vars => 12 + 15 * vars.fileHistory.length
  | .listing vars _ pc => 8 + 15 * (vars.fileHistory.length + pc.collected) + pc.ahead
  | .fileSize _ _ todo _ => 7 + 15 * (todo.length + 1)
  | .download _ _ todo _ pc => 16 + 15 * todo.length + pc.ahead
  | .append _ _ todo _ pc => 7 + 15 * todo.length + pc.ahead
  | .sleep _ => 6
  | .clearRunning => 4
  | .sftpFree => 3
  | .sshDisconnect => 2
  | .sshFree => 1

def UploadFilePc.ahead : UploadFilePc → Nat
  | .semWait => 9
  | .ifstreamOpen => 8
  | .sftpOpen _ => 7
  | .ifstreamRead _ | .sftpWrite _ _ => 5
  | .errorWrite => 3
  | .errorOpen | .sftpClose _ => 2
  | .semPost _ => 1

def UploadPc.ahead : UploadPc → Nat
  | .session pc => 20 + pc.ahead
  | .sftp pc => 10 + pc.ahead
  | .fileExists => 18
  | .fileSize => 17
  | .upload pc => 7 + pc.ahead
  | .unlink => 7
  | .sleep => 6
  | .readRunning => 5
  | .clearRunning => 4
  | .sftpFree => 3
  | .sshDisconnect => 2
  | .sshFree => 1

theorem ssh_session_closer (host : Bytes) {pc : SshSessionPc} (answer : (pc.call host).Answer) :
    (pc.next host answer).Meets (fun pc' => pc'.ahead < pc.ahead) fun _ => True := by
  cases pc with
  | sshNew | setAcceptedTypes | sshConnect | importPrivkey | userauth =>
      cases answer <;> simp [SshSessionPc.next, SshSessionPc.ahead]
  | _ => simp [SshSessionPc.next, SshSessionPc.ahead]

theorem sftp_session_closer {pc : SftpSessionPc} (answer : pc.call.Answer) :
    (pc.next answer).Meets (fun pc' => pc'.ahead < pc.ahead) fun _ => True := by
  cases pc with
  | sftpNew | sftpInit => cases answer <;> simp [SftpSessionPc.next, SftpSessionPc.ahead]
  | _ => simp [SftpSessionPc.next, SftpSessionPc.ahead]

theorem file_exists_closer (zipPath filename : Bytes) {pc : FileExistsPc}
    (answer : (pc.call zipPath filename).Answer) :
    (pc.next zipPath filename answer).Meets (fun pc' => pc'.ahead < pc.ahead) fun _ => True := by
  cases pc with
  | zipOpen | zipNameLocate =>
      cases answer <;> simp [FileExistsPc.next, FileExistsPc.ahead]
  | zipClose => trivial

theorem list_closer (layout : List Entry → Bytes) (world : World) (path : Bytes) (lastRun : Nat)
    (pc : ListPc) :
    (pc.next path lastRun (world.smooth layout (pc.call path))).Meets
      (fun pc' => pc'.ahead < pc.ahead ∧ pc'.collected ≤ pc.collected)
      fun result => result.2.length ≤ pc.collected := by
  cases pc with
  | fileExists newFiles attributes pc =>
      have closer := file_exists_closer localZipPath attributes.name
        (world.smooth layout (pc.call localZipPath attributes.name))
      simp only [ListPc.call, ListPc.next]
      split
      · rename_i pc' next
        rw [next] at closer
        exact ⟨Nat.add_lt_add_left closer 4, Nat.le_refl _⟩
      · exact ⟨by simp only [ListPc.ahead]; omega, by simp [ListPc.collected]⟩
      · exact ⟨by simp only [ListPc.ahead]; omega, by simp [ListPc.collected]⟩
  | sftpOpendir | sftpReaddir | sftpAttributesFree =>
      exact ⟨by simp [ListPc.ahead], Nat.le_refl _⟩
  | errorOpendir | sftpClosedir => exact Nat.le_refl _

theorem download_file_closer (layout : List Entry → Bytes) (world : World) (remoteFile : Bytes)
    (fileContents : FileContents) (pc : DownloadFilePc) :
    (pc.next remoteFile fileContents (world.smooth layout (pc.call remoteFile))).Meets
      (fun pc' => pc'.ahead < pc.ahead) fun _ => True := by
  cases pc with
  | sftpClose buffer complete => cases complete <;> trivial
  | sftpOpen | sftpRead => exact Nat.lt_succ_self _

theorem append_closer {fileName content zipPath password : Bytes} {pc : AppendPc}
    (answer : (pc.call fileName content zipPath password).Answer) :
    (pc.next fileName content zipPath password answer).Meets (fun pc' => pc'.ahead < pc.ahead)
      fun _ => True := by
  cases pc with
  | zipOpen | zipSourceBuffer | zipNameLocate | zipClose =>
      cases answer <;> simp [AppendPc.next, AppendPc.ahead, AppendPc.rest]
  | _ => simp [AppendPc.next, AppendPc.ahead, AppendPc.rest]

theorem append_ahead_pos (pc : AppendPc) : 0 < pc.ahead := by
  cases pc <;> simp [AppendPc.ahead, AppendPc.rest]

theorem download_ahead_pos (pc : DownloadPc) : 0 < pc.ahead := by
  cases pc <;> simp only [DownloadPc.ahead] <;> omega

theorem insert_new_length (fileHistory newFiles : List Bytes) :
    (insertNew fileHistory newFiles).length ≤ fileHistory.length + newFiles.length := by
  induction newFiles generalizing fileHistory with
  | nil => simp [insertNew]
  | cons file newFiles ih =>
      by_cases known : file ∈ fileHistory
      · have rest := ih fileHistory
        rw [insertNew, List.foldl_cons, if_pos known, List.length_cons]
        exact rest.trans (Nat.le_succ _)
      · have rest := ih (fileHistory ++ [file])
        rw [insertNew, List.foldl_cons, if_neg known, List.length_cons]
        apply rest.trans
        rw [List.length_append, List.length_singleton]
        omega

theorem loop_ahead (vars : DownloadVars) (done todo : List Bytes) :
    (DownloadPc.loop vars done todo).ahead ≤ 7 + 15 * todo.length := by
  cases todo with
  | nil => simp [DownloadPc.loop, DownloadPc.endLoop, DownloadPc.ahead]
  | cons file todo => exact Nat.le_refl _

theorem listed_ahead (vars : DownloadVars) (time : Nat) (result : Bool × List Bytes) :
    (DownloadPc.listed vars time (checkForNewFiles result)).ahead ≤
      7 + 15 * (vars.fileHistory.length + result.2.length) := by
  by_cases nothing : checkForNewFiles result = none
  · rw [nothing]
    change 6 ≤ _
    omega
  · have found : checkForNewFiles result = some result.2 := by
      unfold checkForNewFiles at nothing ⊢
      split at nothing
      · exact absurd rfl nothing
      · split at nothing
        · exact absurd rfl nothing
        · simp_all
    have longer := insert_new_length vars.fileHistory result.2
    rw [found, DownloadPc.listed]
    split
    · simp only [DownloadPc.ahead]
      omega
    · apply (loop_ahead _ _ _).trans
      omega

theorem download_closer (layout : List Entry → Bytes) {world : World} (pc : DownloadPc)
    (stopped : world.running = false) :
    (pc.next remoteHost1 (world.smooth layout (pc.call remoteHost1))).Meets
      (fun pc' => pc'.ahead < pc.ahead) fun _ => True := by
  cases pc with
  | session pc =>
      have closer := ssh_session_closer remoteHost1 (world.smooth layout (pc.call remoteHost1))
      simp only [DownloadPc.call, DownloadPc.next]
      split
      · rename_i pc' next
        rw [next] at closer
        exact Nat.add_lt_add_left closer 20
      · trivial
      · simp only [Next.meets_goto, DownloadPc.ahead, SftpSessionPc.ahead]
        omega
  | sftp pc =>
      have closer := sftp_session_closer (world.smooth layout pc.call)
      simp only [DownloadPc.call, DownloadPc.next]
      split
      · rename_i pc' next
        rw [next] at closer
        exact Nat.add_lt_add_left closer 10
      · simp only [Next.meets_goto, DownloadPc.ahead]
        omega
      · simp only [Next.meets_goto, DownloadPc.ahead]
        omega
  | readRunning vars =>
      simp only [DownloadPc.call, World.smooth, stopped]
      exact Nat.lt_succ_self _
  | now vars =>
      change 8 + 15 * (vars.fileHistory.length + 0) + 3 < 12 + 15 * vars.fileHistory.length
      omega
  | listing vars time pc =>
      have closer := list_closer layout world remote1CollectDir vars.lastRun pc
      simp only [DownloadPc.call, DownloadPc.next]
      split
      · rename_i pc' next
        rw [next] at closer
        obtain ⟨closer, collected⟩ := closer
        simp only [Next.meets_goto, DownloadPc.ahead]
        omega
      · rename_i result next
        rw [next] at closer
        have reported : result.2.length ≤ pc.collected := closer
        apply Nat.lt_of_le_of_lt (listed_ahead vars time result)
        simp only [DownloadPc.ahead]
        omega
  | fileSize vars file todo done =>
      simp only [DownloadPc.next]
      split
      · simp only [Next.meets_goto, DownloadPc.endLoop, DownloadPc.ahead]
        omega
      · simp only [Next.meets_goto, DownloadPc.ahead, DownloadFilePc.ahead]
        omega
  | download vars file todo done pc =>
      have closer := download_file_closer layout world file vars.fileContents pc
      simp only [DownloadPc.call, DownloadPc.next]
      split
      · rename_i pc' next
        rw [next] at closer
        exact Nat.add_lt_add_left closer _
      · simp only [Next.meets_goto, DownloadPc.endLoop, DownloadPc.ahead]
        omega
      · have positive : 0 < pc.ahead := by cases pc <;> exact Nat.succ_pos _
        simp only [Next.meets_goto, DownloadPc.ahead, AppendPc.ahead]
        omega
  | append vars file todo done pc =>
      have closer := append_closer (world.smooth layout (pc.call vars.fileContents.1
        vars.fileContents.2 localZipPath zipPassphrase))
      have positive := append_ahead_pos pc
      simp only [DownloadPc.call, DownloadPc.next]
      split
      · rename_i pc' next
        rw [next] at closer
        exact Nat.add_lt_add_left closer _
      · apply Nat.lt_of_le_of_lt (loop_ahead vars (done ++ [file]) todo)
        simp only [DownloadPc.ahead]
        omega
      · simp only [Next.meets_goto, DownloadPc.endLoop, DownloadPc.ahead]
        omega
  | initialNow => exact (by decide : 5 < 7)
  | sleep vars | clearRunning | sftpFree | sshDisconnect => exact Nat.lt_succ_self _
  | sshFree => trivial

/-- A call of `upload_file` leads on, or once more round the copy loop with
less to read. -/
theorem upload_file_closer (layout : List Entry → Bytes) (world : World) (pc : UploadFilePc) :
    (pc.next localZipPath remote2DestPath
      (world.smooth layout (pc.call localZipPath remote2DestPath))).Meets
      (fun pc' => pc'.ahead < pc.ahead ∨ (pc'.ahead = pc.ahead ∧
        (UploadPc.upload pc').copyRest < (UploadPc.upload pc).copyRest)) fun _ => True := by
  cases pc with
  | ifstreamOpen =>
      simp only [UploadFilePc.call, World.smooth]
      cases world.localZip with
      | none => exact .inl (by decide : 1 < 8)
      | some file => exact .inl (Nat.lt_succ_self _)
  | ifstreamRead stream =>
      change (UploadFilePc.next localZipPath remote2DestPath (.ifstreamRead stream)
        DiskRead.complete).Meets _ _
      simp only [UploadFilePc.next]
      split
      · rename_i more
        have shorter := read_rest stream (by decide : 0 < 4096) more
        refine .inr ⟨rfl, ?_⟩
        simp only [UploadPc.copyRest]
        omega
      · exact .inl (by decide : 2 < 5)
  | sftpWrite stream block =>
      change (if block.length = block.length then Next.goto (.ifstreamRead stream)
        else .goto .errorWrite : Next UploadFilePc Bool).Meets _ _
      rw [if_pos rfl]
      exact .inr ⟨rfl, Nat.lt_succ_self _⟩
  | semWait | errorWrite | sftpClose result | errorOpen => exact .inl (Nat.lt_succ_self _)
  | sftpOpen stream => exact .inl (by decide : 5 < 7)
  | semPost result => trivial

theorem upload_closer (layout : List Entry → Bytes) {world : World} (pc : UploadPc)
    (stopped : world.running = false) :
    (pc.next remoteHost2 remote2DestPath
      (world.smooth layout (pc.call remoteHost2 remote2DestPath))).Meets
      (fun pc' => pc'.ahead < pc.ahead ∨ (pc'.ahead = pc.ahead ∧ pc'.copyRest < pc.copyRest))
      fun _ => True := by
  cases pc with
  | session pc =>
      have closer := ssh_session_closer remoteHost2 (world.smooth layout (pc.call remoteHost2))
      simp only [UploadPc.call, UploadPc.next]
      split
      · rename_i pc' next
        rw [next] at closer
        exact .inl (Nat.add_lt_add_left closer 20)
      · trivial
      · apply Or.inl
        simp only [UploadPc.ahead, SftpSessionPc.ahead]
        omega
  | sftp pc =>
      have closer := sftp_session_closer (world.smooth layout pc.call)
      simp only [UploadPc.call, UploadPc.next]
      split
      · rename_i pc' next
        rw [next] at closer
        exact .inl (Nat.add_lt_add_left closer 10)
      · apply Or.inl
        simp only [UploadPc.ahead]
        omega
      · apply Or.inl
        simp only [UploadPc.ahead]
        omega
  | readRunning =>
      simp only [UploadPc.call, World.smooth, stopped]
      exact .inl (Nat.lt_succ_self _)
  | fileExists =>
      simp only [UploadPc.next]
      split
      · exact .inl (Nat.lt_succ_self _)
      · exact .inl (by decide : 6 < 18)
  | fileSize =>
      simp only [UploadPc.next]
      split
      · exact .inl (Nat.lt_succ_self _)
      · exact .inl (by decide : 6 < 17)
  | upload pc =>
      have closer := upload_file_closer layout world pc
      have positive : 0 < pc.ahead := by cases pc <;> exact Nat.succ_pos _
      simp only [UploadPc.call, UploadPc.next]
      split
      · rename_i pc' next
        rw [next] at closer
        rcases closer with lower | ⟨level, lower⟩
        · exact .inl (Nat.add_lt_add_left lower 7)
        · exact .inr ⟨congrArg (7 + ·) level, lower⟩
      · exact .inl (Nat.lt_add_of_pos_right positive)
      · apply Or.inl
        simp only [UploadPc.ahead]
        omega
  | unlink | sleep | clearRunning | sftpFree | sshDisconnect => exact .inl (Nat.lt_succ_self _)
  | sshFree => trivial

theorem upload_ahead_pos (pc : UploadPc) : 0 < pc.ahead := by
  cases pc <;> simp only [UploadPc.ahead] <;> omega

def Joined (state : PipelineState libraryEnv) : Prop := state.left = none ∧ state.right = none

def joinRank (state : PipelineState libraryEnv) : ℕ ×ₗ ℕ :=
  toLex (state.left.elim 0 DownloadPc.ahead + state.right.elim 0 UploadPc.ahead,
    state.right.elim 0 UploadPc.copyRest)

theorem join_rank_download {pc : DownloadPc} {next : Next DownloadPc Unit}
    (right : Option UploadPc) (world world' : World)
    (closer : next.Meets (fun pc' => pc'.ahead < pc.ahead) fun _ => True) :
    joinRank ⟨next.resume, right, world'⟩ < joinRank ⟨some pc, right, world⟩ := by
  rw [joinRank, joinRank, Prod.Lex.toLex_lt_toLex]
  apply Or.inl
  apply Nat.add_lt_add_right
  cases next with
  | goto pc' => exact closer
  | done result => exact download_ahead_pos pc

theorem join_rank_upload {pc : UploadPc} {next : Next UploadPc Unit}
    (left : Option DownloadPc) (world world' : World)
    (closer : next.Meets (fun pc' => pc'.ahead < pc.ahead ∨
      (pc'.ahead = pc.ahead ∧ pc'.copyRest < pc.copyRest)) fun _ => True) :
    joinRank ⟨left, next.resume, world'⟩ < joinRank ⟨left, some pc, world⟩ := by
  rw [joinRank, joinRank, Prod.Lex.toLex_lt_toLex]
  cases next with
  | goto pc' =>
      rcases closer with lower | ⟨level, lower⟩
      · exact .inl (Nat.add_lt_add_left lower _)
      · exact .inr ⟨congrArg (left.elim 0 DownloadPc.ahead + ·) level, lower⟩
  | done result => exact .inl (Nat.add_lt_add_left (upload_ahead_pos pc) _)

structure Ending (localZip : Option ZipFile) (trace : List (PipelineEvent libraryEnv))
    (state : PipelineState libraryEnv) : Prop where
  run : PipelineRun libraryEnv (anyStep _ _ _) (Started localZip) trace state
  stopped : state.world.running = false

section

variable (layout : List Entry → Bytes) {localZip : Option ZipFile}
  {trace : List (PipelineEvent libraryEnv)} {world : World}

theorem ending_download_step {pc : DownloadPc} {right : Option UploadPc}
    (ending : Ending localZip trace ⟨some pc, right, world⟩)
    (free : pc.call remoteHost1 = .semWait → 0 < world.zipSemaphore) :
    ∃ event state', Smoothly layout trace ⟨some pc, right, world⟩ event ∧
      Step downloadThread uploadThread libraryEnv ⟨some pc, right, world⟩ event state' ∧
        Ending localZip (event :: trace) state' ∧
          joinRank state' < joinRank ⟨some pc, right, world⟩ := by
  obtain ⟨run, stopped⟩ := ending
  obtain ⟨world', responds⟩ := Option.isSome_iff_exists.mp
    (smooth_responds layout world (pc.call remoteHost1) free)
  have steps : Step downloadThread uploadThread libraryEnv ⟨some pc, right, world⟩
      (.left pc (world.smooth layout (pc.call remoteHost1))) _ := .left responds
  exact ⟨.left pc (world.smooth layout (pc.call remoteHost1)), _, rfl, steps,
    ⟨.step run trivial steps, stopped_step steps stopped⟩,
    join_rank_download right world world' (download_closer layout pc stopped)⟩

theorem ending_upload_step {pc : UploadPc} {left : Option DownloadPc}
    (ending : Ending localZip trace ⟨left, some pc, world⟩)
    (free : pc.call remoteHost2 remote2DestPath = .semWait → 0 < world.zipSemaphore) :
    ∃ event state', Smoothly layout trace ⟨left, some pc, world⟩ event ∧
      Step downloadThread uploadThread libraryEnv ⟨left, some pc, world⟩ event state' ∧
        Ending localZip (event :: trace) state' ∧
          joinRank state' < joinRank ⟨left, some pc, world⟩ := by
  obtain ⟨run, stopped⟩ := ending
  obtain ⟨world', responds⟩ := Option.isSome_iff_exists.mp
    (smooth_responds layout world (pc.call remoteHost2 remote2DestPath) free)
  have steps : Step downloadThread uploadThread libraryEnv ⟨left, some pc, world⟩
      (.right pc (world.smooth layout (pc.call remoteHost2 remote2DestPath))) _ :=
    .right responds
  exact ⟨.right pc (world.smooth layout (pc.call remoteHost2 remote2DestPath)), _, rfl, steps,
    ⟨.step run trivial steps, stopped_step steps stopped⟩,
    join_rank_upload left world world' (upload_closer layout pc stopped)⟩

theorem ending_step {state : PipelineState libraryEnv} (ending : Ending localZip trace state)
    (unjoined : ¬ Joined state) :
    ∃ event state', Smoothly layout trace state event ∧
      Step downloadThread uploadThread libraryEnv state event state' ∧
        Ending localZip (event :: trace) state' ∧ joinRank state' < joinRank state := by
  have total := library_semaphore_total ending.run
  obtain ⟨left, right, world⟩ := state
  have downloadWaits : ∀ pc, left = some pc → pc.call remoteHost1 = .semWait →
      pc.critical = false :=
    fun _ _ waits => download_discipline.wait (congrArg lockOp waits)
  have uploadWaits : ∀ pc, right = some pc → pc.call remoteHost2 remote2DestPath = .semWait →
      pc.critical = false :=
    fun _ _ waits => upload_discipline.wait (congrArg lockOp waits)
  by_cases blocked : ∃ pc, left = some pc ∧ pc.call remoteHost1 = .semWait ∧
      world.zipSemaphore = 0
  · -- the uploader is in its critical section
    obtain ⟨pc, rfl, waits, taken⟩ := blocked
    have outside := downloadWaits pc rfl waits
    cases right with
    | none => simp [outside, taken] at total
    | some pc' =>
        apply ending_upload_step layout ending
        intro waits'
        simp [outside, taken, uploadWaits pc' rfl waits'] at total
  · cases left with
    | some pc =>
        apply ending_download_step layout ending
        intro waits
        exact Nat.pos_of_ne_zero fun taken => blocked ⟨pc, rfl, waits, taken⟩
    | none =>
        cases right with
        | none => exact absurd ⟨rfl, rfl⟩ unjoined
        | some pc =>
            apply ending_upload_step layout ending
            intro waits
            simp only [held_none, held_some, uploadWaits pc rfl waits, Bool.toNat_false] at total
            omega

theorem ending_joins {state : PipelineState libraryEnv} (ending : Ending localZip trace state) :
    ∃ trace' state', Path downloadThread uploadThread libraryEnv (Smoothly layout)
      trace state trace' state' ∧ Joined state' := by
  by_cases joined : Joined state
  · exact ⟨trace, state, .nil, joined⟩
  · refine exists_path_of_descent (fun trace state => Ending localZip trace state ∧ ¬ Joined state)
      (fun _ state => Joined state) joinRank ?_ ⟨ending, joined⟩
    rintro trace state ⟨ending, unjoined⟩
    obtain ⟨event, state', smooth, steps, ending', closer⟩ := ending_step layout ending unjoined
    refine ⟨event, state', smooth, steps, ?_⟩
    by_cases joined : Joined state'
    · exact .inl joined
    · exact .inr ⟨⟨ending', joined⟩, closer⟩

end

/-- The check of a loop guard that lets an iteration begin. -/
def startsIteration : PipelineEvent libraryEnv → Bool
  | .left (.readRunning _) running => running
  | .right .readRunning running => running
  | _ => false

theorem stopped_starts_nothing {state state' : PipelineState libraryEnv}
    {event : PipelineEvent libraryEnv}
    (steps : Step downloadThread uploadThread libraryEnv state event state')
    (stopped : state.world.running = false) : startsIteration event = false := by
  cases steps with
  | @left pc answer right world world' responds =>
      cases pc with
      | readRunning vars => exact (World.respond_read_running responds).trans stopped
      | _ => rfl
  | @right pc answer left world world' responds =>
      cases pc with
      | readRunning => exact (World.respond_read_running responds).trans stopped
      | _ => rfl
  | move moves => rfl

/-- In a run in which every routine whose set-up fails finds `running` cleared
when it returns, `running` is false once a routine has returned, and stays so:
no iteration begins any more, and both routines can still return. -/
theorem threads_stop_together (layout : List Entry → Bytes) {localZip : Option ZipFile}
    {trace : List (PipelineEvent libraryEnv)} {state : PipelineState libraryEnv}
    (run : PipelineRun libraryEnv AbandonedOnlyStopped (Started localZip) trace state)
    (returned : state.left = none ∨ state.right = none) :
    state.world.running = false ∧
    (∀ trace' state', Path downloadThread uploadThread libraryEnv (anyStep _ _ _)
      trace state trace' state' → state'.world.running = false ∧
        ∀ event next, Step downloadThread uploadThread libraryEnv state' event next →
          startsIteration event = false) ∧
    ∃ trace' state', Path downloadThread uploadThread libraryEnv (Smoothly layout)
      trace state trace' state' ∧ Joined state' := by
  have stopped := (stopping run).returned returned
  refine ⟨stopped, ?_, ending_joins layout ⟨run.any, stopped⟩⟩
  intro trace' state' path
  have stopped' := stopped_path path stopped
  exact ⟨stopped', fun _ _ steps => stopped_starts_nothing steps stopped'⟩

/-- SIGINT comes after both set-ups, and the downloader returns. -/
theorem threads_stop_together_interrupted :
    ∃ trace state, PipelineRun libraryEnv AbandonedOnlyStopped (Started none) trace state ∧
      state.left = none ∧ state.right.isSome = true ∧ state.world.running = false ∧
        ∃ trace' state', Path downloadThread uploadThread libraryEnv (Smoothly plainLayout)
          trace state trace' state' ∧ Joined state' := by
  have found : ∃ trace state,
      PipelineRun libraryEnv AbandonedOnlyStopped (Started none) trace state ∧
        (state.left.isNone && state.right.isSome) = true :=
    exists_run_of_play (fun trace state event => decide (AbandonedOnlyStopped trace state event))
      (bothSetUp plainLayout ++ [.move .sigint] ++ downloadSmoothly plainLayout 5)
      (startState none) (fun _ state => state.left.isNone && state.right.isSome)
      (fun _ _ _ => of_decide_eq_true) (start_state_started none) (by decide +kernel)
  obtain ⟨trace, state, run, outcome⟩ := found
  obtain ⟨gone, stays⟩ := Bool.and_eq_true_iff.mp outcome
  have returned := Option.isNone_iff_eq_none.mp gone
  obtain ⟨stopped, _, joins⟩ := threads_stop_together plainLayout run (.inl returned)
  exact ⟨trace, state, run, returned, stays, stopped, joins⟩

/-- The condition is exact: a step that breaks it leaves a thread returned and
`running` true. -/
theorem abandoned_running {trace : List (PipelineEvent libraryEnv)}
    {state state' : PipelineState libraryEnv} {event : PipelineEvent libraryEnv}
    (steps : Step downloadThread uploadThread libraryEnv state event state')
    (breaks : ¬ AbandonedOnlyStopped trace state event) :
    (state'.left = none ∨ state'.right = none) ∧ state'.world.running = true := by
  cases steps with
  | @left pc answer right world world' responds =>
      simp only [AbandonedOnlyStopped, Classical.not_imp, Bool.not_eq_false] at breaks
      obtain ⟨ends, _, running⟩ := breaks
      refine ⟨.inl (congrArg Next.resume ends), ?_⟩
      refine (World.respond_running responds ?_).trans running
      intro clears
      cases pc with
      | clearRunning => cases ends
      | session pc => cases pc <;> cases clears
      | sftp pc | listing vars time pc | download vars file todo done pc
      | append vars file todo done pc =>
          simp only [DownloadPc.next] at ends
          split at ends <;> cases ends
      | _ => cases clears
  | @right pc answer left world world' responds =>
      simp only [AbandonedOnlyStopped, Classical.not_imp, Bool.not_eq_false] at breaks
      obtain ⟨ends, _, running⟩ := breaks
      refine ⟨.inr (congrArg Next.resume ends), ?_⟩
      refine (World.respond_running responds ?_).trans running
      intro clears
      cases pc with
      | clearRunning => cases ends
      | session pc => cases pc <;> cases clears
      | sftp pc | upload pc =>
          simp only [UploadPc.next] at ends
          split at ends <;> cases ends
      | _ => cases clears
  | @move move left right world world' moves => exact absurd trivial breaks

def refusesSession : Cue libraryEnv :=
  .left fun _ call => match call with
    | .sshNew => some false
    | _ => none

/-- The downloader gets no session and returns; the uploader goes on. -/
theorem failed_set_up_keeps_running :
    ¬ ∀ localZip trace state,
      PipelineRun libraryEnv (anyStep _ _ _) (Started localZip) trace state →
        state.left = none ∨ state.right = none → state.world.running = false := by
  intro stops
  have found : ∃ trace state,
      PipelineRun libraryEnv (anyStep _ _ _) (Started none) trace state ∧
        (state.left.isNone && state.world.running) = true :=
    exists_run_of_play (fun _ _ _ => true) [refusesSession] (startState none)
      (fun _ state => state.left.isNone && state.world.running) (fun _ _ _ _ => trivial)
      (start_state_started none) (by decide +kernel)
  obtain ⟨trace, state, run, outcome⟩ := found
  obtain ⟨gone, running⟩ := Bool.and_eq_true_iff.mp outcome
  have stopped := stops none trace state run (.inl (Option.isNone_iff_eq_none.mp gone))
  exact absurd (running.symm.trans stopped) (by decide)

end FileTransfer
