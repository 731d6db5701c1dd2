import FileTransfer.Interaction.Execution
import FileTransfer.Interaction.Projection
import FileTransfer.Pipeline.Smooth

/-!
# `zip_semaphore` is taken and given back in pairs

Shown over the most permissive environment: apart from the semaphore and the
flag nothing is fixed, so every library call may have any outcome at any time.
-/

namespace FileTransfer

set_option autoImplicit false

open Interaction

def lockOp : Call → Option LockOp
  | .semWait => some .wait
  | .semPost => some .post
  | _ => none

structure FreeWorld where
  zipSemaphore : Nat
  running : Bool
  deriving DecidableEq

def FreeWorld.respond (world : FreeWorld) : (call : Call) → call.Answer → Option FreeWorld
  | .semWait, _ =>
      if 0 < world.zipSemaphore then
        some { world with zipSemaphore := world.zipSemaphore - 1 }
      else none
  | .semPost, _ => some { world with zipSemaphore := world.zipSemaphore + 1 }
  | .readRunning, running => if running = world.running then some world else none
  | .clearRunning, _ => some { world with running := false }
  | _, _ => some world

def FreeWorld.interrupt (world : FreeWorld) : Interrupt → Option FreeWorld
  | .sigint => some { world with running := false }

/-- Any library call may end in any way its type allows. -/
abbrev freeEnv : Env Call.Answer where
  World := FreeWorld
  Move := Interrupt
  respond := FreeWorld.respond
  move := FreeWorld.interrupt

def FreeStarted (state : PipelineState freeEnv) : Prop :=
  state.left = some downloadThread.start ∧ state.right = some uploadThread.start ∧
    state.world.zipSemaphore = 1 ∧ state.world.running = true

def AppendPc.critical : AppendPc → Bool
  | .semWait => false
  | _ => true

def UploadFilePc.critical : UploadFilePc → Bool
  | .semWait => false
  | _ => true

def CreateZipPc.critical : CreateZipPc → Bool
  | .semWait => false
  | _ => true

def DownloadPc.critical : DownloadPc → Bool
  | .append _ _ _ _ pc => pc.critical
  | _ => false

def UploadPc.critical : UploadPc → Bool
  | .upload pc => pc.critical
  | _ => false

/-- What a function that takes the semaphore once still has to do with it. -/
def owedOps (critical : Bool) : List LockOp :=
  if critical then [.post] else [.wait, .post]

theorem append_owes (fileName content zipPath password : Bytes) :
    (appendToZip fileName content zipPath password).Owes lockOp
      (fun pc : AppendPc => owedOps pc.critical) := by
  intro pc answer
  cases pc with
  | zipOpen | zipSourceBuffer | zipNameLocate | zipClose => cases answer <;> rfl
  | _ => rfl

theorem create_zip_owes (files : List Bytes) (localDir zipPath password : Bytes) :
    (createZipFromFiles files localDir zipPath password).Owes lockOp
      (fun pc : CreateZipPc => owedOps pc.critical) := by
  intro pc answer
  cases pc with
  | zipOpen => cases answer <;> cases files <;> rfl
  | zipSourceFile | zipNameLocate | zipClose => cases answer <;> rfl
  | unlink archive file todo => cases todo <;> rfl
  | _ => rfl

theorem upload_file_owes (localFile remoteFile : Bytes) :
    (uploadFile localFile remoteFile).Owes lockOp
      (fun pc : UploadFilePc => owedOps pc.critical) := by
  intro pc answer
  cases pc with
  | ifstreamOpen | sftpOpen => cases answer <;> rfl
  | ifstreamRead stream =>
      simp only [UploadFilePc.next]
      split <;> rfl
  | sftpWrite stream block =>
      cases answer with
      | none => rfl
      | some count =>
          simp only [UploadFilePc.next]
          split <;> rfl
  | _ => rfl

@[simp] theorem loop_not_critical (vars : DownloadVars) (done todo : List Bytes) :
    (DownloadPc.loop vars done todo).critical = false := by
  cases todo <;> rfl

@[simp] theorem listed_not_critical (vars : DownloadVars) (time : Nat)
    (newFiles : Option (List Bytes)) :
    (DownloadPc.listed vars time newFiles).critical = false :=
  DownloadPc.listed_elim (motive := fun pc => pc.critical = false)
    (fun _ => rfl) (fun _ _ _ _ => rfl) vars time newFiles

-- The functions outside the critical section make no semaphore call.

@[simp] theorem ssh_session_lock_free (host : Bytes) (pc : SshSessionPc) :
    lockOp (pc.call host) = none := by cases pc <;> rfl

@[simp] theorem sftp_session_lock_free (pc : SftpSessionPc) : lockOp pc.call = none := by
  cases pc <;> rfl

@[simp] theorem file_exists_lock_free (zipPath filename : Bytes) (pc : FileExistsPc) :
    lockOp (pc.call zipPath filename) = none := by cases pc <;> rfl

@[simp] theorem list_lock_free (path : Bytes) (pc : ListPc) : lockOp (pc.call path) = none := by
  cases pc with
  | fileExists newFiles attributes pc => exact file_exists_lock_free _ _ pc
  | _ => rfl

@[simp] theorem download_file_lock_free (remoteFile : Bytes) (pc : DownloadFilePc) :
    lockOp (pc.call remoteFile) = none := by cases pc <;> rfl

/-- A point is marked exactly when the thread holds: the operation of its call
is a wait outside and a post inside the critical section. -/
theorem download_lock_op (host : Bytes) (pc : DownloadPc) :
    lockOp (pc.call host) = none ∨
      (lockOp (pc.call host) = some .wait ∧ pc.critical = false) ∨
      (lockOp (pc.call host) = some .post ∧ pc.critical = true) := by
  cases pc with
  | append vars file todo done pc => cases pc <;> simp [DownloadPc.call, AppendPc.call, lockOp,
      DownloadPc.critical, AppendPc.critical]
  | session pc | sftp pc | listing vars time pc | download vars file todo done pc =>
      left; simp [DownloadPc.call]
  | _ => left; rfl

theorem upload_lock_op (host remotePath : Bytes) (pc : UploadPc) :
    lockOp (pc.call host remotePath) = none ∨
      (lockOp (pc.call host remotePath) = some .wait ∧ pc.critical = false) ∨
      (lockOp (pc.call host remotePath) = some .post ∧ pc.critical = true) := by
  cases pc with
  | upload pc => cases pc <;> simp [UploadPc.call, UploadFilePc.call, lockOp,
      UploadPc.critical, UploadFilePc.critical]
  | session pc | sftp pc => left; simp [UploadPc.call]
  | _ => left; rfl

theorem download_discipline :
    Discipline lockOp downloadThread DownloadPc.critical where
  start := rfl
  wait := by
    intro (pc : DownloadPc) waits
    rcases download_lock_op remoteHost1 pc with free | ⟨_, outside⟩ | ⟨posts, _⟩
    · exact absurd (free.symm.trans waits) (by simp)
    · exact outside
    · exact absurd (posts.symm.trans waits) (by simp)
  post := by
    intro (pc : DownloadPc) posts
    rcases download_lock_op remoteHost1 pc with free | ⟨waits, _⟩ | ⟨_, inside⟩
    · exact absurd (free.symm.trans posts) (by simp)
    · exact absurd (waits.symm.trans posts) (by simp)
    · exact inside
  next := by
    intro (pc : DownloadPc) answer
    cases pc with
    | session pc =>
        simp only [DownloadPc.next, DownloadPc.call, ssh_session_lock_free]
        split <;> rfl
    | sftp pc =>
        simp only [DownloadPc.next, DownloadPc.call, sftp_session_lock_free]
        split <;> rfl
    | readRunning vars => cases answer <;> rfl
    | listing vars time pc =>
        simp only [DownloadPc.next, DownloadPc.call, list_lock_free]
        split
        · rfl
        · exact listed_not_critical _ _ _
    | fileSize vars file todo done =>
        simp only [DownloadPc.next]
        split <;> rfl
    | download vars file todo done pc =>
        simp only [DownloadPc.next, DownloadPc.call, download_file_lock_free]
        split <;> rfl
    | append vars file todo done pc =>
        cases pc with
        | zipOpen | zipSourceBuffer | zipNameLocate | zipClose => cases answer <;> rfl
        | semPost result =>
            cases result
            · rfl
            · exact loop_not_critical _ _ _
        | _ => rfl
    | _ => rfl

theorem upload_discipline :
    Discipline lockOp uploadThread UploadPc.critical where
  start := rfl
  wait := by
    intro (pc : UploadPc) waits
    rcases upload_lock_op remoteHost2 remote2DestPath pc with free | ⟨_, outside⟩ | ⟨posts, _⟩
    · exact absurd (free.symm.trans waits) (by simp)
    · exact outside
    · exact absurd (posts.symm.trans waits) (by simp)
  post := by
    intro (pc : UploadPc) posts
    rcases upload_lock_op remoteHost2 remote2DestPath pc with free | ⟨waits, _⟩ | ⟨_, inside⟩
    · exact absurd (free.symm.trans posts) (by simp)
    · exact absurd (waits.symm.trans posts) (by simp)
    · exact inside
  next := by
    intro (pc : UploadPc) answer
    cases pc with
    | session pc =>
        simp only [UploadPc.next, UploadPc.call, ssh_session_lock_free]
        split <;> rfl
    | sftp pc =>
        simp only [UploadPc.next, UploadPc.call, sftp_session_lock_free]
        split <;> rfl
    | readRunning => cases answer <;> rfl
    | fileExists | fileSize =>
        simp only [UploadPc.next]
        split <;> rfl
    | upload pc =>
        cases pc with
        | ifstreamOpen | sftpOpen => cases answer <;> rfl
        | ifstreamRead stream =>
            simp only [UploadPc.next, UploadFilePc.next]
            split <;> rename_i taken <;> split at taken <;> cases taken <;> rfl
        | sftpWrite stream block =>
            cases answer with
            | none => rfl
            | some count =>
                simp only [UploadPc.next, UploadFilePc.next]
                split <;> rename_i taken <;> split at taken <;> cases taken <;> rfl
        | semPost result => cases result <;> rfl
        | _ => rfl
    | _ => rfl

def freeSemaphore : Semaphore freeEnv lockOp where
  value := FreeWorld.zipSemaphore
  wait := by
    intro world world' call answer responds waits
    cases call <;> cases waits
    simp only [FreeWorld.respond] at responds
    split at responds
    · cases responds
      simp only
      omega
    · cases responds
  post := by
    intro world world' call answer responds posts
    cases call <;> cases posts
    cases responds
    rfl
  other := by
    intro world world' call answer responds free
    cases call <;> try cases free
    case readRunning =>
      simp only [FreeWorld.respond] at responds
      split at responds <;> cases responds
      rfl
    all_goals
      cases responds
      rfl
  move := by
    intro world world' move moves
    cases move
    cases moves
    rfl

/-- What holds of `zip_semaphore` once the events of `trace` have led to
`state`. `outstanding` counts from the calls made, `held` from where the thread
stands. -/
structure Disciplined (trace : List (PipelineEvent freeEnv)) (state : PipelineState freeEnv) :
    Prop where
  total : state.world.zipSemaphore + outstanding (leftOps lockOp trace) +
    outstanding (rightOps lockOp trace) = 1
  downloadPosts : (leftOps lockOp trace).count .post ≤ (leftOps lockOp trace).count .wait
  uploadPosts : (rightOps lockOp trace).count .post ≤ (rightOps lockOp trace).count .wait
  downloadInside : outstanding (leftOps lockOp trace) = held DownloadPc.critical state.left
  uploadInside : outstanding (rightOps lockOp trace) = held UploadPc.critical state.right
  downloadWaits : ∀ pc, state.left = some pc → lockOp (downloadThread.call pc) = some .wait →
    outstanding (leftOps lockOp trace) = 0
  uploadWaits : ∀ pc, state.right = some pc → lockOp (uploadThread.call pc) = some .wait →
    outstanding (rightOps lockOp trace) = 0
  notBothBlocked : ∀ pc pc', state.left = some pc → state.right = some pc' →
    lockOp (downloadThread.call pc) = some .wait → lockOp (uploadThread.call pc') = some .wait →
      0 < state.world.zipSemaphore
  returned : state.left = none → state.right = none → state.world.zipSemaphore = 1

theorem balanced_disciplined {trace : List (PipelineEvent freeEnv)}
    {state : PipelineState freeEnv}
    (balanced : Balanced freeSemaphore DownloadPc.critical UploadPc.critical 1 trace state) :
    Disciplined trace state := by
  obtain ⟨total, left, right⟩ := balanced
  have downloadInside :
      outstanding (leftOps lockOp trace) = held DownloadPc.critical state.left := by
    rw [outstanding, left]
    omega
  have uploadInside :
      outstanding (rightOps lockOp trace) = held UploadPc.critical state.right := by
    rw [outstanding, right]
    omega
  have value : state.world.zipSemaphore + held DownloadPc.critical state.left +
      held UploadPc.critical state.right = 1 := total
  have downloadWaits : ∀ pc, state.left = some pc →
      lockOp (downloadThread.call pc) = some .wait →
        outstanding (leftOps lockOp trace) = 0 := by
    intro pc stands waits
    rw [downloadInside, stands, held_some, download_discipline.wait waits]
    rfl
  have uploadWaits : ∀ pc, state.right = some pc →
      lockOp (uploadThread.call pc) = some .wait →
        outstanding (rightOps lockOp trace) = 0 := by
    intro pc stands waits
    rw [uploadInside, stands, held_some, upload_discipline.wait waits]
    rfl
  exact {
    total := by rw [downloadInside, uploadInside]; exact value
    downloadPosts := by omega
    uploadPosts := by omega
    downloadInside
    uploadInside
    downloadWaits
    uploadWaits
    notBothBlocked := by
      intro pc pc' left right waits waits'
      have outside := downloadWaits pc left waits
      have outside' := uploadWaits pc' right waits'
      omega
    returned := by
      intro left right
      rw [left, right] at value
      simpa using value }

theorem free_started_balanced (state : PipelineState freeEnv) (started : FreeStarted state) :
    state.left = some downloadThread.start ∧ state.right = some uploadThread.start ∧
      freeSemaphore.value state.world = 1 := by
  obtain ⟨left, right, semaphore, _⟩ := started
  exact ⟨left, right, semaphore⟩

/-- What the libraries may do is part of what may happen at all. -/
def libraryProjection : Projection libraryEnv freeEnv where
  world world := ⟨world.zipSemaphore, world.running⟩
  visible := some
  responds := by
    intro before after call answer responds
    have reached : after = before.after call answer := World.respond_after responds
    cases call
    case semWait | readRunning =>
      simp only [World.respond] at responds
      split at responds
      · rename_i allowed
        cases responds
        exact if_pos allowed
      · cases responds
    case zipClose | unlink | sftpWrite =>
      rw [reached]
      cases answer <;> rfl
    case sftpOpen path mode =>
      rw [reached]
      cases mode <;> cases answer <;> rfl
    all_goals
      rw [reached]
      rfl
  moves := by
    intro before after move move' moves seen
    cases move
    cases seen
    cases moves
    rfl
  stutters := by
    intro before after move moves unseen
    cases unseen

theorem library_started_free {localZip : Option ZipFile} (state : PipelineState libraryEnv)
    (started : Started localZip state) : FreeStarted (libraryProjection.state state) := by
  obtain ⟨left, right, semaphore, running, _⟩ := started
  exact ⟨left, right, semaphore, running⟩

/-- Every reachable state is disciplined, and a function that takes the
semaphore has, when it returns, waited once and then posted once. -/
theorem zip_semaphore_disciplined :
    (∀ (trace : List (PipelineEvent freeEnv)) (state : PipelineState freeEnv),
      PipelineRun freeEnv (anyStep _ _ _) FreeStarted trace state → Disciplined trace state) ∧
    (∀ (fileName content zipPath password : Bytes) (calls : List (Exchange Call.Answer))
      (result : Bool),
      (appendToZip fileName content zipPath password).Returns .semWait calls result →
        calls.filterMap (fun exchange => lockOp exchange.1) = [.wait, .post]) ∧
    (∀ (files : List Bytes) (localDir zipPath password : Bytes)
      (calls : List (Exchange Call.Answer)) (result : Bool),
      (createZipFromFiles files localDir zipPath password).Returns .semWait calls result →
        calls.filterMap (fun exchange => lockOp exchange.1) = [.wait, .post]) ∧
    (∀ (localFile remoteFile : Bytes) (calls : List (Exchange Call.Answer)) (result : Bool),
      (uploadFile localFile remoteFile).Returns .semWait calls result →
        calls.filterMap (fun exchange => lockOp exchange.1) = [.wait, .post]) := by
  refine ⟨?_, ?_, ?_, ?_⟩
  · intro trace state run
    exact balanced_disciplined
      (Run.balanced download_discipline upload_discipline free_started_balanced run)
  · intro fileName content zipPath password calls result returns
    exact Routine.returns_pays _ (append_owes fileName content zipPath password) returns
  · intro files localDir zipPath password calls result returns
    exact Routine.returns_pays _ (create_zip_owes files localDir zipPath password) returns
  · intro localFile remoteFile calls result returns
    exact Routine.returns_pays _ (upload_file_owes localFile remoteFile) returns

/-- Answers with which nothing goes wrong beyond reading a file by its name. -/
def easily (count : Nat) : List (FreeWorld → (call : Call) → Option call.Answer) :=
  List.replicate count fun _ call => some (oneEntry.smooth plainLayout call)

/-- A file is appended and the archive uploaded; and each of the three functions
is called once. -/
theorem zip_semaphore_disciplined_round :
    (∃ trace state, PipelineRun freeEnv (anyStep _ _ _) FreeStarted trace state ∧
      leftOps lockOp trace = [.post, .wait] ∧ rightOps lockOp trace = [.post, .wait] ∧
        Disciplined trace state) ∧
    (∃ calls, (appendToZip (ascii "b") (ascii "second") localZipPath zipPassphrase).Returns
      .semWait calls true ∧
      calls.filterMap (fun exchange => lockOp exchange.1) = [.wait, .post]) ∧
    (∃ calls, (createZipFromFiles [ascii "b"] [] localZipPath zipPassphrase).Returns
      .semWait calls false ∧
      calls.filterMap (fun exchange => lockOp exchange.1) = [.wait, .post]) ∧
    (∃ calls, (uploadFile localZipPath remote2DestPath).Returns
      .semWait calls true ∧
      calls.filterMap (fun exchange => lockOp exchange.1) = [.wait, .post]) := by
  refine ⟨?_, ?_, ?_, ?_⟩
  · have found : ∃ trace state, PipelineRun libraryEnv (anyStep _ _ _) (Started none) trace state ∧
        decide (leftOps lockOp (libraryProjection.trace trace) = [.post, .wait] ∧
          rightOps lockOp (libraryProjection.trace trace) = [.post, .wait]) = true :=
      exists_run_of_play (fun _ _ _ => true)
        (bothSetUp plainLayout ++ fetches plainLayout (ascii "a") [ascii "text"] 1 1 1 ++
          appends plainLayout ++ checks plainLayout ++ uploads plainLayout)
        (startState none) _ (fun _ _ _ _ => trivial) (start_state_started none)
        (by decide +kernel)
    obtain ⟨trace, state, run, outcome⟩ := found
    obtain ⟨left, right⟩ := of_decide_eq_true outcome
    have projected : PipelineRun freeEnv (anyStep _ _ _) FreeStarted _ _ :=
      run.project libraryProjection library_started_free fun _ _ _ _ _ _ => trivial
    exact ⟨_, _, projected, left, right, zip_semaphore_disciplined.1 _ _ projected⟩
  · have found : ∃ trace result world', Returned (appendToZip (ascii "b") (ascii "second")
        localZipPath zipPassphrase) freeEnv ⟨1, true⟩ trace result world' ∧ result = true :=
      exists_returned_of_perform (easily 8) _ (fun _ result _ => result) (by decide +kernel)
    obtain ⟨trace, _, _, returned, rfl⟩ := found
    exact ⟨_, returned.returns, zip_semaphore_disciplined.2.1 _ _ _ _ _ _ returned.returns⟩
  · have found : ∃ trace result world', Returned (createZipFromFiles [ascii "b"] []
        localZipPath zipPassphrase) freeEnv ⟨1, true⟩ trace result world' ∧ (!result) = true :=
      exists_returned_of_perform (easily 10) _ (fun _ result _ => !result) (by decide +kernel)
    obtain ⟨trace, result, _, returned, fails⟩ := found
    rw [Bool.not_eq_true'] at fails
    subst fails
    exact ⟨_, returned.returns, zip_semaphore_disciplined.2.2.1 _ _ _ _ _ _ returned.returns⟩
  · have found : ∃ trace result world', Returned (uploadFile localZipPath remote2DestPath)
        freeEnv ⟨1, true⟩ trace result world' ∧ result = true :=
      exists_returned_of_perform (easily 8) _ (fun _ result _ => result) (by decide +kernel)
    obtain ⟨trace, _, _, returned, rfl⟩ := found
    exact ⟨_, returned.returns, zip_semaphore_disciplined.2.2.2 _ _ _ _ returned.returns⟩

/-- The value of the semaphore and the threads in their critical section add up
to 1, over every environment that treats the semaphore as one. -/
theorem semaphore_total {env : Env Call.Answer} (projection : Projection env freeEnv)
    {ok : PipelineCondition env} {init : PipelineState env → Prop}
    (starts : ∀ state, init state → FreeStarted (projection.state state))
    {trace : List (PipelineEvent env)} {state : PipelineState env}
    (run : PipelineRun env ok init trace state) :
    (projection.world state.world).zipSemaphore + held DownloadPc.critical state.left +
      held UploadPc.critical state.right = 1 := by
  have projected : PipelineRun freeEnv (anyStep _ _ _) FreeStarted _ _ :=
    run.project projection starts fun _ _ _ _ _ _ => trivial
  exact (Run.balanced download_discipline upload_discipline free_started_balanced projected).total

theorem library_semaphore_total {localZip : Option ZipFile} {ok : PipelineCondition libraryEnv}
    {trace : List (PipelineEvent libraryEnv)} {state : PipelineState libraryEnv}
    (run : PipelineRun libraryEnv ok (Started localZip) trace state) :
    state.world.zipSemaphore + held DownloadPc.critical state.left +
      held UploadPc.critical state.right = 1 :=
  semaphore_total libraryProjection library_started_free run

end FileTransfer
