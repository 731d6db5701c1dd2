import FileTransfer.Pipeline.UploadProgress

/-!
# The archive as an upload has opened it

`upload_file` sends the file it has opened, whatever becomes of the archive
after its `sem_post`. While the archive stays there it only gets heavier: every
append writes back all it has found. So what the uploader unlinks is the file it
has sent, or one that was never sent.
-/

namespace FileTransfer

set_option autoImplicit false

open Interaction

/-- What a stream still hands over when no read fails. -/
def Ifstream.left (stream : Ifstream) : Bytes :=
  if stream.good then stream.file.bytes.drop stream.position else []

theorem Ifstream.read_left (stream : Ifstream) (count : Nat) :
    (stream.read count .complete).1 ++ (stream.read count .complete).2.left = stream.left := by
  cases good : stream.good with
  | false => simp [read, left, good]
  | true =>
      simp only [read, left, good, if_true, decide_eq_true_eq]
      split
      · rename_i full
        rw [full, ← List.drop_drop, List.take_append_drop]
      · rename_i short
        have within : (stream.file.bytes.drop stream.position).length ≤ count := by
          rw [List.length_take] at short
          omega
        rw [List.append_nil, List.take_of_length_le within]

/-- `upload_file` has opened the archive and will return true if nothing fails
any more, or it has returned true and the archive is to be unlinked. -/
def UploadPc.sending : UploadPc → Bool
  | .upload (.sftpOpen _) | .upload (.ifstreamRead _) | .upload (.sftpWrite _ _)
  | .upload (.sftpClose true) | .upload (.semPost true) | .unlink => true
  | _ => false

/-- The file that was opened, and what will have been sent of it if nothing
fails any more. -/
def UploadPc.sends (history : History) : UploadPc → Option (ZipFile × Bytes)
  | .upload (.sftpOpen stream) => history.snapshot.map (·, stream.left)
  | .upload (.ifstreamRead stream) => history.snapshot.map (·, history.sent ++ stream.left)
  | .upload (.sftpWrite stream block) =>
      history.snapshot.map (·, history.sent ++ block ++ stream.left)
  | .upload (.sftpClose true) | .upload (.semPost true) => history.snapshot.map (·, history.sent)
  | .unlink => history.uploads.head?
  | _ => none

/-- A read of the local disk fails only where nothing is left to read. -/
def UploadPc.readsWhole : (pc : UploadPc) →
    (pc.call remoteHost2 remote2DestPath).Answer → Bool
  | .upload (.ifstreamRead stream), disk => DiskRead.isComplete disk || stream.left.isEmpty
  | _, _ => true

@[simp] theorem sends_download (history : History) (pc : DownloadPc)
    (answer : (pc.call remoteHost1).Answer) (pc' : UploadPc) :
    pc'.sends (history.recordDownload pc answer) = pc'.sends history := by
  unfold History.recordDownload
  split <;> rfl

/-- From `pc` to `pc'` an upload goes on with the file it has opened, and what
it sends is less only if a read has failed. -/
structure GoesOn (history history' : History) (pc pc' : UploadPc) (whole : Bool) : Prop where
  sending : pc.sending = true
  outside : pc ≠ .unlink
  file : (pc'.sends history').map Prod.fst = (pc.sends history).map Prod.fst
  bytes : whole = true → pc'.sends history' = pc.sends history

theorem GoesOn.same {history history' : History} {pc pc' : UploadPc} {whole : Bool}
    (sending : pc.sending = true) (outside : pc ≠ .unlink)
    (same : pc'.sends history' = pc.sends history) : GoesOn history history' pc pc' whole :=
  ⟨sending, outside, congrArg (Option.map Prod.fst) same, fun _ => same⟩

theorem GoesOn.local_zip {history history' : History} {pc pc' : UploadPc} {whole : Bool}
    {answer : (pc.call remoteHost2 remote2DestPath).Answer} {world world' : World}
    (goesOn : GoesOn history history' pc pc' whole)
    (responds : world.respond (pc.call remoteHost2 remote2DestPath) answer = some world') :
    world'.localZip = world.localZip := by
  rcases upload_local_zip responds with same | ⟨removes, _⟩
  · exact same
  · exact absurd removes goesOn.outside

theorem sending_of_sends {history : History} {pc : UploadPc} {file : ZipFile} {bytes : Bytes}
    (sends : pc.sends history = some (file, bytes)) : pc.sending = true := by
  cases pc with
  | upload pc =>
      cases pc with
      | sftpClose result | semPost result =>
          cases result with
          | false => cases sends
          | true => rfl
      | sftpOpen | ifstreamRead | sftpWrite => rfl
      | _ => cases sends
  | unlink => rfl
  | _ => cases sends

theorem upload_ne_unlink (pc : UploadFilePc) : UploadPc.upload pc ≠ .unlink := by
  simp

/-- Where an upload stands after a call: it has just opened the archive, or it
goes on. -/
theorem sends_next {history : History} {world world' : World} {pc : UploadPc}
    {answer : (pc.call remoteHost2 remote2DestPath).Answer}
    (opened : pc.sending = true → (pc.sends history).isSome = true)
    (responds : world.respond (pc.call remoteHost2 remote2DestPath) answer = some world') :
    (pc.next remoteHost2 remote2DestPath answer).Meets
      (fun pc' => pc'.sending = true →
        (pc.sending = false ∧ ∃ file, world'.localZip = some file ∧
          pc'.sends (history.recordUpload pc answer) = some (file, file.bytes)) ∨
        GoesOn history (history.recordUpload pc answer) pc pc' (pc.readsWhole answer))
      fun _ => True := by
  cases pc with
  | upload pc =>
      cases pc with
      | ifstreamOpen =>
          cases answer with
          | none => exact fun sending => by cases sending
          | some file =>
              have present := World.respond_ifstream_open localZipPath responds
              obtain rfl : world' = world := World.respond_after responds
              exact fun _ => .inl ⟨rfl, file, present, rfl⟩
      | sftpOpen stream =>
          cases answer with
          | false => exact fun sending => by cases sending
          | true => exact fun _ => .inr (.same rfl (upload_ne_unlink _) rfl)
      | ifstreamRead stream =>
          simp only [UploadPc.next, UploadFilePc.next]
          cases answer with
          | complete =>
              have left := stream.read_left 4096
              cases more : (stream.read 4096 .complete).2.good ||
                  decide (0 < (stream.read 4096 .complete).1.length) with
              | true =>
                  rw [if_pos rfl]
                  refine fun _ => .inr (.same rfl (upload_ne_unlink _) ?_)
                  simp only [UploadPc.sends, History.recordUpload]
                  rw [List.append_assoc, left]
              | false =>
                  rw [if_neg (by simp)]
                  simp only [Bool.or_eq_false_iff, decide_eq_false_iff_not, Nat.not_lt,
                    Nat.le_zero, List.length_eq_zero_iff] at more
                  have nothing : stream.left = [] := by
                    rw [← left, more.2, Ifstream.left, more.1]
                    rfl
                  refine fun _ => .inr (.same rfl (upload_ne_unlink _) ?_)
                  simp only [UploadPc.sends, History.recordUpload, nothing, List.append_nil]
          | error =>
              refine fun _ => .inr ⟨rfl, upload_ne_unlink _, ?_, ?_⟩
              · simp [UploadPc.sends, History.recordUpload, Function.comp_def]
              · intro whole
                have nothing : stream.left = [] := by
                  simpa [UploadPc.readsWhole, DiskRead.isComplete] using whole
                simp [UploadPc.sends, History.recordUpload, nothing]
      | sftpWrite stream block =>
          cases answer with
          | none => exact fun sending => by cases sending
          | some count =>
              simp only [UploadPc.next, UploadFilePc.next]
              by_cases whole : count.val = block.length
              · rw [if_pos whole]
                exact fun _ => .inr (.same rfl (upload_ne_unlink _) rfl)
              · rw [if_neg whole]
                exact fun sending => by cases sending
      | sftpClose result =>
          cases result with
          | false => exact fun sending => by cases sending
          | true => exact fun _ => .inr (.same rfl (upload_ne_unlink _) rfl)
      | semPost result =>
          cases result with
          | false => exact fun sending => by cases sending
          | true =>
              have there : (history.snapshot.map (·, history.sent)).isSome = true := opened rfl
              rw [Option.isSome_map, Option.isSome_iff_exists] at there
              obtain ⟨file, snapshot⟩ := there
              refine fun _ => .inr (.same rfl (upload_ne_unlink _) ?_)
              simp [UploadPc.sends, History.recordUpload, snapshot]
      | semWait | errorOpen | errorWrite => exact fun sending => by cases sending
  | session pc | sftp pc | fileExists | fileSize =>
      simp only [UploadPc.next]
      split <;> first | trivial | exact fun sending => by cases sending
  | readRunning => cases answer <;> exact fun sending => by cases sending
  | sshFree => trivial
  | _ => exact fun sending => by cases sending

/-- The handle of an append shows the archive as it is, and an archive that is
no longer the one an upload has opened is heavier. -/
structure Grown (history : History) (state : PipelineState libraryEnv) : Prop where
  handle : ∀ pc opened, state.left = some pc → DownloadPc.handle pc = some opened →
    state.world.localZip.isSome = true → opened = state.world.entries
  upload : ∀ pc, state.right = some pc → pc.sending = true →
    ∃ file bytes now, pc.sends history = some (file, bytes) ∧ state.world.localZip = some now ∧
      (now = file ∨ file.weight < now.weight)

theorem committed_heavier {history : History} {vars : DownloadVars} {file : Bytes}
    {todo done : List Bytes} {archive : Zip} {right : Option UploadPc} {world : World}
    {written now : ZipFile}
    (grown : Grown history ⟨some (.append vars file todo done (.zipClose archive)), right, world⟩)
    (sound : (DownloadPc.append vars file todo done (.zipClose archive)).Sound)
    (closes : archive.closes noFiles (.written written) = true)
    (present : world.localZip = some now) : now.weight < written.weight := by
  obtain ⟨opened, appends⟩ := sound
  have heavier := appends.outweighs closes
  have same : archive.originals = world.entries :=
    grown.handle _ _ rfl rfl (Option.isSome_iff_exists.mpr ⟨now, present⟩)
  rw [appends.originals, World.entries, present] at same
  rwa [same] at heavier

theorem grown_download_step {history : History} {pc : DownloadPc}
    {answer : (pc.call remoteHost1).Answer} {right : Option UploadPc} {world world' : World}
    (grown : Grown history ⟨some pc, right, world⟩) (sound : pc.Sound)
    (responds : world.respond (pc.call remoteHost1) answer = some world') :
    Grown (history.recordDownload pc answer)
      ⟨(pc.next remoteHost1 answer).resume, right, world'⟩ := by
  cases download_effect responds with
  | opens found =>
      refine ⟨?_, grown.upload⟩
      intro pc' opened' stands holds _
      cases stands
      cases holds
      exact World.opens_entries found
  | @commit vars file todo done archive written closes =>
      refine ⟨?_, ?_⟩
      · intro pc' opened stands holds
        cases stands
        cases holds
      · intro pc' stands sending
        obtain ⟨opened, bytes, now, sends, present, same⟩ := grown.upload pc' stands sending
        have heavier := committed_heavier grown sound closes present
        refine ⟨opened, bytes, written, (sends_download _ _ _ _).trans sends, rfl, .inr ?_⟩
        rcases same with rfl | lighter
        · exact heavier
        · exact Nat.lt_trans lighter heavier
  | quiet records localZip remoteFile opened =>
      rw [records]
      refine ⟨?_, ?_⟩
      · intro pc' opened' stands holds present
        have there : world.localZip.isSome = true := localZip ▸ present
        refine Eq.trans ?_ (World.entries_congr localZip).symm
        rcases (handle_next responds).resumes stands with nothing | fresh | kept
        · rw [nothing] at holds
          cases holds
        · rw [fresh] at holds
          exact (Option.some.inj holds).symm
        · rw [kept] at holds
          exact grown.handle pc opened' rfl holds there
      · intro pc' stands sending
        obtain ⟨file, bytes, now, sends, present, same⟩ := grown.upload pc' stands sending
        exact ⟨file, bytes, now, sends, localZip.trans present, same⟩

theorem grown_upload_step {history : History} {pc : UploadPc}
    {answer : (pc.call remoteHost2 remote2DestPath).Answer} {left : Option DownloadPc}
    {world world' : World} (grown : Grown history ⟨left, some pc, world⟩)
    (responds : world.respond (pc.call remoteHost2 remote2DestPath) answer = some world') :
    Grown (history.recordUpload pc answer)
      ⟨left, (pc.next remoteHost2 remote2DestPath answer).resume, world'⟩ := by
  refine ⟨?_, ?_⟩
  · intro pc' opened stands holds present
    rcases upload_local_zip responds with same | ⟨_, gone⟩
    · exact (grown.handle pc' opened stands holds (same ▸ present)).trans
        (World.entries_congr same).symm
    · simp [gone] at present
  · intro pc' stands sending
    have opened : pc.sending = true → (pc.sends history).isSome = true := by
      intro sending
      obtain ⟨file, bytes, now, sends, _⟩ := grown.upload pc rfl sending
      rw [sends]
      rfl
    rcases (sends_next opened responds).resumes stands sending with
      ⟨_, file, present, sends⟩ | goesOn
    · exact ⟨file, file.bytes, file, sends, present, .inl rfl⟩
    · obtain ⟨file, bytes, now, sends, present, heavier⟩ := grown.upload pc rfl goesOn.sending
      have first := goesOn.file
      rw [sends, Option.map_some, Option.map_eq_some_iff] at first
      obtain ⟨⟨file', bytes'⟩, sends', this⟩ := first
      cases this
      exact ⟨file, bytes', now, sends', (goesOn.local_zip responds).trans present, heavier⟩

theorem grown {localZip : Option ZipFile} {ok : PipelineCondition libraryEnv}
    {trace : List (PipelineEvent libraryEnv)} {state : PipelineState libraryEnv}
    (run : PipelineRun libraryEnv ok (Started localZip) trace state) :
    Grown (history localZip trace) state := by
  refine run.invariant (fun trace state => Grown (history localZip trace) state) ?_ ?_
  · rintro state ⟨atLeft, atRight, _, _, _⟩
    refine ⟨?_, ?_⟩
    · intro pc opened stands holds
      rw [atLeft] at stands
      cases stands
      cases holds
    · intro pc stands sending
      rw [atRight] at stands
      cases stands
      cases sending
  · intro trace state event state' run before _ steps
    cases steps with
    | @left pc answer right world world' responds =>
        have sound : pc.Sound := run.keepsLeft download_keeps (fun _ started => started.1) pc rfl
        exact grown_download_step before sound responds
    | right responds => exact grown_upload_step before responds
    | @move move left right world world' moves =>
        cases move
        cases moves
        rw [history_move]
        exact ⟨before.handle, before.upload⟩

/-- If nothing fails any more, what is sent is the archive as it is. -/
def UploadPc.SendsArchive (history : History) (world : World) (pc : UploadPc) : Prop :=
  ∃ file, pc.sends history = some (file, file.bytes) ∧ world.localZip = some file

theorem sends_archive_next {history : History} {world world' : World} {pc : UploadPc}
    {answer : (pc.call remoteHost2 remote2DestPath).Answer}
    (sends : pc.sending = true → pc.SendsArchive history world)
    (whole : pc.readsWhole answer = true)
    (responds : world.respond (pc.call remoteHost2 remote2DestPath) answer = some world') :
    (pc.next remoteHost2 remote2DestPath answer).Meets
      (fun pc' => pc'.sending = true →
        pc'.SendsArchive (history.recordUpload pc answer) world') fun _ => True := by
  have opened : pc.sending = true → (pc.sends history).isSome = true := by
    intro sending
    obtain ⟨file, sent, _⟩ := sends sending
    rw [sent]
    rfl
  refine (sends_next opened responds).imp ?_ fun _ _ => trivial
  intro pc' next sending'
  rcases next sending' with ⟨_, file, present, sent⟩ | goesOn
  · exact ⟨file, sent, present⟩
  · obtain ⟨file, sent, present⟩ := sends goesOn.sending
    exact ⟨file, (goesOn.bytes whole).trans sent, (goesOn.local_zip responds).trans present⟩

theorem lost_upload_next {history : History} {world world' : World} {pc : UploadPc}
    {answer : (pc.call remoteHost2 remote2DestPath).Answer} (sending : pc.sending = true)
    (lost : ¬ pc.SendsArchive history world) (opened : (pc.sends history).isSome = true)
    (whole : pc.readsWhole answer = true)
    (responds : world.respond (pc.call remoteHost2 remote2DestPath) answer = some world') :
    (pc.next remoteHost2 remote2DestPath answer).Meets
      (fun pc' => pc'.sending = true →
        ¬ pc'.SendsArchive (history.recordUpload pc answer) world') fun _ => True := by
  refine (sends_next (fun _ => opened) responds).imp ?_ fun _ _ => trivial
  rintro pc' next sending' ⟨file, sent, present⟩
  rcases next sending' with ⟨outside, _⟩ | goesOn
  · rw [sending] at outside
    cases outside
  · have same := goesOn.local_zip responds
    exact lost ⟨file, (goesOn.bytes whole).symm.trans sent, same.symm.trans present⟩

theorem lost_download_step {history : History} {pc : DownloadPc} {pc' : UploadPc}
    {answer : (pc.call remoteHost1).Answer} {world world' : World}
    (grown : Grown history ⟨some pc, some pc', world⟩) (sound : pc.Sound)
    (sending : pc'.sending = true) (lost : ¬ pc'.SendsArchive history world)
    (responds : world.respond (pc.call remoteHost1) answer = some world') :
    ¬ pc'.SendsArchive (history.recordDownload pc answer) world' := by
  rintro ⟨file, sent, present⟩
  rw [sends_download] at sent
  cases download_effect responds with
  | opens found => exact lost ⟨file, sent, present⟩
  | quiet records localZip remoteFile opened => exact lost ⟨file, sent, localZip ▸ present⟩
  | @commit vars listed todo done archive written closes =>
      obtain ⟨opened, bytes, now, sent', there, same⟩ := grown.upload pc' rfl sending
      have heavier := committed_heavier grown sound closes there
      cases sent.symm.trans sent'
      cases present
      rcases same with rfl | lighter <;> omega

end FileTransfer
