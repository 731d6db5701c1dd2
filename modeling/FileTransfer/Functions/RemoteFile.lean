import FileTransfer.Functions.UploadFile

/-!
# What `upload_file` leaves at the remote path

Nothing changes there before `sftp_open` is called. Once it has succeeded there
is what the server has accepted of the archive, and however the call ends, that
is what stays. A call that fails may have been carried out all the same.
-/

namespace FileTransfer

set_option autoImplicit false

open Interaction

section

variable {localFile remoteFile : Bytes} {world : World}
  {trace : List (Turn (uploadFile localFile remoteFile))}

/-- The earlier content as long as the remote file has not been opened, or
nothing if that has failed; then the part of the archive accepted so far, with
some first part of a block whose `sftp_write` has failed. -/
def RemoteHolds (world : World) (sending : Sending) (now : World) : Prop :=
  if sending.opened then
    ∃ lost, lost <+: sending.refused ∧ now.remoteFile = some (sending.accepted ++ lost) ∧
      ∃ file, world.localZip = some file ∧ sending.accepted ++ lost <+: file.bytes
  else now.remoteFile = world.remoteFile ∨
    sending.openFailed = true ∧ now.remoteFile = some []

structure Untouched (world : World) (sending : Sending) (now : World) : Prop where
  opened : sending.opened = false
  openFailed : sending.openFailed = false
  refused : sending.refused = []
  remoteFile : now.remoteFile = world.remoteFile

structure Filling (world : World) (sending : Sending) (now : World) : Prop where
  opened : sending.opened = true
  refused : sending.refused = []
  remoteFile : now.remoteFile = some sending.accepted
  part : ∃ file, world.localZip = some file ∧ sending.accepted <+: file.bytes

theorem Untouched.holds {sending : Sending} {now : World}
    (untouched : Untouched world sending now) : RemoteHolds world sending now := by
  unfold RemoteHolds
  rw [untouched.opened]
  exact .inl untouched.remoteFile

theorem Filling.holds {sending : Sending} {now : World} (filling : Filling world sending now) :
    RemoteHolds world sending now := by
  obtain ⟨opened, _, remoteFile, part⟩ := filling
  unfold RemoteHolds
  rw [if_pos opened]
  refine ⟨[], List.nil_prefix, ?_, ?_⟩
  · rw [remoteFile, List.append_nil]
  · rw [List.append_nil]
    exact part

def Replaces (world : World) (trace : List (Turn (uploadFile localFile remoteFile))) :
    UploadFilePc → World → Prop
  | .semWait, now | .ifstreamOpen, now | .sftpOpen _, now => Untouched world (sending trace) now
  | .ifstreamRead _, now | .sftpWrite _ _, now | .sftpClose true, now | .semPost true, now =>
      Filling world (sending trace) now
  | .errorOpen, now | .errorWrite, now | .sftpClose false, now | .semPost false, now =>
      RemoteHolds world (sending trace) now

theorem Replaces.holds {pc : UploadFilePc} {now : World} (replaces : Replaces world trace pc now) :
    RemoteHolds world (sending trace) now := by
  cases pc with
  | semWait | ifstreamOpen | sftpOpen => exact Untouched.holds replaces
  | ifstreamRead | sftpWrite => exact Filling.holds replaces
  | errorOpen | errorWrite => exact replaces
  | sftpClose result | semPost result =>
      cases result with
      | false => exact replaces
      | true => exact Filling.holds replaces

section

variable {sending : Sending} {before after : World} (same : after.remoteFile = before.remoteFile)
include same

theorem Untouched.keep (untouched : Untouched world sending before) :
    Untouched world sending after :=
  { untouched with remoteFile := same.trans untouched.remoteFile }

theorem Filling.keep (filling : Filling world sending before) : Filling world sending after :=
  { filling with remoteFile := same.trans filling.remoteFile }

theorem RemoteHolds.keep (holds : RemoteHolds world sending before) :
    RemoteHolds world sending after := by
  unfold RemoteHolds at *
  rw [same]
  exact holds

end

theorem Untouched.open_failed {stream : Ifstream} {now : World}
    (untouched : Untouched world (sending trace) now) :
    RemoteHolds world (sending (⟨.sftpOpen stream, false⟩ :: trace)) now.openUnanswered := by
  have holds : now.openUnanswered.remoteFile = world.remoteFile ∨
      now.openUnanswered.remoteFile = some [] := by
    unfold World.openUnanswered
    dsimp only
    split
    · exact .inl untouched.remoteFile
    · exact .inr rfl
  exact holds.imp_right fun empty => ⟨rfl, empty⟩

theorem Filling.write_failed {stream : Ifstream} {block : Bytes} {now : World}
    (filling : Filling world (sending trace) now)
    (within : ∃ file, world.localZip = some file ∧
      (sending trace).accepted ++ block <+: file.bytes) :
    RemoteHolds world (sending (⟨.sftpWrite stream block, none⟩ :: trace))
      (now.writeUnanswered block) := by
  obtain ⟨file, present, within⟩ := within
  have lost := List.take_prefix (now.unanswered.headD 0) block
  refine (if_pos filling.opened).mpr ⟨_, lost, ?_, file, present, ?_⟩
  · unfold World.writeUnanswered
    rw [filling.remoteFile]
    rfl
  · exact ((List.prefix_append_right_inj _).mpr lost).trans within

theorem Filling.write (stream : Ifstream) {block : Bytes} {count : Fin (block.length + 1)}
    {now after : World} (filling : Filling world (sending trace) now)
    (within : ∃ file, world.localZip = some file ∧
      (sending trace).accepted ++ block <+: file.bytes)
    (written : after.remoteFile = now.remoteFile.map (· ++ block.take count.val)) :
    Filling world (sending (⟨.sftpWrite stream block, some count⟩ :: trace)) after := by
  obtain ⟨file, present, within⟩ := within
  refine ⟨filling.opened, filling.refused, ?_, file, present, ?_⟩
  · rw [written, filling.remoteFile]
    rfl
  · have part : (sending trace).accepted ++ block.take count.val <+:
        (sending trace).accepted ++ block :=
      (List.prefix_append_right_inj _).mpr (List.take_prefix _ _)
    exact part.trans within

theorem replaces_step {pc : UploadFilePc} {answer : (pc.call localFile remoteFile).Answer}
    {before after : World} (sends : Sends world trace pc before)
    (replaces : Replaces world trace pc before)
    (responds : before.respond (pc.call localFile remoteFile) answer = some after) :
    (pc.next localFile remoteFile answer).Meets
      (fun pc' => Replaces world (⟨pc, answer⟩ :: trace) pc' after)
      fun result => RemoteHolds world (sending (⟨pc, answer⟩ :: trace)) after ∧
        (result = true → Filling world (sending (⟨pc, answer⟩ :: trace)) after) := by
  have same : (pc.call localFile remoteFile).touches = false →
      after.remoteFile = before.remoteFile :=
    fun quiet => (World.respond_quiet responds quiet).2
  cases pc with
  | semWait => exact Untouched.keep (same rfl) replaces
  | ifstreamOpen =>
      have kept := Untouched.keep (same rfl) replaces
      cases answer with
      | none => exact kept.holds
      | some file => exact kept
  | sftpOpen stream =>
      obtain ⟨_, unsent, file, present, rfl⟩ := sends
      have untouched : Untouched world (sending trace) before := replaces
      have after' := World.respond_truncate remoteFile responds
      cases answer with
      | false =>
          rw [show after = before.openUnanswered from after']
          exact untouched.open_failed
      | true =>
          have accepted : (sending (⟨.sftpOpen ⟨file, 0, true⟩, true⟩ :: trace)).accepted = [] :=
            unsent.accepted
          refine ⟨rfl, untouched.refused, ?_, file, present, ?_⟩
          · rw [after', accepted]
            rfl
          · rw [accepted]
            exact List.nil_prefix
  | errorOpen | errorWrite => exact RemoteHolds.keep (same rfl) replaces
  | ifstreamRead stream =>
      have kept : Filling world (sending (⟨.ifstreamRead stream, answer⟩ :: trace)) after :=
        Filling.keep (same rfl) replaces
      simp only [UploadFilePc.next]
      split
      · exact kept
      · exact kept
  | sftpWrite stream block =>
      have looping : Looping world trace stream ((sending trace).accepted ++ block) := sends
      have filling : Filling world (sending trace) before := replaces
      have within : ∃ file, world.localZip = some file ∧
          (sending trace).accepted ++ block <+: file.bytes := by
        refine ⟨stream.file, looping.localZip, ?_⟩
        rw [looping.taken]
        exact List.take_prefix _ _
      cases answer with
      | none =>
          obtain rfl := Option.some.inj responds
          exact filling.write_failed within
      | some count =>
          have filling' := filling.write stream within (World.respond_write responds)
          simp only [UploadFilePc.next]
          split
          · exact filling'
          · exact filling'.holds
  | sftpClose result =>
      cases result with
      | false => exact RemoteHolds.keep (same rfl) replaces
      | true =>
          have kept := Filling.keep (same rfl) replaces
          exact { kept with }
  | semPost result =>
      cases result with
      | false => exact ⟨RemoteHolds.keep (same rfl) replaces, fun closes => by cases closes⟩
      | true =>
          have kept := Filling.keep (same rfl) replaces
          exact ⟨kept.holds, fun _ => kept⟩

/-- At every step of `upload_file` the remote path holds what it held before, as
long as `sftp_open` has not been called; that or nothing where it has failed;
and a part of the archive from then on. When it returns true, that is what the
server has accepted, without a doubt about any block. -/
theorem remote_file_partly_replaced (localFile remoteFile : Bytes) (world : World) :
    (∀ trace pc now, Stands (uploadFile localFile remoteFile) libraryEnv world trace pc now →
      RemoteHolds world (sending trace) now) ∧
    ∀ trace result now,
      Returned (uploadFile localFile remoteFile) libraryEnv world trace result now →
      RemoteHolds world (sending trace) now ∧
        (result = true → (sending trace).opened = true ∧
          now.remoteFile = some (sending trace).accepted) := by
  have contract : Contract (uploadFile localFile remoteFile) libraryEnv
      (fun trace pc now => Sends world trace pc now ∧ Replaces world trace pc now)
      (fun trace result now => RemoteHolds world (sending trace) now ∧
        (result = true → Filling world (sending trace) now)) := by
    intro trace pc answer before after holds responds
    obtain ⟨sends, replaces⟩ := holds
    have sends' := upload_file_contract localFile remoteFile world trace pc answer before after
      sends responds
    have replaces' := replaces_step sends replaces responds
    cases next : (uploadFile localFile remoteFile).next pc answer with
    | goto pc' =>
        rw [next] at sends'
        exact ⟨sends', replaces'.goes next⟩
    | done result =>
        change (pc.next localFile remoteFile answer).Meets _ _ at replaces'
        have ends : pc.next localFile remoteFile answer = .done result := next
        rw [ends] at replaces'
        exact replaces'
  have starts :
      Replaces world ([] : List (Turn (uploadFile localFile remoteFile))) .semWait world :=
    ⟨rfl, rfl, rfl, rfl⟩
  refine ⟨?_, ?_⟩
  · intro trace pc now stands
    exact (contract.stands ⟨sends_start world, starts⟩ stands).2.holds
  · intro trace result now returned
    obtain ⟨holds, succeeds⟩ := contract.returned ⟨sends_start world, starts⟩ returned
    refine ⟨holds, fun success => ?_⟩
    exact ⟨(succeeds success).opened, (succeeds success).remoteFile⟩

end

/-- The server takes part of the only block and the upload fails: what was there
before is gone. -/
theorem failed_upload_overwrites :
    ¬ ∀ world trace result world',
      Returned (uploadFile localZipPath remote2DestPath) libraryEnv world trace result world' →
        result = false → world'.remoteFile = world.remoteFile := by
  intro undamaged
  have found : ∃ trace result world', Returned (uploadFile localZipPath remote2DestPath) libraryEnv
      { oneEntry with remoteFile := some (ascii "old") } trace result world' ∧
      (!result && decide (world'.remoteFile = some (ascii "af"))) = true :=
    exists_returned_of_perform (smoothly 4 ++ [takes 2] ++ smoothly 3) _ _ (by decide +kernel)
  obtain ⟨trace, result, world', returned, outcome⟩ := found
  obtain ⟨failed, partly⟩ := Bool.and_eq_true_iff.mp outcome
  have same := undamaged _ trace result world' returned (by simpa using failed)
  rw [of_decide_eq_true partly] at same
  exact absurd same (by decide)

end FileTransfer
