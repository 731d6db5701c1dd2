import FileTransfer.Interaction.Execution
import FileTransfer.Pipeline.History
import FileTransfer.Pipeline.Smooth

/-!
# What `upload_file` reports and what it leaves

The copy loop ends when a read brings nothing, whether the file is at its end
or the disk has failed, and the close is not looked at. The remote file is
truncated in place and filled block by block.
-/

namespace FileTransfer

set_option autoImplicit false

open Interaction

section

variable {localFile remoteFile : Bytes}

/-- What the calls of one `upload_file` amount to: whether the remote file was
opened, or that failed, the bytes the server has accepted since, the block of an
`sftp_write` that failed, and whether the close after the loop succeeded. -/
structure Sending where
  opened : Bool
  openFailed : Bool
  accepted : Bytes
  refused : Bytes
  acknowledged : Bool
  deriving DecidableEq

def Sending.record (sending : Sending) : Turn (uploadFile localFile remoteFile) → Sending
  | ⟨.sftpOpen _, opens⟩ => { sending with opened := opens, openFailed := !opens }
  | ⟨.sftpWrite _ block, some count⟩ =>
      { sending with accepted := sending.accepted ++ block.take count.val }
  | ⟨.sftpWrite _ block, none⟩ => { sending with refused := block }
  | ⟨.sftpClose true, closed⟩ => { sending with acknowledged := closed }
  | _ => sending

def sending (trace : List (Turn (uploadFile localFile remoteFile))) : Sending :=
  trace.foldr (fun turn sending => sending.record turn) ⟨false, false, [], [], false⟩

@[simp] theorem sending_nil :
    sending ([] : List (Turn (uploadFile localFile remoteFile))) = ⟨false, false, [], [], false⟩ :=
  rfl

@[simp] theorem sending_cons (turn : Turn (uploadFile localFile remoteFile))
    (trace : List (Turn (uploadFile localFile remoteFile))) :
    sending (turn :: trace) = (sending trace).record turn := rfl

def writeAccepted : Turn (uploadFile localFile remoteFile) → Bool
  | ⟨.sftpWrite _ _, none⟩ => false
  | ⟨.sftpWrite _ block, some count⟩ => count.val = block.length
  | _ => true

/-- If a read fails, all bytes of the file had been read before it. -/
def readServed : Turn (uploadFile localFile remoteFile) → Bool
  | ⟨.ifstreamRead stream, .error⟩ =>
      !stream.good || stream.file.bytes.length ≤ stream.position
  | _ => true

def closeAcknowledged : Turn (uploadFile localFile remoteFile) → Bool
  | ⟨.sftpClose true, closed⟩ => closed
  | _ => true

/-- Nothing has gone wrong that `upload_file` does not look at, unless an
`sftp_write` has failed as well. -/
def FaultsReported (trace : List (Turn (uploadFile localFile remoteFile))) : Prop :=
  trace.all writeAccepted = true →
    trace.all readServed = true ∧ trace.all closeAcknowledged = true

instance (trace : List (Turn (uploadFile localFile remoteFile))) :
    Decidable (FaultsReported trace) :=
  inferInstanceAs (Decidable (_ → _ ∧ _))

end

def DiskRead.wanted (count : Nat) : DiskRead → Nat
  | .complete => count
  | .error => 0

/-- What one read does to a stream that is still good. -/
structure ReadFrom (stream stream' : Ifstream) (block : Bytes) (count wanted : Nat) : Prop where
  file : stream'.file = stream.file
  length : block.length = min wanted (stream.file.bytes.length - stream.position)
  position : stream'.position = stream.position + block.length
  good : stream'.good = decide (block.length = count)
  taken : stream.file.bytes.take stream'.position =
    stream.file.bytes.take stream.position ++ block

theorem Ifstream.read_from {stream : Ifstream} (good : stream.good = true) {count : Nat}
    (positive : 0 < count) (disk : DiskRead) :
    ReadFrom stream (stream.read count disk).2 (stream.read count disk).1 count
      (disk.wanted count) := by
  cases disk with
  | complete =>
      have served : (stream.read count .complete).1 =
          (stream.file.bytes.drop stream.position).take count := by
        simp [Ifstream.read, good]
      have position : (stream.read count .complete).2.position =
          stream.position + (stream.read count .complete).1.length := by
        simp [Ifstream.read, good]
      refine ⟨?_, ?_, position, ?_, ?_⟩
      · simp [Ifstream.read, good]
      · rw [served, List.length_take, List.length_drop]
        rfl
      · simp [Ifstream.read, good]
      · rw [position, List.take_add, served]
        congr 1
        rw [List.take_eq_take_iff]
        simp
  | error =>
      refine ⟨rfl, (Nat.zero_min _).symm, rfl, ?_, (List.append_nil _).symm⟩
      exact (decide_eq_false (Nat.ne_of_lt positive)).symm

theorem Ifstream.read_spoilt {stream : Ifstream} (spoilt : stream.good = false) (count : Nat)
    (disk : DiskRead) : stream.read count disk = ([], stream) := by
  obtain ⟨file, position, good⟩ := stream
  cases spoilt
  cases disk <;> rfl

section

variable {localFile remoteFile : Bytes} {world : World}
  {trace : List (Turn (uploadFile localFile remoteFile))}

structure Complete (world : World) (sending : Sending) : Prop where
  accepted : ∃ file, world.localZip = some file ∧ sending.accepted = file.bytes
  acknowledged : sending.acknowledged = true

/-- The loop with the bytes taken from the stream so far. -/
structure Looping (world : World) (trace : List (Turn (uploadFile localFile remoteFile)))
    (stream : Ifstream) (taken : Bytes) : Prop where
  localZip : world.localZip = some stream.file
  taken : taken = stream.file.bytes.take stream.position
  within : stream.position ≤ stream.file.bytes.length
  writes : trace.all writeAccepted = true
  closes : trace.all closeAcknowledged = true
  reads : trace.all readServed = true ↔
    stream.good = true ∨ stream.position = stream.file.bytes.length

theorem Looping.read {stream : Ifstream} {taken : Bytes}
    (looping : Looping world trace stream taken) (disk : DiskRead) :
    Looping world (⟨.ifstreamRead stream, disk⟩ :: trace) (stream.read 4096 disk).2
      (taken ++ (stream.read 4096 disk).1) := by
  obtain ⟨localZip, rfl, within, writes, closes, reads⟩ := looping
  cases good : stream.good with
  | false =>
      rw [Ifstream.read_spoilt good, List.append_nil]
      refine ⟨localZip, rfl, within, writes, closes, ?_⟩
      have served : readServed (⟨.ifstreamRead stream, disk⟩ :
          Turn (uploadFile localFile remoteFile)) = true := by
        cases disk <;> simp [readServed, good]
      rw [List.all_cons, served, Bool.true_and]
      exact reads
  | true =>
      obtain ⟨file, length, position, good', taken⟩ :=
        Ifstream.read_from good (by decide : 0 < 4096) disk
      refine ⟨file ▸ localZip, by rw [file, taken], ?_, writes, closes, ?_⟩
      · rw [file, position, length]
        omega
      · have earlier : trace.all readServed = true := reads.mpr (.inl good)
        rw [List.all_cons, earlier, Bool.and_true, file, good', position, length,
          decide_eq_true_eq]
        cases disk with
        | complete =>
            refine iff_of_true rfl ?_
            simp only [DiskRead.wanted]
            omega
        | error =>
            simp only [readServed, good, DiskRead.wanted, Bool.not_true, Bool.false_or,
              decide_eq_true_eq]
            omega

theorem Looping.write {stream : Ifstream} {block : Bytes} {count : Fin (block.length + 1)}
    (looping : Looping world trace stream ((sending trace).accepted ++ block))
    (all : count.val = block.length) :
    Looping world (⟨.sftpWrite stream block, some count⟩ :: trace) stream
      (sending (⟨.sftpWrite stream block, some count⟩ :: trace)).accepted := by
  obtain ⟨localZip, taken, within, writes, closes, reads⟩ := looping
  have accepted : (sending (⟨.sftpWrite stream block, some count⟩ :: trace)).accepted =
      (sending trace).accepted ++ block.take count.val := rfl
  refine ⟨localZip, ?_, within, Bool.and_eq_true_iff.mpr ⟨decide_eq_true all, writes⟩, closes,
    reads⟩
  rw [accepted, all, List.take_length, taken]

structure Unsent (trace : List (Turn (uploadFile localFile remoteFile))) : Prop where
  accepted : (sending trace).accepted = []
  writes : trace.all writeAccepted = true
  closes : trace.all closeAcknowledged = true
  reads : trace.all readServed = true

/-- The loop has ended with a read that brought nothing. -/
structure Ended (world : World) (trace : List (Turn (uploadFile localFile remoteFile)))
    (file : ZipFile) : Prop where
  localZip : world.localZip = some file
  writes : trace.all writeAccepted = true
  closes : trace.all closeAcknowledged = true
  reads : trace.all readServed = true ↔ (sending trace).accepted = file.bytes

theorem Looping.ended {stream : Ifstream}
    (looping : Looping world trace stream (sending trace).accepted)
    (spoilt : stream.good = false) : Ended world trace stream.file := by
  obtain ⟨localZip, taken, within, writes, closes, reads⟩ := looping
  refine ⟨localZip, writes, closes, reads.trans ?_⟩
  rw [taken, spoilt]
  constructor
  · rintro (good | all)
    · cases good
    · rw [all, List.take_length]
  · intro all
    have lengths := congrArg List.length all
    rw [List.length_take] at lengths
    exact .inr (by omega)

def Sends (world : World) (trace : List (Turn (uploadFile localFile remoteFile))) :
    UploadFilePc → World → Prop
  | .semWait, now | .ifstreamOpen, now | .errorOpen, now =>
      now.localZip = world.localZip ∧ Unsent trace
  | .sftpOpen stream, now =>
      now.localZip = world.localZip ∧ Unsent trace ∧
        ∃ file, world.localZip = some file ∧ stream = ⟨file, 0, true⟩
  | .ifstreamRead stream, _ => Looping world trace stream (sending trace).accepted
  | .sftpWrite stream block, _ => Looping world trace stream ((sending trace).accepted ++ block)
  | .sftpClose true, _ => ∃ file, Ended world trace file
  | .semPost true, _ => Complete world (sending trace) ↔ FaultsReported trace
  | .errorWrite, _ | .sftpClose false, _ | .semPost false, _ => FaultsReported trace

theorem sends_start (world : World) :
    Sends world ([] : List (Turn (uploadFile localFile remoteFile))) .semWait world :=
  ⟨rfl, rfl, rfl, rfl, rfl⟩

structure Neutral (turn : Turn (uploadFile localFile remoteFile)) : Prop where
  accepted : ∀ sending : Sending, (sending.record turn).accepted = sending.accepted
  write : writeAccepted turn = true
  close : closeAcknowledged turn = true
  read : readServed turn = true

theorem Unsent.turn {turn : Turn (uploadFile localFile remoteFile)} (unsent : Unsent trace)
    (neutral : Neutral turn) : Unsent (turn :: trace) := by
  obtain ⟨accepted, writes, closes, reads⟩ := unsent
  refine ⟨?_, ?_, ?_, ?_⟩
  · rw [sending_cons, neutral.accepted, accepted]
  · rw [List.all_cons, neutral.write, writes, Bool.and_true]
  · rw [List.all_cons, neutral.close, closes, Bool.and_true]
  · rw [List.all_cons, neutral.read, reads, Bool.and_true]

theorem neutral_open (answer : Option ZipFile) :
    Neutral (⟨.ifstreamOpen, answer⟩ : Turn (uploadFile localFile remoteFile)) :=
  ⟨fun _ => rfl, rfl, rfl, rfl⟩

theorem neutral_sftp_open (stream : Ifstream) (answer : Bool) :
    Neutral (⟨.sftpOpen stream, answer⟩ : Turn (uploadFile localFile remoteFile)) :=
  ⟨fun _ => rfl, rfl, rfl, rfl⟩

theorem faults_reported_turn {turn : Turn (uploadFile localFile remoteFile)}
    (neutral : Neutral turn) : FaultsReported (turn :: trace) ↔ FaultsReported trace := by
  simp only [FaultsReported, List.all_cons, neutral.write, neutral.read, neutral.close,
    Bool.true_and]

theorem Unsent.faults (unsent : Unsent trace) : FaultsReported trace :=
  fun _ => ⟨unsent.reads, unsent.closes⟩

theorem faults_reported_refused {turn : Turn (uploadFile localFile remoteFile)}
    (refused : writeAccepted turn = false) : FaultsReported (turn :: trace) := by
  intro writes
  rw [List.all_cons, refused, Bool.false_and] at writes
  cases writes

theorem Ended.close {file : ZipFile} (ended : Ended world trace file) (closed : Bool) :
    Complete world (sending (⟨.sftpClose true, closed⟩ :: trace)) ↔
      FaultsReported (⟨.sftpClose true, closed⟩ :: trace) := by
  obtain ⟨localZip, writes, closes, reads⟩ := ended
  have faults : FaultsReported (⟨.sftpClose true, closed⟩ :: trace) ↔
      trace.all readServed = true ∧ closed = true := by
    constructor
    · intro reported
      obtain ⟨served, acknowledged⟩ := reported writes
      rw [List.all_cons, Bool.and_eq_true] at acknowledged
      exact ⟨served, acknowledged.1⟩
    · rintro ⟨served, acknowledged⟩ _
      exact ⟨served, Bool.and_eq_true_iff.mpr ⟨acknowledged, closes⟩⟩
  rw [faults, reads]
  constructor
  · rintro ⟨⟨file', present, accepted⟩, acknowledged⟩
    have same : file = file' := Option.some.inj (localZip.symm.trans present)
    exact ⟨same ▸ accepted, acknowledged⟩
  · rintro ⟨accepted, acknowledged⟩
    exact ⟨⟨file, localZip, accepted⟩, acknowledged⟩

variable (localFile remoteFile world)

theorem upload_file_contract :
    Contract (uploadFile localFile remoteFile) libraryEnv
      (fun trace pc now => Sends world trace pc now)
      (fun trace result _ => (result = true → Complete world (sending trace)) ↔
        FaultsReported trace) := by
  intro trace pc answer before after sends responds
  have keeps : (pc.call localFile remoteFile).touches = false →
      after.localZip = before.localZip :=
    fun quiet => (World.respond_quiet responds quiet).1
  cases pc with
  | semWait =>
      obtain ⟨same, unsent⟩ := sends
      exact ⟨(keeps rfl).trans same, unsent.turn ⟨fun _ => rfl, rfl, rfl, rfl⟩⟩
  | ifstreamOpen =>
      obtain ⟨same, unsent⟩ := sends
      have unsent' := unsent.turn (neutral_open answer)
      cases answer with
      | none => exact unsent'.faults
      | some file =>
          have present := same.symm.trans (World.respond_ifstream_open localFile responds)
          exact ⟨(keeps rfl).trans same, unsent', file, present, rfl⟩
  | sftpOpen stream =>
      obtain ⟨same, unsent, file, present, rfl⟩ := sends
      have unsent' := unsent.turn (neutral_sftp_open ⟨file, 0, true⟩ answer)
      have after' := World.respond_truncate remoteFile responds
      cases answer with
      | false => exact ⟨after' ▸ same, unsent'⟩
      | true =>
          exact {
            localZip := present
            taken := unsent'.accepted
            within := Nat.zero_le _
            writes := unsent'.writes
            closes := unsent'.closes
            reads := iff_of_true unsent'.reads (.inl rfl) }
  | errorOpen => exact (sends.2.turn ⟨fun _ => rfl, rfl, rfl, rfl⟩).faults
  | ifstreamRead stream =>
      have looping : Looping world trace stream (sending trace).accepted := sends
      have looping' := looping.read answer
      simp only [uploadFile, UploadFilePc.next]
      split
      · exact looping'
      · rename_i ended
        rw [Bool.or_eq_true, decide_eq_true_eq, not_or, Bool.not_eq_true, Nat.not_lt,
          Nat.le_zero, List.length_eq_zero_iff] at ended
        rw [ended.2, List.append_nil] at looping'
        exact ⟨_, looping'.ended ended.1⟩
  | sftpWrite stream block =>
      have looping : Looping world trace stream ((sending trace).accepted ++ block) := sends
      cases answer with
      | none => exact faults_reported_refused rfl
      | some count =>
          simp only [uploadFile, UploadFilePc.next]
          split
          · rename_i all
            exact looping.write all
          · rename_i short
            exact faults_reported_refused (decide_eq_false short)
  | errorWrite => exact (faults_reported_turn ⟨fun _ => rfl, rfl, rfl, rfl⟩).mpr sends
  | sftpClose result =>
      cases result with
      | true =>
          obtain ⟨file, ended⟩ := sends
          exact ended.close answer
      | false => exact (faults_reported_turn ⟨fun _ => rfl, rfl, rfl, rfl⟩).mpr sends
  | semPost result =>
      have neutral : Neutral (⟨.semPost result, answer⟩ : Turn (uploadFile localFile remoteFile)) :=
        ⟨fun _ => rfl, rfl, rfl, rfl⟩
      change (result = true → Complete world (sending trace)) ↔ FaultsReported _
      rw [faults_reported_turn neutral]
      cases result with
      | true => exact (forall_prop_of_true rfl).trans sends
      | false => exact iff_of_true nofun sends

/-- The turns `upload_file` can still take with a file of `length` bytes. -/
def UploadFilePc.turnsLeft (length : Nat) : UploadFilePc → Nat
  | .semWait => 2 * length + 9
  | .ifstreamOpen => 2 * length + 8
  | .sftpOpen _ => 2 * length + 7
  | .ifstreamRead stream => if stream.good then 2 * (length - stream.position) + 6 else 3
  | .sftpWrite stream _ => if stream.good then 2 * (length - stream.position) + 7 else 4
  | .errorWrite => 3
  | .errorOpen | .sftpClose _ => 2
  | .semPost _ => 1

variable {localFile remoteFile world}

theorem turns_left_read {stream : Ifstream} (within : stream.position ≤ stream.file.bytes.length)
    (disk : DiskRead) :
    ((UploadFilePc.ifstreamRead stream).next localFile remoteFile disk).Meets
      (fun pc' => pc'.turnsLeft stream.file.bytes.length <
        (UploadFilePc.ifstreamRead stream).turnsLeft stream.file.bytes.length)
      fun _ => 0 < (UploadFilePc.ifstreamRead stream).turnsLeft stream.file.bytes.length := by
  simp only [UploadFilePc.next]
  cases good : stream.good with
  | false =>
      rw [Ifstream.read_spoilt good]
      simp [good, UploadFilePc.turnsLeft]
  | true =>
      obtain ⟨_, length, position, good', _⟩ := Ifstream.read_from good (by decide : 0 < 4096) disk
      split
      · simp only [Next.meets_goto, UploadFilePc.turnsLeft, good, good', position, if_true,
          decide_eq_true_eq]
        split
        · omega
        · omega
      · simp only [Next.meets_goto, UploadFilePc.turnsLeft, good, if_true]
        omega

theorem turns_left_step {pc : UploadFilePc} {now : World}
    (answer : (pc.call localFile remoteFile).Answer) (sends : Sends world trace pc now) :
    (pc.next localFile remoteFile answer).Meets
      (fun pc' => pc'.turnsLeft (world.fileSize.getD 0) < pc.turnsLeft (world.fileSize.getD 0))
      fun _ => 0 < pc.turnsLeft (world.fileSize.getD 0) := by
  cases pc with
  | ifstreamRead stream =>
      have looping : Looping world trace stream (sending trace).accepted := sends
      have size : world.fileSize.getD 0 = stream.file.bytes.length := by
        simp [World.fileSize, looping.localZip]
      rw [size]
      exact turns_left_read looping.within answer
  | ifstreamOpen => cases answer <;> simp [UploadFilePc.next, UploadFilePc.turnsLeft]
  | sftpOpen stream =>
      cases answer with
      | false => simp [UploadFilePc.next, UploadFilePc.turnsLeft]
      | true =>
          simp only [UploadFilePc.next, UploadFilePc.turnsLeft, Next.meets_goto]
          split <;> omega
  | sftpWrite stream block =>
      have again : 4 ≤ (UploadFilePc.sftpWrite stream block).turnsLeft (world.fileSize.getD 0) := by
        simp only [UploadFilePc.turnsLeft]
        split <;> omega
      cases answer with
      | none => exact again
      | some count =>
          simp only [UploadFilePc.next]
          split
          · simp only [UploadFilePc.turnsLeft, Next.meets_goto]
            split <;> omega
          · exact again
  | semWait | errorOpen | errorWrite | sftpClose result | semPost result =>
      simp [UploadFilePc.next, UploadFilePc.turnsLeft]

theorem upload_file_ends {pc : UploadFilePc} {now : World}
    (stands : Stands (uploadFile localFile remoteFile) libraryEnv world trace pc now) :
    trace.length < 2 * world.fileSize.getD 0 + 9 := by
  have contract : Contract (uploadFile localFile remoteFile) libraryEnv
      (fun trace pc now => Sends world trace pc now ∧
        trace.length + pc.turnsLeft (world.fileSize.getD 0) ≤ 2 * world.fileSize.getD 0 + 9)
      (fun _ _ _ => True) := by
    intro trace pc answer before after holds responds
    obtain ⟨sends, bounded⟩ := holds
    have sends' := upload_file_contract localFile remoteFile world trace pc answer before after
      sends responds
    have fewer := turns_left_step answer sends
    cases next : (uploadFile localFile remoteFile).next pc answer with
    | done result => trivial
    | goto pc' =>
        rw [next] at sends'
        have less := fewer.goes next
        refine ⟨sends', ?_⟩
        rw [List.length_cons]
        omega
  obtain ⟨_, bounded⟩ :=
    contract.stands ⟨sends_start world, by simp [UploadFilePc.turnsLeft]⟩ stands
  have left : 0 < pc.turnsLeft (world.fileSize.getD 0) := by
    cases pc <;> simp only [UploadFilePc.turnsLeft] <;> (try split) <;> omega
  omega

/-- The copy loop ends, and `upload_file` reports success only for a complete
upload just if no fault is passed over. -/
theorem upload_file_complete_iff (localFile remoteFile : Bytes) (world : World) :
    (∀ trace pc now, Stands (uploadFile localFile remoteFile) libraryEnv world trace pc now →
      trace.length < 2 * world.fileSize.getD 0 + 9) ∧
    ∀ trace result world',
      Returned (uploadFile localFile remoteFile) libraryEnv world trace result world' →
        ((result = true → Complete world (sending trace)) ↔ FaultsReported trace) := by
  refine ⟨fun _ _ _ stands => upload_file_ends stands, ?_⟩
  intro trace result world' returned
  exact (upload_file_contract localFile remoteFile world).returned (sends_start world) returned

end

/-- The first read fails, and nothing is sent; the close is the only thing that
fails, and is not looked at. -/
theorem incomplete_upload_reported :
    (¬ ∀ trace result world',
      Returned (uploadFile localZipPath remote2DestPath) libraryEnv oneEntry trace result world' →
        result = true → ∃ file, oneEntry.localZip = some file ∧
          (sending trace).accepted = file.bytes) ∧
    ¬ ∀ trace result world',
      Returned (uploadFile localZipPath remote2DestPath) libraryEnv oneEntry trace result world' →
        result = true → (sending trace).acknowledged = true := by
  constructor
  · intro complete
    have found : ∃ trace result world', Returned (uploadFile localZipPath remote2DestPath)
        libraryEnv oneEntry trace result world' ∧
        (result && decide ((sending trace).accepted = [])) = true :=
      exists_returned_of_perform (smoothly 3 ++ [breaksOff] ++ smoothly 2) _ _
        (by decide +kernel)
    obtain ⟨trace, result, world', returned, outcome⟩ := found
    obtain ⟨rfl, nothing⟩ := Bool.and_eq_true_iff.mp outcome
    obtain ⟨file, present, all⟩ := complete trace true world' returned rfl
    cases present
    rw [of_decide_eq_true nothing] at all
    exact absurd all (by decide)
  · intro acknowledged
    have found : ∃ trace result world', Returned (uploadFile localZipPath remote2DestPath)
        libraryEnv oneEntry trace result world' ∧
        (result && !(sending trace).acknowledged) = true :=
      exists_returned_of_perform (smoothly 6 ++ [refusesClose] ++ smoothly 1) _ _
        (by decide +kernel)
    obtain ⟨trace, result, world', returned, outcome⟩ := found
    obtain ⟨rfl, refused⟩ := Bool.and_eq_true_iff.mp outcome
    rw [acknowledged trace true world' returned rfl] at refused
    cases refused

end FileTransfer
