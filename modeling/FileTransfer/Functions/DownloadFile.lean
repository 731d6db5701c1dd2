import FileTransfer.Interaction.Execution
import FileTransfer.Pipeline.Smooth

/-!
# What `download_file` delivers

The read loop against an arbitrary server: any chunks, an end or an error at
any point.
-/

namespace FileTransfer

set_option autoImplicit false

open Interaction

/-- What the calls of one `download_file` amount to: whether the file was
opened, the chunks read, whether a read has returned 0, and how often the file
was closed. -/
structure Reading where
  opened : Bool
  received : Bytes
  ended : Bool
  closes : Nat
  deriving DecidableEq

def Reading.record (reading : Reading) {remoteFile : Bytes} {fileContents : FileContents} :
    Turn (downloadFile remoteFile fileContents) → Reading
  | ⟨.sftpOpen, opens⟩ => { reading with opened := opens }
  | ⟨.sftpRead _, .data chunk⟩ => { reading with received := reading.received ++ chunk.val }
  | ⟨.sftpRead _, .eof⟩ => { reading with ended := true }
  | ⟨.sftpRead _, .error⟩ => reading
  | ⟨.sftpClose _ _, _⟩ => { reading with closes := reading.closes + 1 }

def reading {remoteFile : Bytes} {fileContents : FileContents}
    (trace : List (Turn (downloadFile remoteFile fileContents))) : Reading :=
  trace.foldr (fun turn reading => reading.record turn) ⟨false, [], false, 0⟩

/-- Where the loop stands, the buffer holds what has been read. -/
def DownloadFilePc.Reads (reading : Reading) : DownloadFilePc → Prop
  | .sftpOpen => reading = ⟨false, [], false, 0⟩
  | .sftpRead buffer => reading = ⟨true, buffer, false, 0⟩
  | .sftpClose buffer complete => reading = ⟨true, buffer, complete, 0⟩

/-- All the bytes under the base name, or nothing and `file_contents` as it
was; the file is closed once if it was opened. -/
structure Delivers (remoteFile : Bytes) (fileContents : FileContents) (reading : Reading)
    (result : Bool × FileContents) : Prop where
  returned : result.1 = true ↔ reading.opened = true ∧ reading.ended = true
  delivered : result.1 = true → result.2 = (baseName remoteFile, reading.received)
  unchanged : result.1 = false → result.2 = fileContents
  closed : reading.closes = if reading.opened then 1 else 0

theorem reads_step {remoteFile : Bytes} {fileContents : FileContents} {reading : Reading}
    (turn : Turn (downloadFile remoteFile fileContents)) (reads : turn.pc.Reads reading) :
    (turn.pc.next remoteFile fileContents turn.answer).Meets
      (fun pc' => pc'.Reads (reading.record turn))
      fun result => Delivers remoteFile fileContents (reading.record turn) result := by
  obtain ⟨pc, answer⟩ := turn
  cases pc with
  | sftpOpen =>
      cases reads
      cases answer with
      | true => rfl
      | false => exact ⟨by simp [Reading.record], nofun, fun _ => rfl, rfl⟩
  | sftpRead buffer =>
      cases reads
      cases answer <;> rfl
  | sftpClose buffer complete =>
      cases reads
      cases complete with
      | true => exact ⟨by simp [Reading.record], fun _ => rfl, nofun, rfl⟩
      | false => exact ⟨by simp [Reading.record], nofun, fun _ => rfl, rfl⟩

/-- The reads and what follows them, when these chunks come and then an end or an
error. -/
def stoppedReads (chunks : List (Chunk 1024)) (complete closed : Bool) :
    List (Exchange Call.Answer) :=
  chunks.map (fun chunk => ⟨.sftpRead 1024, SftpRead.data chunk⟩) ++
    [⟨.sftpRead 1024, if complete then SftpRead.eof else SftpRead.error⟩, ⟨.sftpClose, closed⟩]

theorem stopped_reads_return (remoteFile : Bytes) (fileContents : FileContents)
    (chunks : List (Chunk 1024)) (complete closed : Bool) (buffer : Bytes) :
    (downloadFile remoteFile fileContents).Returns (.sftpRead buffer)
      (stoppedReads chunks complete closed)
      (if complete then (true, baseName remoteFile, buffer ++ (chunks.map (·.val)).flatten)
        else (false, fileContents)) := by
  induction chunks generalizing buffer with
  | nil =>
      rw [List.map_nil, List.flatten_nil, List.append_nil]
      cases complete with
      | true =>
          have closes : (downloadFile remoteFile fileContents).Returns (.sftpClose buffer true)
              [⟨.sftpClose, closed⟩] (true, baseName remoteFile, buffer) := .done rfl
          exact .goto rfl closes
      | false =>
          have closes : (downloadFile remoteFile fileContents).Returns (.sftpClose buffer false)
              [⟨.sftpClose, closed⟩] (false, fileContents) := .done rfl
          exact .goto rfl closes
  | cons chunk chunks ih =>
      have rest := ih (buffer ++ chunk.val)
      rw [List.append_assoc] at rest
      exact .goto rfl rest

/-- Over any environment `download_file` returns true just if the file was
opened and a read came to its end, and then it hands over the base name and all
the chunks; otherwise `file_contents` is left alone. A file that was opened is
closed once. And a call whose reads come to an end or an error does return. -/
theorem download_file_delivers (remoteFile : Bytes) (fileContents : FileContents) :
    (∀ (env : Env Call.Answer) (world world' : env.World)
      (trace : List (Turn (downloadFile remoteFile fileContents))) (result : Bool × FileContents),
      Returned (downloadFile remoteFile fileContents) env world trace result world' →
        Delivers remoteFile fileContents (reading trace) result) ∧
    (slash ∉ remoteFile → baseName remoteFile = remoteFile) ∧
    (∀ dir name, remoteFile = dir ++ slash :: name → slash ∉ name →
      baseName remoteFile = name) ∧
    (downloadFile remoteFile fileContents).Returns .sftpOpen
      [⟨.sftpOpen remoteFile .read, false⟩] (false, fileContents) ∧
    ∀ chunks complete closed, (downloadFile remoteFile fileContents).Returns .sftpOpen
      (⟨.sftpOpen remoteFile .read, true⟩ :: stoppedReads chunks complete closed)
      (if complete then (true, baseName remoteFile, (chunks.map (·.val)).flatten)
        else (false, fileContents)) := by
  refine ⟨?_, base_name_whole, ?_, .done rfl, ?_⟩
  · intro env world world' trace result returned
    have contract : Contract (downloadFile remoteFile fileContents) env
        (fun trace pc _ => pc.Reads (reading trace))
        (fun trace result _ => Delivers remoteFile fileContents (reading trace) result) :=
      fun _ pc answer _ _ reads _ => reads_step ⟨pc, answer⟩ reads
    exact contract.returned rfl returned
  · rintro dir name rfl flat
    exact base_name_after_slash flat dir
  · intro chunks complete closed
    exact .goto rfl (stopped_reads_return remoteFile fileContents chunks complete closed [])

/-- A file comes in two chunks. -/
theorem download_file_delivers_two_chunks :
    ∃ trace result world',
      Returned (downloadFile (ascii "/tmp/remote1/files/a") ([], [])) libraryEnv
        ⟨1, true, none, none, []⟩ trace result world' ∧
      reading trace = ⟨true, ascii "text", true, 1⟩ ∧
        Delivers (ascii "/tmp/remote1/files/a") ([], []) (reading trace) result := by
  have found : ∃ trace result world',
      Returned (downloadFile (ascii "/tmp/remote1/files/a") ([], [])) libraryEnv
        ⟨1, true, none, none, []⟩ trace result world' ∧
      decide (reading trace = ⟨true, ascii "text", true, 1⟩) = true :=
    exists_returned_of_perform
      (smoothly 1 ++ [sends (ascii "te"), sends (ascii "xt")] ++ smoothly 2) _ _
      (by decide +kernel)
  obtain ⟨trace, result, world', returned, outcome⟩ := found
  exact ⟨trace, result, world', returned, of_decide_eq_true outcome,
    (download_file_delivers _ _).1 _ _ _ _ _ returned⟩

end FileTransfer
