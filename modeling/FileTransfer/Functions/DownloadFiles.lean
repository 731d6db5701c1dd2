import FileTransfer.Interaction.Execution
import FileTransfer.Program.Transfer
import Mathlib.Data.List.Nodup
import Mathlib.Logic.Function.Basic

/-!
# `download_files` beside `download_file`

The same read loop twice. What the server answers is fixed, so that both can be
called with the same outcomes; the local disk takes whatever is written.
-/

namespace FileTransfer

set_option autoImplicit false

open Interaction

/-- Whether a path can be opened, and what the reads of it come to, one after
the other. -/
structure Server where
  opens : Bytes → Bool
  reads : Bytes → Nat → (count : Nat) → SftpRead count

/-- The file open at the server, with the number of reads it has served, the
path `ofs` writes to, and the local disk. -/
structure Receiver where
  remote : Option (Bytes × Nat)
  ofs : Option Bytes
  disk : Bytes → Option Bytes

namespace Server

variable (server : Server)

def respond (receiver : Receiver) : (call : Call) → call.Answer → Option Receiver
  | .sftpOpen path _, opened =>
      if opened = server.opens path then
        some { receiver with remote := if opened then some (path, 0) else none }
      else none
  | .sftpRead count, answer =>
      receiver.remote.bind fun file =>
        if answer = server.reads file.1 file.2 count then
          some { receiver with remote := some (file.1, file.2 + 1) }
        else none
  | .sftpClose, _ => some { receiver with remote := none }
  | .ofstreamOpen path, true =>
      some { receiver with ofs := some path, disk := Function.update receiver.disk path (some []) }
  | .ofstreamWrite block, true =>
      receiver.ofs.bind fun path => (receiver.disk path).map fun written =>
        { receiver with disk := Function.update receiver.disk path (some (written ++ block)) }
  | .ofstreamClose, true => some { receiver with ofs := none }
  | .ofstreamOpen _, false | .ofstreamWrite _, false | .ofstreamClose, false => none
  | _, _ => some receiver

abbrev env : Env Call.Answer where
  World := Receiver
  Move := Empty
  respond := server.respond
  move := nofun

/-- The first reads of a path, so many, all give data: these bytes. -/
inductive Sends (path : Bytes) : Nat → Bytes → Prop where
  | start : Sends path 0 []
  | data {turn : Nat} {bytes : Bytes} {chunk : Chunk 1024} (sends : Sends path turn bytes)
      (reads : server.reads path turn 1024 = .data chunk) :
      Sends path (turn + 1) (bytes ++ chunk.val)

def Stops (path bytes : Bytes) (complete : Bool) : Prop :=
  ∃ turn, server.Sends path turn bytes ∧
    server.reads path turn 1024 = if complete then .eof else .error

variable {server} {path bytes bytes' : Bytes} {turn turn' : Nat} {complete complete' : Bool}

theorem Sends.earlier (sends : server.Sends path turn bytes) (earlier : turn' < turn) :
    ∃ chunk, server.reads path turn' 1024 = .data chunk := by
  induction sends with
  | start => omega
  | @data turn bytes chunk sends reads ih =>
      by_cases last : turn' = turn
      · rw [last]
        exact ⟨chunk, reads⟩
      · exact ih (by omega)

theorem Sends.same (sends : server.Sends path turn bytes) (sends' : server.Sends path turn bytes') :
    bytes = bytes' := by
  induction sends generalizing bytes' with
  | start =>
      cases sends'
      rfl
  | data sends reads ih =>
      cases sends' with
      | data sends' reads' =>
          rw [ih sends']
          rw [reads] at reads'
          cases reads'
          rfl

theorem Stops.not_later (sends : server.Sends path turn bytes)
    (last : server.reads path turn' 1024 = if complete then .eof else .error) : turn ≤ turn' := by
  by_contra later
  obtain ⟨chunk, reads⟩ := sends.earlier (Nat.lt_of_not_le later)
  rw [reads] at last
  cases complete <;> cases last

theorem Stops.same (stops : server.Stops path bytes complete)
    (stops' : server.Stops path bytes' complete') : bytes = bytes' ∧ complete = complete' := by
  obtain ⟨turn, sends, last⟩ := stops
  obtain ⟨turn', sends', last'⟩ := stops'
  have turns : turn = turn' :=
    Nat.le_antisymm (Stops.not_later sends last') (Stops.not_later sends' last)
  subst turns
  refine ⟨sends.same sends', ?_⟩
  rw [last] at last'
  cases complete <;> cases complete' <;> first | rfl | cases last'

theorem respond_open {receiver after : Receiver} {mode : OpenMode} {opened : Bool} :
    server.respond receiver (.sftpOpen path mode) opened = some after ↔
      opened = server.opens path ∧
        { receiver with remote := if opened then some (path, 0) else none } = after := by
  rw [respond]
  split
  · simp [*]
  · simp [*]

theorem respond_read {receiver after : Receiver} {count : Nat} {answer : SftpRead count}
    (remote : receiver.remote = some (path, turn)) :
    server.respond receiver (.sftpRead count) answer = some after ↔
      answer = server.reads path turn count ∧
        { receiver with remote := some (path, turn + 1) } = after := by
  rw [respond, remote, Option.bind_some]
  split
  · simp [*]
  · simp [*]

theorem respond_ofstream_open {receiver after : Receiver} {created : Bool} :
    server.respond receiver (.ofstreamOpen path) created = some after ↔
      created = true ∧
        { receiver with ofs := some path, disk := Function.update receiver.disk path (some []) } =
          after := by
  cases created <;> simp [respond]

theorem respond_write {receiver after : Receiver} {block : Bytes} {written : Bool}
    (ofs : receiver.ofs = some path) (there : receiver.disk path = some bytes) :
    server.respond receiver (.ofstreamWrite block) written = some after ↔
      written = true ∧
        { receiver with disk := Function.update receiver.disk path (some (bytes ++ block)) } =
          after := by
  cases written <;> simp [respond, ofs, there]

theorem respond_ofstream_close {receiver after : Receiver} {closed : Bool} :
    server.respond receiver .ofstreamClose closed = some after ↔
      closed = true ∧ { receiver with ofs := none } = after := by
  cases closed <;> simp [respond]

end Server

section

variable {server : Server} {remoteFile : Bytes} {fileContents : FileContents}

def DownloadFilePc.Receives (server : Server) (remoteFile : Bytes) :
    DownloadFilePc → Receiver → Prop
  | .sftpOpen, _ => True
  | .sftpRead buffer, receiver =>
      server.opens remoteFile = true ∧
        ∃ turn, server.Sends remoteFile turn buffer ∧ receiver.remote = some (remoteFile, turn)
  | .sftpClose buffer complete, _ =>
      server.opens remoteFile = true ∧ server.Stops remoteFile buffer complete

theorem download_file_contract :
    Contract (downloadFile remoteFile fileContents) server.env
      (fun _ pc receiver => pc.Receives server remoteFile receiver)
      (fun _ result _ => result.1 = true → server.opens remoteFile = true ∧
        ∃ bytes, server.Stops remoteFile bytes true ∧ result.2 = (baseName remoteFile, bytes)) := by
  intro _ pc answer before after receives responds
  cases pc with
  | sftpOpen =>
      obtain ⟨opened, rfl⟩ := Server.respond_open.mp responds
      cases answer with
      | false => exact nofun
      | true => exact ⟨opened.symm, 0, .start, rfl⟩
  | sftpRead buffer =>
      obtain ⟨opens, turn, sends, remote⟩ := receives
      obtain ⟨reads, rfl⟩ := (Server.respond_read remote).mp responds
      cases answer with
      | data chunk => exact ⟨opens, turn + 1, .data sends reads.symm, rfl⟩
      | eof => exact ⟨opens, turn, sends, reads.symm⟩
      | error => exact ⟨opens, turn, sends, reads.symm⟩
  | sftpClose buffer complete =>
      cases complete with
      | false => exact nofun
      | true => exact fun _ => ⟨receives.1, buffer, receives.2, rfl⟩

theorem download_file_reaches (fileContents : FileContents) (receiver : Receiver)
    (opens : server.opens remoteFile = true) {turn : Nat} {bytes : Bytes}
    (sends : server.Sends remoteFile turn bytes) :
    ∃ trace between, Stands (downloadFile remoteFile fileContents) server.env receiver trace
      (.sftpRead bytes) between ∧ between.remote = some (remoteFile, turn) := by
  induction sends with
  | start =>
      have responds : server.respond receiver (.sftpOpen remoteFile .read) true =
          some { receiver with remote := some (remoteFile, 0) } :=
        Server.respond_open.mpr ⟨opens.symm, rfl⟩
      exact ⟨_, _, .turn .start responds rfl, rfl⟩
  | @data turn bytes chunk sends reads ih =>
      obtain ⟨trace, between, stands, remote⟩ := ih
      have responds := (Server.respond_read remote).mpr ⟨reads.symm, rfl⟩
      exact ⟨_, _, .turn stands responds rfl, rfl⟩

/-- It returns true just if the file can be opened and its reads come to an
end, and then with all that was sent. -/
theorem download_file_true_iff {receiver : Receiver} {contents : FileContents} :
    (∃ trace receiver', Returned (downloadFile remoteFile fileContents) server.env receiver trace
      (true, contents) receiver') ↔
    server.opens remoteFile = true ∧
      ∃ bytes, server.Stops remoteFile bytes true ∧ contents = (baseName remoteFile, bytes) := by
  constructor
  · rintro ⟨trace, receiver', returned⟩
    exact download_file_contract.returned trivial returned rfl
  · rintro ⟨opens, bytes, ⟨turn, sends, last⟩, rfl⟩
    obtain ⟨trace, between, stands, remote⟩ :=
      download_file_reaches fileContents receiver opens sends
    have ends : server.respond between (.sftpRead 1024) .eof =
        some { between with remote := some (remoteFile, turn + 1) } :=
      (Server.respond_read remote).mpr ⟨last.symm, rfl⟩
    have closes : server.respond { between with remote := some (remoteFile, turn + 1) }
        .sftpClose true = some { between with remote := none } := rfl
    exact ⟨⟨.sftpClose bytes true, true⟩ :: _, _, .done (.turn stands ends rfl) closes rfl⟩

end

/-- A file is open at both ends: it has served so many reads, and these bytes
have been written. -/
structure Receiver.Copies (receiver : Receiver) (file target : Bytes) (turn : Nat)
    (written : Bytes) : Prop where
  remote : receiver.remote = some (file, turn)
  ofs : receiver.ofs = some target
  written : receiver.disk target = some written

section

variable (server : Server) (localDir : Bytes) (paths : List Bytes)

/-- The reads of the file have stopped, and what came is under its base name. -/
def Server.Fetched (disk : Bytes → Option Bytes) (path : Bytes) : Prop :=
  server.opens path = true ∧
    ∃ bytes complete, server.Stops path bytes complete ∧
      disk (localDir ++ baseName path) = some bytes

def Server.FetchedBefore (disk : Bytes → Option Bytes) (file : Bytes) (todo : List Bytes) : Prop :=
  ∃ past, past ++ file :: todo = paths ∧ ∀ path ∈ past, server.Fetched localDir disk path

def DownloadFilesPc.Receives : DownloadFilesPc → Receiver → Prop
  | .sftpOpen file todo, receiver => server.FetchedBefore localDir paths receiver.disk file todo
  | .ofstreamOpen file todo, receiver =>
      server.FetchedBefore localDir paths receiver.disk file todo ∧
        server.opens file = true ∧ receiver.remote = some (file, 0)
  | .sftpCloseUnopened, _ => True
  | .sftpRead file todo, receiver =>
      server.FetchedBefore localDir paths receiver.disk file todo ∧ server.opens file = true ∧
        ∃ turn bytes, server.Sends file turn bytes ∧
          receiver.Copies file (localDir ++ baseName file) turn bytes
  | .ofstreamWrite block file todo, receiver =>
      server.FetchedBefore localDir paths receiver.disk file todo ∧ server.opens file = true ∧
        ∃ turn bytes, server.Sends file turn (bytes ++ block) ∧
          receiver.Copies file (localDir ++ baseName file) turn bytes
  | .sftpClose file todo, receiver | .ofstreamClose file todo, receiver =>
      server.FetchedBefore localDir paths receiver.disk file todo ∧
        server.Fetched localDir receiver.disk file

end

section

variable {server : Server} {localDir : Bytes} {paths : List Bytes} {receiver after : Receiver}
  {file : Bytes} {todo : List Bytes} {turn : Nat} {bytes : Bytes}

theorem Receiver.Copies.reads {target : Bytes} (copies : receiver.Copies file target turn bytes) :
    Receiver.Copies { receiver with remote := some (file, turn + 1) } file target (turn + 1)
      bytes :=
  ⟨rfl, copies.ofs, copies.written⟩

theorem Receiver.Copies.writes {target : Bytes} (copies : receiver.Copies file target turn bytes)
    (block : Bytes) :
    Receiver.Copies
      { receiver with disk := Function.update receiver.disk target (some (bytes ++ block)) }
      file target turn (bytes ++ block) :=
  ⟨copies.remote, copies.ofs, Function.update_self _ _ _⟩

theorem Server.FetchedBefore.update (distinct : (paths.map baseName).Nodup)
    {disk : Bytes → Option Bytes} (before : server.FetchedBefore localDir paths disk file todo)
    (content : Option Bytes) :
    server.FetchedBefore localDir paths
      (Function.update disk (localDir ++ baseName file) content) file todo := by
  obtain ⟨past, rfl, fetched⟩ := before
  refine ⟨past, rfl, fun path among => ?_⟩
  obtain ⟨opens, bytes, complete, stops, there⟩ := fetched path among
  have other : localDir ++ baseName path ≠ localDir ++ baseName file := by
    intro same
    have names : baseName path = baseName file := List.append_cancel_left same
    rw [List.map_append, List.map_cons] at distinct
    apply (List.nodup_append.mp distinct).2.2 _ (List.mem_map_of_mem among) _
      List.mem_cons_self names
  exact ⟨opens, bytes, complete, stops, by rw [Function.update_of_ne other, there]⟩

theorem loop_receives {disk : Bytes → Option Bytes} {ofs : Option Bytes}
    {remote : Option (Bytes × Nat)}
    (before : server.FetchedBefore localDir paths disk file todo)
    (fetched : server.Fetched localDir disk file) :
    (DownloadFilesPc.loop todo).Meets
      (fun pc => pc.Receives server localDir paths ⟨remote, ofs, disk⟩)
      fun result => result = true → ∀ path ∈ paths, server.Fetched localDir disk path := by
  obtain ⟨past, rfl, earlier⟩ := before
  have through : ∀ path ∈ past ++ [file], server.Fetched localDir disk path := by
    intro path among
    rcases List.mem_append.mp among with among | last
    · exact earlier path among
    · rw [List.mem_singleton.mp last]
      exact fetched
  cases todo with
  | nil => exact fun _ => through
  | cons next rest => exact ⟨past ++ [file], by rw [List.append_assoc]; rfl, through⟩

theorem download_files_contract (distinct : (paths.map baseName).Nodup) :
    Contract (downloadFiles file todo localDir) server.env
      (fun _ pc receiver => pc.Receives server localDir paths receiver)
      (fun _ result receiver => result = true →
        ∀ path ∈ paths, server.Fetched localDir receiver.disk path) := by
  intro _ pc answer receiver after receives responds
  cases pc with
  | sftpOpen file todo =>
      obtain ⟨opened, rfl⟩ := Server.respond_open.mp responds
      cases answer with
      | false => exact nofun
      | true => exact ⟨receives, opened.symm, rfl⟩
  | ofstreamOpen file todo =>
      obtain ⟨before, opens, remote⟩ := receives
      obtain ⟨created, rfl⟩ := Server.respond_ofstream_open.mp responds
      cases created
      exact ⟨before.update distinct _, opens, 0, [], .start, remote, rfl,
        Function.update_self _ _ _⟩
  | sftpCloseUnopened => exact nofun
  | sftpRead file todo =>
      obtain ⟨before, opens, turn, bytes, sends, copies⟩ := receives
      obtain ⟨reads, rfl⟩ := (Server.respond_read copies.remote).mp responds
      cases answer with
      | data chunk => exact ⟨before, opens, turn + 1, bytes, .data sends reads.symm, copies.reads⟩
      | eof => exact ⟨before, opens, bytes, true, ⟨turn, sends, reads.symm⟩, copies.written⟩
      | error => exact ⟨before, opens, bytes, false, ⟨turn, sends, reads.symm⟩, copies.written⟩
  | ofstreamWrite block file todo =>
      obtain ⟨before, opens, turn, bytes, sends, copies⟩ := receives
      obtain ⟨_, rfl⟩ := (Server.respond_write copies.ofs copies.written).mp responds
      exact ⟨before.update distinct _, opens, turn, bytes ++ block, sends, copies.writes block⟩
  | sftpClose file todo =>
      cases responds
      exact receives
  | ofstreamClose file todo =>
      obtain ⟨_, rfl⟩ := Server.respond_ofstream_close.mp responds
      exact loop_receives receives.1 receives.2

theorem download_files_reaches {first : Bytes} {more : List Bytes}
    {trace : List (Turn (downloadFiles first more localDir))}
    (stands : Stands (downloadFiles first more localDir) server.env receiver trace
      (.sftpOpen file todo) after)
    (opens : server.opens file = true) (sends : server.Sends file turn bytes) :
    ∃ trace' between, Stands (downloadFiles first more localDir) server.env receiver trace'
      (.sftpRead file todo) between ∧
        between.Copies file (localDir ++ baseName file) turn bytes := by
  induction sends with
  | start =>
      have answers : server.respond after (.sftpOpen file .read) true =
          some { after with remote := some (file, 0) } :=
        Server.respond_open.mpr ⟨opens.symm, rfl⟩
      have creates : server.respond { after with remote := some (file, 0) }
          (.ofstreamOpen (localDir ++ baseName file)) true =
          some ⟨some (file, 0), some (localDir ++ baseName file),
            Function.update after.disk (localDir ++ baseName file) (some [])⟩ := rfl
      exact ⟨⟨.ofstreamOpen file todo, true⟩ :: _, _, .turn (.turn stands answers rfl) creates rfl,
        rfl, rfl, Function.update_self _ _ _⟩
  | @data turn bytes chunk sends reads ih =>
      obtain ⟨trace', between, stands', copies⟩ := ih
      have answers : server.respond between (.sftpRead 1024) (.data chunk) =
          some { between with remote := some (file, turn + 1) } :=
        (Server.respond_read copies.remote).mpr ⟨reads.symm, rfl⟩
      have writes : server.respond { between with remote := some (file, turn + 1) }
          (.ofstreamWrite chunk.val) true =
          some ⟨some (file, turn + 1), between.ofs,
            Function.update between.disk (localDir ++ baseName file) (some (bytes ++ chunk.val))⟩ :=
        (Server.respond_write copies.reads.ofs copies.reads.written).mpr ⟨rfl, rfl⟩
      exact ⟨⟨.ofstreamWrite chunk.val file todo, true⟩ :: _, _,
        .turn (.turn stands' answers rfl) writes rfl, copies.reads.writes chunk.val⟩

def Server.Serves (server : Server) (path : Bytes) : Prop :=
  server.opens path = true ∧ ∃ bytes complete, server.Stops path bytes complete

theorem download_files_closes {first : Bytes} {more : List Bytes}
    {trace : List (Turn (downloadFiles first more localDir))}
    (stands : Stands (downloadFiles first more localDir) server.env receiver trace
      (.sftpOpen file todo) after)
    (serves : server.Serves file) :
    ∃ trace' closed, Stands (downloadFiles first more localDir) server.env receiver trace'
      (.ofstreamClose file todo) closed := by
  obtain ⟨opens, bytes, complete, ⟨turn, sends, last⟩⟩ := serves
  obtain ⟨trace', between, stands', copies⟩ := download_files_reaches stands opens sends
  have stops : ∃ trace'' stopped,
      Stands (downloadFiles first more localDir) server.env receiver trace''
        (.sftpClose file todo) stopped := by
    have answers := (Server.respond_read copies.remote).mpr ⟨last.symm, rfl⟩
    cases complete with
    | true => exact ⟨_, _, .turn stands' answers rfl⟩
    | false => exact ⟨_, _, .turn stands' answers rfl⟩
  obtain ⟨trace'', stopped, stands''⟩ := stops
  have closes : server.respond stopped .sftpClose true = some { stopped with remote := none } := rfl
  exact ⟨⟨.sftpClose file todo, true⟩ :: trace'', _, .turn stands'' closes rfl⟩

theorem download_files_returns {first : Bytes} {more : List Bytes}
    {trace : List (Turn (downloadFiles first more localDir))}
    (stands : Stands (downloadFiles first more localDir) server.env receiver trace
      (.sftpOpen file todo) after)
    (serves : ∀ path ∈ file :: todo, server.Serves path) :
    ∃ trace' receiver', Returned (downloadFiles first more localDir) server.env receiver trace' true
      receiver' := by
  induction todo generalizing file trace after with
  | nil =>
      obtain ⟨trace', closed, stands'⟩ :=
        download_files_closes stands (serves file List.mem_cons_self)
      have closes : server.respond closed .ofstreamClose true = some { closed with ofs := none } :=
        rfl
      exact ⟨⟨.ofstreamClose file [], true⟩ :: trace', _, .done stands' closes rfl⟩
  | cons next rest ih =>
      obtain ⟨trace', closed, stands'⟩ :=
        download_files_closes stands (serves file List.mem_cons_self)
      have closes : server.respond closed .ofstreamClose true = some { closed with ofs := none } :=
        rfl
      have loops : Stands (downloadFiles first more localDir) server.env receiver
          (⟨.ofstreamClose file (next :: rest), true⟩ :: trace') (.sftpOpen next rest)
          { closed with ofs := none } := .turn stands' closes rfl
      exact ih loops fun path among => serves path (List.mem_cons_of_mem file among)

end

/-- `download_files` as it is called: it returns true at once for no paths. -/
def DownloadFilesReturned (server : Server) (localDir : Bytes) (receiver : Receiver) :
    List Bytes → Bool → Receiver → Prop
  | [], result, receiver' => result = true ∧ receiver' = receiver
  | file :: todo, result, receiver' =>
      ∃ trace,
        Returned (downloadFiles file todo localDir) server.env receiver trace result receiver'

structure DownloadCall where
  receiver : Receiver
  fileContents : FileContents

/-- So called, `download_file` returns true and hands over these contents. -/
def DownloadCall.HandsOver (call : DownloadCall) (server : Server) (path : Bytes)
    (contents : FileContents) : Prop :=
  ∃ trace receiver', Returned (downloadFile path call.fileContents) server.env call.receiver trace
    (true, contents) receiver'

/-- `download_files` returns true exactly when `download_file` does for every
path, and then each file holds what `download_file` hands over. -/
structure DownloadsAgree (server : Server) (localDir : Bytes) (receiver : Receiver)
    (calls : Bytes → DownloadCall) (paths : List Bytes) : Prop where
  returned : (∃ receiver', DownloadFilesReturned server localDir receiver paths true receiver') ↔
    ∀ path ∈ paths, ∃ contents, (calls path).HandsOver server path contents
  left : ∀ receiver', DownloadFilesReturned server localDir receiver paths true receiver' →
    ∀ path ∈ paths, ∀ contents, (calls path).HandsOver server path contents →
      receiver'.disk (localDir ++ baseName path) = some contents.2

section

variable {server : Server} {localDir : Bytes} {paths : List Bytes} {receiver : Receiver}

theorem DownloadCall.hands_over_iff {call : DownloadCall} {path : Bytes} {contents : FileContents} :
    call.HandsOver server path contents ↔ server.opens path = true ∧
      ∃ bytes, server.Stops path bytes true ∧ contents = (baseName path, bytes) :=
  download_file_true_iff

theorem download_files_fetches (distinct : (paths.map baseName).Nodup) {receiver' : Receiver}
    (returned : DownloadFilesReturned server localDir receiver paths true receiver') :
    ∀ path ∈ paths, server.Fetched localDir receiver'.disk path := by
  cases paths with
  | nil =>
      intro path among
      cases among
  | cons file todo =>
      obtain ⟨trace, returned⟩ := returned
      have none : ∀ path ∈ ([] : List Bytes), server.Fetched localDir receiver.disk path := by
        intro path among
        cases among
      exact (download_files_contract distinct).returned ⟨[], rfl, none⟩ returned rfl

theorem download_files_true_iff (distinct : (paths.map baseName).Nodup) :
    (∃ receiver', DownloadFilesReturned server localDir receiver paths true receiver') ↔
      ∀ path ∈ paths, server.Serves path := by
  constructor
  · rintro ⟨receiver', returned⟩ path among
    obtain ⟨opens, bytes, complete, stops, _⟩ := download_files_fetches distinct returned path among
    exact ⟨opens, bytes, complete, stops⟩
  · intro serves
    cases paths with
    | nil => exact ⟨receiver, rfl, rfl⟩
    | cons file todo =>
        have called : Stands (downloadFiles file todo localDir) server.env receiver []
            (.sftpOpen file todo) receiver := .start
        obtain ⟨trace, receiver', returned⟩ := download_files_returns called serves
        exact ⟨receiver', trace, returned⟩

/-- The two agree exactly if no read fails, or else some path cannot be opened
or is read without end. -/
theorem downloads_agree_iff (distinct : (paths.map baseName).Nodup)
    (calls : Bytes → DownloadCall) :
    DownloadsAgree server localDir receiver calls paths ↔
      ((∀ path ∈ paths, server.Serves path) →
        ∀ path ∈ paths, ∀ bytes, ¬ server.Stops path bytes false) := by
  constructor
  · intro agree serves path among bytes fails
    have handed := agree.returned.mp ((download_files_true_iff distinct).mpr serves)
    obtain ⟨contents, hands⟩ := handed path among
    obtain ⟨_, bytes', ends, _⟩ := DownloadCall.hands_over_iff.mp hands
    cases (ends.same fails).2
  · intro unfailing
    refine ⟨?_, ?_⟩
    · rw [download_files_true_iff distinct]
      constructor
      · intro serves path among
        obtain ⟨opens, bytes, complete, stops⟩ := serves path among
        cases complete with
        | true =>
            exact ⟨_, DownloadCall.hands_over_iff.mpr ⟨opens, bytes, stops, rfl⟩⟩
        | false => exact absurd stops (unfailing serves path among bytes)
      · intro handed path among
        obtain ⟨contents, hands⟩ := handed path among
        obtain ⟨opens, bytes, ends, _⟩ := DownloadCall.hands_over_iff.mp hands
        exact ⟨opens, bytes, true, ends⟩
    · intro receiver' returned path among contents hands
      obtain ⟨_, bytes, complete, stops, there⟩ :=
        download_files_fetches distinct returned path among
      obtain ⟨_, bytes', ends, rfl⟩ := DownloadCall.hands_over_iff.mp hands
      rw [there, (stops.same ends).1]

end

def oneBlock (complete : Bool) : Server where
  opens := fun _ => true
  reads := fun _ turn count =>
    if fits : turn = 0 ∧ (ascii "te").length ≤ count then
      .data ⟨ascii "te", by decide, fits.2⟩
    else if complete then .eof else .error

theorem one_block_stops (complete : Bool) (path : Bytes) :
    (oneBlock complete).Stops path (ascii "te") complete := by
  have reads : (oneBlock complete).reads path 0 1024 =
      .data ⟨ascii "te", by decide, by decide⟩ := rfl
  exact ⟨1, .data .start reads, rfl⟩

theorem one_block_serves (complete : Bool) (path : Bytes) : (oneBlock complete).Serves path :=
  ⟨rfl, ascii "te", complete, one_block_stops complete path⟩

def emptyDisk : Receiver := ⟨none, none, fun _ => none⟩

def mainCall (_ : Bytes) : DownloadCall := ⟨emptyDisk, [], []⟩

def remoteA : Bytes := ascii "/tmp/remote1/files/a"

def remoteB : Bytes := ascii "/tmp/remote1/files/b"

/-- Two files that are read to their ends. -/
theorem downloads_agree_two_files :
    DownloadsAgree (oneBlock true) (ascii "/tmp/local/") emptyDisk mainCall [remoteA, remoteB] := by
  refine (downloads_agree_iff (by decide) mainCall).mpr fun _ path _ bytes fails => ?_
  cases ((one_block_stops true path).same fails).2

/-- The second read of the only file fails: `download_files` returns true and
leaves what came before, and `download_file` does not. -/
theorem failed_read_reported_as_success :
    (∃ receiver', DownloadFilesReturned (oneBlock false) (ascii "/tmp/local/") emptyDisk [remoteA]
      true receiver' ∧ receiver'.disk (ascii "/tmp/local/a") = some (ascii "te")) ∧
    ¬ DownloadsAgree (oneBlock false) (ascii "/tmp/local/") emptyDisk mainCall [remoteA] := by
  have distinct : ([remoteA].map baseName).Nodup := by decide
  have serves : ∀ path ∈ [remoteA], (oneBlock false).Serves path :=
    fun path _ => one_block_serves false path
  have returns : ∃ receiver', DownloadFilesReturned (oneBlock false) (ascii "/tmp/local/") emptyDisk
      [remoteA] true receiver' := (download_files_true_iff distinct).mpr serves
  constructor
  · obtain ⟨receiver', returned⟩ := returns
    obtain ⟨_, bytes, complete, stops, there⟩ :=
      download_files_fetches distinct returned remoteA List.mem_cons_self
    refine ⟨receiver', returned, ?_⟩
    rw [← ((one_block_stops false remoteA).same stops).1] at there
    exact there
  · intro agree
    obtain ⟨contents, hands⟩ := agree.returned.mp returns remoteA List.mem_cons_self
    obtain ⟨_, bytes, ends, _⟩ := DownloadCall.hands_over_iff.mp hands
    cases ((one_block_stops false remoteA).same ends).2

end FileTransfer
