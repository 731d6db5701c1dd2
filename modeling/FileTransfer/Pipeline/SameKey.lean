import FileTransfer.Functions.DownloadFile
import FileTransfer.Pipeline.Rounds
import FileTransfer.Pipeline.UploadIntegrity

/-!
# One key for the lookup and for the entry

A listed name is looked up as it stands and later stored under the base name of
`REMOTE1_COLLECT_DIR` followed by it. The two agree for names without a slash,
and libzip, which is given the name in two ways, finds what it has accepted.
-/

namespace FileTransfer

set_option autoImplicit false

open Interaction

/-- The entry `file_exists_in_zip` is running for. -/
def DownloadPc.looking : DownloadPc → Option Attributes
  | .listing _ _ pc => pc.looking
  | _ => none

def lookedUp (turns : List (Turn downloadThread)) : List Attributes :=
  turns.filterMap fun turn => DownloadPc.looking turn.pc

/-- The path of an entry that has been looked up by its name. -/
def Keyed (names : List Attributes) (path : Bytes) : Prop :=
  ∃ attributes ∈ names, attributes.fullPath = path

def Position.Keyed (names : List Attributes) : Position → Prop
  | .before | .after => True
  | .idle books => ∀ path ∈ books.fileHistory, FileTransfer.Keyed names path
  | .listing books _ newFiles _ =>
      (∀ path ∈ books.fileHistory, FileTransfer.Keyed names path) ∧
        ∀ path ∈ newFiles, FileTransfer.Keyed names path
  | .file books path todo _ =>
      (∀ known ∈ books.fileHistory, FileTransfer.Keyed names known) ∧
        ∀ ahead ∈ path :: todo, FileTransfer.Keyed names ahead

theorem Keyed.mono {names names' : List Attributes} {path : Bytes} (keyed : Keyed names path)
    (more : names ⊆ names') : Keyed names' path := by
  obtain ⟨attributes, among, whole⟩ := keyed
  exact ⟨attributes, more among, whole⟩

theorem Position.Keyed.mono {names names' : List Attributes} {position : Position}
    (keyed : position.Keyed names) (more : names ⊆ names') : position.Keyed names' := by
  cases position with
  | before | after => trivial
  | idle books => exact fun path member => (keyed path member).mono more
  | listing books time newFiles looking =>
      exact ⟨fun path member => (keyed.1 path member).mono more,
        fun path member => (keyed.2 path member).mono more⟩
  | file books file todo done =>
      exact ⟨fun path member => (keyed.1 path member).mono more,
        fun path member => (keyed.2 path member).mono more⟩

theorem Position.keyed_loop {names : List Attributes} {books : Books} {todo : List Bytes}
    (history : ∀ path ∈ books.fileHistory, FileTransfer.Keyed names path)
    (ahead : ∀ path ∈ todo, FileTransfer.Keyed names path) (done : List Bytes) :
    (Position.loop books done todo).Keyed names := by
  cases todo with
  | nil => exact fun path left => history path (mem_remove_processed.mp left).1
  | cons path todo => exact ⟨history, ahead⟩

theorem keyed_step {names : List Attributes} {pc : DownloadPc}
    {answer : (pc.call remoteHost1).Answer} {position : Position}
    (before : pc.position.Keyed names) (steps : RoundStep pc answer position) :
    position.Keyed (pc.looking.toList ++ names) := by
  have more : names ⊆ pc.looking.toList ++ names := List.subset_append_right _ _
  cases steps with
  | stays quiet => exact before.mono more
  | leaves quiet => trivial
  | enters => exact fun path member => by cases member
  | samples => exact ⟨fun path member => (before path member).mono more, fun path member => by
      cases member⟩
  | skips old => exact Position.Keyed.mono before more
  | shows new => exact Position.Keyed.mono before more
  | finds => exact Position.Keyed.mono before more
  | @misses vars time newFiles attributes pc answer next quiet =>
      refine ⟨fun path member => (before.1 path member).mono more, ?_⟩
      intro path member
      rcases List.mem_append.mp member with earlier | last
      · exact (before.2 path earlier).mono more
      · exact ⟨attributes, List.mem_cons_self, (List.mem_singleton.mp last).symm⟩
  | passes nothing looked quiet =>
      exact fun path member => (before.1 path member).mono more
  | @reports vars time newFiles answer found =>
      have known : ∀ path ∈ insertNew vars.fileHistory newFiles, Keyed names path := by
        intro path member
        exact (mem_insert_new.mp member).elim (before.1 path) (before.2 path)
      exact (Position.keyed_loop known known []).mono more
  | @appends vars file todo done =>
      exact (Position.keyed_loop before.1
        (fun path later => before.2 path (List.mem_cons_of_mem _ later)) _).mono more
  | @breaks _ _ books file todo done stands quiet =>
      rw [stands] at before
      exact (Position.keyed_loop before.1 (fun path member => by cases member) done).mono more

theorem looked_up_cons (turn : Turn downloadThread) (turns : List (Turn downloadThread)) :
    lookedUp (turn :: turns) = (DownloadPc.looking turn.pc).toList ++ lookedUp turns := by
  cases looking : DownloadPc.looking turn.pc <;> simp [lookedUp, looking]

theorem keyed_walk {turns : List (Turn downloadThread)} {pc : DownloadPc}
    (walk : Walk downloadThread downloadThread.start turns pc) :
    pc.position.Keyed (lookedUp turns) := by
  have met : ∀ turn ∈ turns, (fun _ : Turn downloadThread => True) turn := fun _ _ => trivial
  apply walk.invariant (fun turns (pc : DownloadPc) => pc.position.Keyed (lookedUp turns))
  · trivial
  · intro turns turn before _
    have steps := round_step turn.pc turn.answer
    refine steps.imp (fun pc' step => ?_) fun _ _ => trivial
    rw [looked_up_cons]
    exact keyed_step before step
  · exact met

def appendedDownload (paths : List Bytes) :
    (pc : DownloadPc) → (pc.call remoteHost1).Answer → List Bytes
  | .append _ file _ _ (.zipClose archive), .written _ =>
      if archive.buffered = [] then paths else file :: paths
  | _, _ => paths

def appendedUpload (paths : List Bytes) :
    (pc : UploadPc) → (pc.call remoteHost2 remote2DestPath).Answer → List Bytes
  | .unlink, true => []
  | _, _ => paths

/-- The paths whose files `append_to_zip` has added since the archive was last
deleted. -/
def appended (trace : List (PipelineEvent libraryEnv)) : List Bytes :=
  trace.foldr (fun event paths => match event with
    | .left pc answer => appendedDownload paths pc answer
    | .right pc answer => appendedUpload paths pc answer
    | .move _ => paths) []

def Holds (entries : List Entry) (path : Bytes) : Prop :=
  ∃ entry ∈ entries, acceptedName (baseName path) = some entry.name

/-- What was added is still there, on disk and for whoever writes next. -/
structure StillThere (paths : List Bytes) (state : PipelineState libraryEnv) : Prop where
  entries : ∀ path ∈ paths, Holds state.world.entries path
  handle : ∀ pc opened, state.left = some pc → DownloadPc.handle pc = some opened →
    ∀ path ∈ paths, Holds opened path

theorem StillThere.none (state : PipelineState libraryEnv) : StillThere [] state := by
  constructor
  · intro path member
    cases member
  · intro pc opened _ _ path member
    cases member

theorem Holds.of_stored {entries : List Entry} {path name content : Bytes}
    (accepted : acceptedName (baseName path) = some name)
    (stored : (name, content) ∈ entries.map (·.stored)) : Holds entries path := by
  obtain ⟨entry, there, same⟩ := List.mem_map.mp stored
  have name' : entry.name = name := congrArg Prod.fst same
  exact ⟨entry, there, name' ▸ accepted⟩

theorem commit_holds {vars : DownloadVars} {file : Bytes} {todo done paths : List Bytes}
    {archive : Zip} {written : ZipFile}
    (sound : (DownloadPc.append vars file todo done (.zipClose archive)).Sound)
    (named : vars.fileContents.1 = baseName file)
    (closes : archive.closes noFiles (.written written) = true)
    (held : ∀ path ∈ paths, Holds archive.originals path) :
    ∀ path ∈ appendedDownload paths (.append vars file todo done (.zipClose archive))
      (.written written), Holds written.entries path := by
  obtain ⟨addition, stored⟩ := commit_stored sound closes
  have earlier : ∀ path ∈ paths, Holds written.entries path := by
    intro path member
    obtain ⟨entry, there, accepted⟩ := held path member
    have kept : entry.stored ∈ written.stored := by
      rw [stored]
      exact List.mem_append_left _ (List.mem_map_of_mem there)
    exact .of_stored accepted kept
  intro path member
  rcases addition with nothing | ⟨kept, accepted, one⟩
  · rw [appendedDownload, if_pos nothing] at member
    exact earlier path member
  · have something : archive.buffered ≠ [] := by simp [one]
    rw [appendedDownload, if_neg something] at member
    rcases List.mem_cons.mp member with rfl | old
    · have added : (kept, vars.fileContents.2) ∈ written.stored := by
        rw [stored, one]
        exact List.mem_append_right _ List.mem_cons_self
      exact .of_stored (named ▸ accepted) added
    · exact earlier path old

theorem appended_quiet (paths : List Bytes) {pc : DownloadPc}
    {answer : (pc.call remoteHost1).Answer}
    (records : ∀ history : History, history.recordDownload pc answer = history) :
    appendedDownload paths pc answer = paths := by
  unfold appendedDownload
  split
  · have unwritten := congrArg History.lastClosed (records (.start none))
    cases unwritten
  · rfl

theorem still_there_download_step {paths : List Bytes} {reception : Reception}
    {pc : DownloadPc} {answer : (pc.call remoteHost1).Answer} {right : Option UploadPc}
    {world world' : World} (before : StillThere paths ⟨some pc, right, world⟩) (sound : pc.Sound)
    (received : pc.Received reception)
    (responds : world.respond (pc.call remoteHost1) answer = some world') :
    StillThere (appendedDownload paths pc answer)
      ⟨(pc.next remoteHost1 answer).resume, right, world'⟩ := by
  obtain ⟨entries, handle⟩ := before
  cases download_effect responds with
  | @opens vars file todo done opened found =>
      refine ⟨entries, ?_⟩
      intro pc' opened' stands holds
      cases stands
      cases holds
      rw [World.opens_entries found]
      exact entries
  | @commit vars file todo done archive written closes =>
      refine ⟨commit_holds sound received.1 closes (handle _ _ rfl rfl), ?_⟩
      intro pc' opened' stands holds
      cases stands
      cases holds
  | quiet records localZip remoteFile opens =>
      rw [appended_quiet paths records]
      have same : world'.entries = world.entries := World.entries_congr localZip
      refine ⟨fun path member => by rw [same]; exact entries path member, ?_⟩
      intro pc' opened' stands holds path member
      rcases (handle_next responds).resumes stands with nothing | fresh | kept
      · rw [nothing] at holds
        cases holds
      · rw [fresh] at holds
        cases holds
        exact entries path member
      · rw [kept] at holds
        exact handle pc opened' rfl holds path member

theorem still_there {localZip : Option ZipFile} {ok : PipelineCondition libraryEnv}
    {trace : List (PipelineEvent libraryEnv)} {state : PipelineState libraryEnv}
    (run : PipelineRun libraryEnv ok (Started localZip) trace state) :
    StillThere (appended trace) state := by
  apply run.invariant (fun trace state => StillThere (appended trace) state)
  · intro state _
    exact .none state
  · intro trace state event state' run before _ steps
    cases steps with
    | @left pc answer right world world' responds =>
        have sound : pc.Sound := run.keepsLeft download_keeps (fun _ started => started.1) pc rfl
        exact still_there_download_step before sound ((intact run).received pc rfl) responds
    | @right pc answer left world world' responds =>
        obtain ⟨entries, handle⟩ := before
        by_cases removes : pc = .unlink
        · subst removes
          cases answer with
          | true =>
              exact .none _
          | false =>
              cases responds
              exact ⟨entries, handle⟩
        · have same : world'.entries = world.entries := World.entries_congr
            ((upload_local_zip responds).resolve_right fun gone => removes gone.1)
          have kept : appendedUpload (appended trace) pc answer = appended trace := by
            unfold appendedUpload
            split
            · exact absurd rfl removes
            · rfl
          change StillThere (appendedUpload (appended trace) pc answer) _
          rw [kept]
          exact ⟨fun path member => by rw [same]; exact entries path member, handle⟩
    | @move move left right world world' moves =>
        cases move
        cases moves
        exact ⟨before.entries, before.handle⟩

/-- Neither the opening nor the search of the archive fails for want of memory
or on an I/O error. -/
def Searched {zipPath filename : Bytes} : Turn (fileExistsInZip zipPath filename) → Prop
  | ⟨.zipOpen, opened⟩ => opened.isSome
  | ⟨.zipNameLocate _, searched⟩ => searched = true
  | ⟨.zipClose _ _, _⟩ => True

theorem located_of_lookup {entries : List Entry} {name : Bytes} {entry : Entry}
    (looked : lookupName name .guess = some entry.name) (there : entry ∈ entries) :
    ((Zip.opened entries).nameLocate name .guess).isSome = true := by
  rw [Zip.nameLocate, looked, Option.bind_some, List.findIdx?_isSome, List.any_eq_true]
  exact ⟨.original entry none, List.mem_map_of_mem there, decide_eq_true rfl⟩

/-- `file_exists_in_zip` in an archive that has the entry. -/
def FileExistsPc.Finds (entries : List Entry) : FileExistsPc → Prop
  | .zipOpen => True
  | .zipNameLocate opened => opened = entries
  | .zipClose _ index => index.isSome

theorem file_exists_finds {zipPath name : Bytes} {world world' : World} {entry : Entry}
    {turns : List (Turn (fileExistsInZip zipPath name))} {result : Bool}
    (looked : lookupName name .guess = some entry.name) (there : entry ∈ world.entries)
    (returned : Returned (fileExistsInZip zipPath name) libraryEnv world turns result world')
    (searched : ∀ turn ∈ turns, Searched turn) : result = true := by
  have located := located_of_lookup looked there
  have contract : Contract (fileExistsInZip zipPath name) libraryEnv
      (fun turns pc now => now.entries = world.entries ∧
        ((∀ turn ∈ turns, Searched turn) → pc.Finds world.entries))
      (fun turns result _ => (∀ turn ∈ turns, Searched turn) → result = true) := by
    intro turns pc answer before after inv responds
    obtain ⟨same, finds⟩ := inv
    cases pc with
    | zipOpen =>
        cases answer with
        | none =>
            intro all
            cases (List.forall_mem_cons.mp all).1
        | some opened =>
            have opens : World.respond before (.zipOpen zipPath false) (some opened) = some after :=
              responds
            have now := (World.respond_quiet opens rfl).1
            have found := World.respond_zip_open zipPath responds
            exact ⟨(World.entries_congr now).trans same, fun _ => found.trans same⟩
    | zipNameLocate opened =>
        have locates : World.respond before (.zipNameLocate (.opened opened) name .guess) answer =
          some after := responds
        have now := (World.respond_quiet locates rfl).1
        cases answer with
        | false =>
            refine ⟨(World.entries_congr now).trans same, fun all => ?_⟩
            cases (List.forall_mem_cons.mp all).1
        | true =>
            refine ⟨(World.entries_congr now).trans same, fun all => ?_⟩
            have opened' : opened = world.entries := finds (List.forall_mem_cons.mp all).2
            subst opened'
            exact located
    | zipClose opened index =>
        intro all
        exact finds (List.forall_mem_cons.mp all).2
  exact contract.returned ⟨rfl, fun _ => trivial⟩ returned searched

/-- A listed name without a slash is the one its file is stored under, and
`append_to_zip` gets it as `file_exists_in_zip` got it before. No entry the
program adds has a slash in its name, and names that libzip keeps whole do not
meet in one entry. But a name that libzip takes for CP437 is never stored, and is
found under any other that is its reading. What has been added is found until
the archive is deleted. -/
theorem stored_under_listed_name {localZip : Option ZipFile} {ok : PipelineCondition libraryEnv}
    {trace : List (PipelineEvent libraryEnv)} {state : PipelineState libraryEnv}
    (run : PipelineRun libraryEnv ok (Started localZip) trace state) :
    (∀ name, slash ∉ name → baseName (remote1CollectDir ++ name) = name) ∧
    (∀ vars file todo done opened,
      state.left = some (.append vars file todo done (.zipFileAdd opened)) →
        ∃ attributes ∈ lookedUp (leftTurns trace), file = attributes.fullPath ∧
          vars.fileContents.1 = baseName file ∧
            (slash ∉ attributes.name → vars.fileContents.1 = attributes.name)) ∧
    (∀ entry ∈ state.world.entries,
      (∃ initially, localZip = some initially ∧ entry.stored ∈ initially.stored) ∨
        slash ∉ entry.name) ∧
    (∀ name name' kept, slash ∉ name → slash ∉ name' → name.length < 65536 →
      name'.length < 65536 → name ≠ name' →
        acceptedName (baseName (remote1CollectDir ++ name)) = some kept →
          acceptedName (baseName (remote1CollectDir ++ name')) ≠ some kept) ∧
    (∀ name, slash ∉ name → name.length < 65536 →
      (acceptedName (baseName (remote1CollectDir ++ name)) = none ↔
        guessEncoding name = .cp437)) ∧
    (∀ name name' kept, slash ∉ name' → name.length < 65536 → name'.length < 65536 →
      name ≠ name' → acceptedName (baseName (remote1CollectDir ++ name')) = some kept →
        (lookupName name .guess = some kept ↔
          guessEncoding name = .cp437 ∧ cp437ToUtf8 name = name')) ∧
    (∀ name, slash ∉ name → remote1CollectDir ++ name ∈ appended trace →
      ∀ turns result world',
        Returned (fileExistsInZip localZipPath name) libraryEnv state.world turns result world' →
          (∀ turn ∈ turns, Searched turn) → result = true) := by
  refine ⟨base_name_collected, ?_, ?_, ?_, ?_, ?_, ?_⟩
  · intro vars file todo done opened stands
    have walk := run.walk (fun _ started => started.1) _ stands
    obtain ⟨attributes, among, whole⟩ := (keyed_walk walk).2 file List.mem_cons_self
    have named : vars.fileContents.1 = baseName file := ((intact run).received _ stands).1
    refine ⟨attributes, among, whole.symm, named, fun flat => ?_⟩
    rw [named, ← whole]
    exact base_name_collected attributes.name flat
  · intro entry member
    rcases (intact run).entries entry member with initially | ⟨path, _, accepted⟩
    · exact .inl initially
    · exact .inr fun among =>
        slash_not_mem_base_name path (accepted_name_subset accepted among)
  · intro name name' kept flat flat' short short' different accepted accepted'
    rw [base_name_collected name flat] at accepted
    rw [base_name_collected name' flat'] at accepted'
    exact different ((accepted_name_short accepted short).symm.trans
      (accepted_name_short accepted' short'))
  · intro name flat short
    rw [base_name_collected name flat, accepted_short_name short]
    split <;> simp_all
  · intro name name' kept flat' short short' different accepted
    rw [base_name_collected name' flat'] at accepted
    obtain rfl := accepted_name_short accepted short'
    rw [lookup_short_name short]
    split <;> simp_all
  · intro name flat added turns result world' returned searched
    obtain ⟨entry, there, accepted⟩ := (still_there run).entries _ added
    rw [base_name_collected name flat] at accepted
    exact file_exists_finds (lookup_accepted_name accepted) there returned searched

def storedA : List Entry := [⟨ascii "a", ascii "text", .aes256 zipPassphrase⟩]

def storedWorld : World := ⟨1, true, some ⟨storedA, ascii "atext"⟩, none, []⟩

def lookupTurns : List (Turn (fileExistsInZip localZipPath (ascii "a"))) :=
  [⟨.zipClose storedA ((Zip.opened storedA).nameLocate (ascii "a") .guess), .discarded⟩,
    ⟨.zipNameLocate storedA, true⟩, ⟨.zipOpen, some storedA⟩]

theorem lookup_returned : ∃ result,
    Returned (fileExistsInZip localZipPath (ascii "a")) libraryEnv storedWorld lookupTurns result
      storedWorld := by
  have opens : Stands (fileExistsInZip localZipPath (ascii "a")) libraryEnv storedWorld
      [⟨.zipOpen, some storedA⟩] (.zipNameLocate storedA) storedWorld := .turn .start rfl rfl
  have locates : Stands (fileExistsInZip localZipPath (ascii "a")) libraryEnv storedWorld
      [⟨.zipNameLocate storedA, true⟩, ⟨.zipOpen, some storedA⟩]
      (.zipClose storedA ((Zip.opened storedA).nameLocate (ascii "a") .guess)) storedWorld :=
    .turn opens rfl rfl
  exact ⟨_, .done locates rfl rfl⟩

/-- One file is listed, downloaded and added, and is found. -/
theorem stored_under_listed_name_one_file :
    ∃ trace state, PipelineRun libraryEnv (anyStep _ _ _) (Started none) trace state ∧
      Returned (fileExistsInZip localZipPath (ascii "a")) libraryEnv state.world lookupTurns true
        state.world := by
  have found : ∃ trace state, PipelineRun libraryEnv (anyStep _ _ _) (Started none) trace state ∧
      decide (remote1CollectDir ++ ascii "a" ∈ appended trace ∧ state.world = storedWorld) =
        true :=
    exists_run_of_play (fun _ _ _ => true)
      (bothSetUp plainLayout ++ fetches plainLayout (ascii "a") [ascii "text"] 1 1 1 ++
        appends plainLayout)
      (startState none) _ (fun _ _ _ _ => trivial) (start_state_started none)
      (by decide +kernel)
  obtain ⟨trace, ⟨left, right, world⟩, run, outcome⟩ := found
  obtain ⟨added, stands⟩ := of_decide_eq_true outcome
  simp only at stands
  subst stands
  obtain ⟨result, returned⟩ := lookup_returned
  have searched : ∀ turn ∈ lookupTurns, Searched turn := by
    simp only [lookupTurns, List.forall_mem_cons]
    exact ⟨trivial, rfl, rfl, fun turn none => by cases none⟩
  have exists' := (stored_under_listed_name run).2.2.2.2.2.2 (ascii "a") (by decide) added
    lookupTurns result storedWorld returned searched
  exact ⟨trace, _, run, exists' ▸ returned⟩

/-- A listed name with a slash is looked up whole and stored without its first
part. -/
theorem slashed_name_stored_apart :
    ∃ trace state, PipelineRun libraryEnv (anyStep _ _ _) (Started none) trace state ∧
      (lookedUp (leftTurns trace)).map (·.name) = [ascii "a/b"] ∧
        state.world.entries.map (·.name) = [ascii "b"] := by
  have found : ∃ trace state, PipelineRun libraryEnv (anyStep _ _ _) (Started none) trace state ∧
      decide ((lookedUp (leftTurns trace)).map (·.name) = [ascii "a/b"] ∧
        state.world.entries.map (·.name) = [ascii "b"]) = true :=
    exists_run_of_play (fun _ _ _ => true)
      (bothSetUp plainLayout ++ fetches plainLayout (ascii "a/b") [ascii "text"] 1 1 1 ++
        appends plainLayout)
      (startState none) _ (fun _ _ _ _ => trivial) (start_state_started none)
      (by decide +kernel)
  obtain ⟨trace, state, run, outcome⟩ := found
  exact ⟨trace, state, run, of_decide_eq_true outcome⟩

end FileTransfer
