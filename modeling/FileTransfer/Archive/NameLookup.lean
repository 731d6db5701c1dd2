import FileTransfer.Archive.Handle
import FileTransfer.Archive.NameMap

/-!
# Handles with their table of names

`_zip_open` enters the names of an archive in the table, `_zip_set_name` that
of an entry `zip_file_add` has made, and `_zip_name_locate` looks a name up
there. Elsewhere a handle is its list of entries, and a name is searched in
that list; here both are kept, and they agree. The changes made to the table
since an archive was opened can be undone.
-/

namespace FileTransfer

set_option autoImplicit false

/-- The call adds no name as one the file had. -/
def HashCall.Changes : HashCall → Prop
  | .add _ _ unchanged _ => unchanged = false
  | _ => True

namespace IndexMap

variable {names names' : IndexMap}

theorem reverted_of_orig {name : Bytes} {indices : Option (Int × Int)}
    (same : (indices.bind fun indices =>
      if indices.1 = -1 then none else some (indices.1, indices.1)) = names.reverted name) :
    IndexMap.reverted (Function.update names name indices) = names.reverted := by
  funext other
  by_cases here : other = name
  · rw [here, ← same, reverted, Function.update_self]
  · rw [reverted, Function.update_of_ne here]
    rfl

@[simp] theorem reverted_reverted (names : IndexMap) :
    names.reverted.reverted = names.reverted := by
  funext name
  unfold reverted
  cases names name with
  | none => rfl
  | some indices =>
      by_cases added : indices.1 = -1 <;> simp [added]

theorem Adds.succeeded {name : Bytes} {index : Nat} {unchanged : Bool} {memory : AddMemory}
    (adds : names.Adds name index unchanged memory none names') :
    names' = names.put name index unchanged := by
  cases adds
  rfl

theorem Adds.failed {name : Bytes} {index : Nat} {unchanged : Bool} {memory : AddMemory}
    {error : ZipError} (adds : names.Adds name index unchanged memory (some error) names')
    (growth : memory.growth = true) : names' = names := by
  cases adds with
  | inval | taken | noMemory => rfl
  | halfAdded small absent lacks =>
      rw [growth] at lacks
      cases lacks

theorem Allows.reverted {call : HashCall} {reply : HashReply}
    (allows : names.Allows call reply names') (changes : call.Changes) :
    names'.reverted = names.reverted := by
  cases allows with
  | @add name index unchanged memory error names' adds =>
      cases adds with
      | inval | taken | noMemory => rfl
      | added =>
          cases changes
          apply reverted_of_orig
          unfold IndexMap.reverted
          cases names name <;> simp
      | halfAdded small absent =>
          apply reverted_of_orig
          simp [IndexMap.reverted, absent]
  | delete deletes =>
      cases deletes with
      | noent => rfl
      | erased there =>
          apply reverted_of_orig
          simp [IndexMap.reverted, there]
      | hidden there kept =>
          apply reverted_of_orig
          simp [IndexMap.reverted, there]
  | lookup | reserveCapacity => rfl
  | revert => exact reverted_reverted names

theorem AllowsAll.reverted {calls : List HashCall} {replies : List HashReply}
    (allows : names.AllowsAll calls replies names') (changes : ∀ call ∈ calls, call.Changes) :
    names'.reverted = names.reverted := by
  induction allows with
  | nil => rfl
  | cons allows rest ih =>
      obtain ⟨first, later⟩ := List.forall_mem_cons.mp changes
      exact (ih later).trans (allows.reverted first)

end IndexMap

/-- Whatever is added, deleted and looked up after an archive has been opened,
and whatever allocations fail on the way, `_zip_hash_revert` makes every lookup
answer as if it had been called at once. -/
theorem revert_undoes_changes (opening : List HashCall) {changing : List HashCall}
    (changes : ∀ call ∈ changing, call.Changes) (name : Bytes) (unchanged memory memory' : Bool) :
    ((((ZipHash.new.calls opening).2.calls changing).2.revert memory).2.lookup name unchanged) =
      ((ZipHash.new.calls opening).2.revert memory').2.lookup name unchanged := by
  obtain ⟨opened, _⟩ := ZipHash.sound_new.calls opening
  obtain ⟨changed, allows⟩ := opened.calls changing
  obtain ⟨sound, names, _⟩ := changed.revert memory
  obtain ⟨sound', names', _⟩ := opened.revert memory'
  rw [sound.lookup_eq, sound'.lookup_eq, names, names', allows.reverted changes]

def twoChanges : List HashCall :=
  [.add (ascii "b.txt") 1 false ⟨true, true, true, 0⟩, .delete (ascii "a.txt") true]

def oneOpened : List HashCall :=
  [.add (ascii "a.txt") 0 true ⟨true, true, true, 0⟩]

theorem revert_undoes_two_changes :
    (((ZipHash.new.calls oneOpened).2.calls twoChanges).2.revert true).2.lookup
        (ascii "a.txt") false =
      ((ZipHash.new.calls oneOpened).2.revert true).2.lookup (ascii "a.txt") false :=
  revert_undoes_changes oneOpened (by simp [twoChanges, HashCall.Changes]) _ _ _ _

/-- `za->entry` with `za->names`. -/
structure NamedZip where
  archive : Zip
  names : ZipHash

/-- The loop at the end of `_zip_open`, with the allocations made for each
entry; `none` where it fails. A name that is there already is passed over. -/
def enterNames (memory : Nat → AddMemory) (hash : ZipHash) (index : Nat) :
    List Entry → Option ZipHash
  | [] => some hash
  | entry :: entries =>
      match hash.add entry.name index true (memory index) with
      | (none, hash) => enterNames memory hash (index + 1) entries
      | (some .erExists, hash) => enterNames memory hash (index + 1) entries
      | (some _, _) => none

namespace NamedZip

/-- `_zip_open` once it has the entries. The result of
`_zip_hash_reserve_capacity` is not looked at. -/
def opened (entries : List Entry) (capacity : Bool) (memory : Nat → AddMemory) :
    Option NamedZip :=
  (enterNames memory (ZipHash.new.reserveCapacity entries.length capacity).2 0 entries).map
    fun names => ⟨.opened entries, names⟩

/-- `_zip_name_locate`, without the flags that bypass the table. -/
def nameLocate (handle : NamedZip) (name : Bytes) (flags : NameFlags) : Int :=
  match lookupName name flags with
  | none => -1
  | some key => handle.names.lookup key false

/-- `zip_file_add` with `ZIP_FL_ENC_UTF_8`: `_zip_add_entry`, then
`_zip_set_name`. The name may belong to no other entry. -/
def fileAdd (handle : NamedZip) (name : Bytes) (source : Source) (memory : Bool)
    (table : AddMemory) : Bool × NamedZip :=
  match acceptedName name with
  | none => (false, handle)
  | some kept =>
      if memory && handle.nameLocate name .guess < 0 then
        match handle.names.add kept handle.archive.entry.length false table with
        | (none, names) => (true, ⟨⟨handle.archive.entry ++ [.added kept source none]⟩, names⟩)
        | (some _, names) => (false, { handle with names := names })
      else (false, handle)

/-- Whether `_zip_hash_add` can enter a new name, as long as the table need not
grow: there is memory for its entry and for a first table, and the index fits
in 63 bits. -/
def room (handle : NamedZip) (table : AddMemory) : Bool :=
  handle.archive.entry.length < 0x8000000000000000 &&
    ((handle.names.tableSize ≠ 0 || table.table) && table.entry)

def fileSetEncryption (handle : NamedZip) (index : Option Nat) (password : Bytes)
    (memory : Bool) : NamedZip :=
  { handle with
    archive := (handle.archive.fileSetEncryption index password memory).getD handle.archive }

/-- An index, with -1 for none. -/
def indexOf (position : Option Nat) : Int := position.elim (-1) fun position => position

/-- The table answers what a search through the entries does, and no name in it
is without an index. -/
structure Agrees (handle : NamedZip) : Prop where
  sound : handle.names.Sound
  present : ∀ key indices, handle.names.names key = some indices → indices.2 ≠ -1
  located : ∀ key, handle.names.lookup key false =
    indexOf (handle.archive.entry.findIdx? fun entry => entry.name = key)

end NamedZip

open NamedZip

theorem lookup_put {hash hash' : ZipHash} {name : Bytes} {index : Nat} {unchanged : Bool}
    (sound : hash.Sound) (sound' : hash'.Sound)
    (puts : hash'.names = hash.names.put name index unchanged) (key : Bytes) :
    hash'.lookup key false = if key = name then (index : Int) else hash.lookup key false := by
  rw [sound.lookup_eq, sound'.lookup_eq, puts, IndexMap.put]
  by_cases same : key = name
  · rw [if_pos same, same, Function.update_self]
    rfl
  · rw [if_neg same, Function.update_of_ne same]

theorem lookup_same {hash hash' : ZipHash} (sound : hash.Sound) (sound' : hash'.Sound)
    (same : hash'.names = hash.names) (key : Bytes) :
    hash'.lookup key false = hash.lookup key false := by
  rw [sound.lookup_eq, sound'.lookup_eq, same]

theorem index_of_concat (entries : List ZipEntry) (entry : ZipEntry) (key : Bytes) :
    indexOf ((entries ++ [entry]).findIdx? fun entry => entry.name = key) =
      if indexOf (entries.findIdx? fun entry => entry.name = key) = -1 ∧ key = entry.name then
        (entries.length : Int)
      else indexOf (entries.findIdx? fun entry => entry.name = key) := by
  rw [List.findIdx?_append]
  cases entries.findIdx? fun entry => entry.name = key with
  | none =>
      by_cases same : key = entry.name
      · simp [indexOf, List.findIdx?_cons, same]
      · simp [indexOf, List.findIdx?_cons, same, Ne.symm same]
  | some position =>
      have known : ¬ (indexOf (some position) = -1 ∧ key = entry.name) := by
        rintro ⟨unknown, _⟩
        change (position : Int) = -1 at unknown
        omega
      rw [if_neg known, Option.some_or]

theorem enter_name {hash : ZipHash} {entries : List ZipEntry} {entry : ZipEntry}
    {error : Option ZipError} {hash' : ZipHash} {memory : AddMemory} {index : Nat}
    (sound : hash.Sound) (sound' : hash'.Sound) (last : index = entries.length)
    (present : ∀ key indices, hash.names key = some indices → indices.2 ≠ -1)
    (located : ∀ key, hash.lookup key false =
      indexOf (entries.findIdx? fun entry => entry.name = key))
    (adds : hash.names.Adds entry.name index true memory error hash'.names)
    (enters : error = none ∨ error = some .erExists) :
    (∀ key indices, hash'.names key = some indices → indices.2 ≠ -1) ∧
      ∀ key, hash'.lookup key false =
        indexOf ((entries ++ [entry]).findIdx? fun entry => entry.name = key) := by
  have taken_iff : hash.names.Taken entry.name true ↔ hash.lookup entry.name false ≠ -1 := by
    rw [sound.lookup_eq]
    cases there : hash.names entry.name with
    | none => simp [IndexMap.Taken, there]
    | some indices =>
        have known := present entry.name indices there
        constructor
        · exact fun _ => known
        · exact fun _ => ⟨indices, there, .inr known⟩
  subst last
  generalize after : hash'.names = names' at adds
  cases adds with
  | inval | noMemory | halfAdded => simp at enters
  | taken small taken =>
      refine ⟨present, fun key => ?_⟩
      rw [lookup_same sound sound' after, index_of_concat, ← located key]
      split
      · rename_i missing
        rw [missing.2] at missing
        exact absurd missing.1 (taken_iff.mp taken)
      · rfl
  | added small free =>
      constructor
      · intro key indices there
        rw [IndexMap.put] at there
        by_cases same : key = entry.name
        · rw [same, Function.update_self, Option.some.injEq] at there
          rw [← there]
          change (entries.length : Int) ≠ -1
          omega
        · rw [Function.update_of_ne same] at there
          exact present key indices there
      · intro key
        rw [lookup_put sound sound' after, index_of_concat, ← located key]
        by_cases same : key = entry.name
        · have missing : hash.lookup key false = -1 := by
            by_contra known
            exact free (taken_iff.mpr (same ▸ known))
          rw [if_pos same, if_pos ⟨missing, same⟩]
        · rw [if_neg same, if_neg fun both => same both.2]

theorem enter_names {memory : Nat → AddMemory} {hash hash' : ZipHash} {before after : List Entry}
    (sound : hash.Sound)
    (present : ∀ key indices, hash.names key = some indices → indices.2 ≠ -1)
    (located : ∀ key, hash.lookup key false =
      indexOf ((Zip.opened before).entry.findIdx? fun entry => entry.name = key))
    (enters : enterNames memory hash before.length after = some hash') :
    hash'.Sound ∧ (∀ key indices, hash'.names key = some indices → indices.2 ≠ -1) ∧
      ∀ key, hash'.lookup key false =
        indexOf ((Zip.opened (before ++ after)).entry.findIdx? fun entry => entry.name = key) := by
  induction after generalizing before hash with
  | nil =>
      cases enters
      rw [List.append_nil]
      exact ⟨sound, present, located⟩
  | cons entry after ih =>
      have opens : (Zip.opened (before ++ [entry])).entry =
          (Zip.opened before).entry ++ [.original entry none] := by simp [Zip.opened]
      have length : (Zip.opened before).entry.length = before.length := by simp [Zip.opened]
      obtain ⟨sound', adds⟩ :=
        sound.add entry.name before.length true (memory before.length)
      have goes : enterNames memory (hash.add entry.name before.length true
          (memory before.length)).2 (before ++ [entry]).length after = some hash' ∧
          ((hash.add entry.name before.length true (memory before.length)).1 = none ∨
            (hash.add entry.name before.length true (memory before.length)).1 =
              some .erExists) := by
        rw [List.length_append, List.length_singleton]
        rw [enterNames] at enters
        split at enters
        · rename_i added
          rw [added]
          exact ⟨enters, .inl rfl⟩
        · rename_i exists'
          rw [exists']
          exact ⟨enters, .inr rfl⟩
        · cases enters
      have named : (ZipEntry.original entry none).name = entry.name := rfl
      rw [← named] at adds
      obtain ⟨present', located'⟩ := enter_name sound sound' length.symm present located adds goes.2
      rw [← opens] at located'
      have rest := ih sound' present' located' goes.1
      rwa [List.append_assoc] at rest

namespace NamedZip

variable {handle handle' : NamedZip}

theorem agrees_opened {entries : List Entry} {capacity : Bool} {memory : Nat → AddMemory}
    (opens : opened entries capacity memory = some handle) : handle.Agrees := by
  obtain ⟨names, enters, rfl⟩ := Option.map_eq_some_iff.mp opens
  obtain ⟨sound, same, _⟩ := ZipHash.sound_new.reserve_capacity entries.length capacity
  have absent : ∀ key, (ZipHash.new.reserveCapacity entries.length capacity).2.names key = none :=
    fun key => congrFun same key
  have nothing : ∀ key, (ZipHash.new.reserveCapacity entries.length capacity).2.lookup key false =
      indexOf ((Zip.opened []).entry.findIdx? fun entry => entry.name = key) := by
    intro key
    rw [sound.lookup_eq, absent key]
    rfl
  obtain ⟨sound', present, located⟩ := enter_names sound
    (fun key indices there => by rw [absent key] at there; cases there) nothing enters
  exact ⟨sound', present, located⟩

theorem Agrees.name_locate (agrees : handle.Agrees) (name : Bytes) (flags : NameFlags) :
    handle.nameLocate name flags = indexOf (handle.archive.nameLocate name flags) := by
  unfold NamedZip.nameLocate Zip.nameLocate
  cases lookupName name flags with
  | none => rfl
  | some key => exact agrees.located key

theorem index_of_neg_iff (position : Option Nat) : indexOf position < 0 ↔ position = none := by
  cases position with
  | none => exact ⟨fun _ => rfl, fun _ => by decide⟩
  | some position =>
      constructor
      · intro negative
        change (position : Int) < 0 at negative
        omega
      · intro none'
        cases none'

theorem find_modify {entries : List ZipEntry} {f : ZipEntry → ZipEntry}
    (same : ∀ entry, (f entry).name = entry.name) (position : Nat) (key : Bytes) :
    ((entries.modify position f).findIdx? fun entry => entry.name = key) =
      entries.findIdx? fun entry => entry.name = key := by
  induction entries generalizing position with
  | nil => simp
  | cons entry entries ih =>
      cases position with
      | zero => simp [List.findIdx?_cons, same]
      | succ position =>
          rw [List.modify_succ_cons, List.findIdx?_cons, List.findIdx?_cons, ih position]

theorem Agrees.file_set_encryption (agrees : handle.Agrees) (index : Option Nat)
    (password : Bytes) (memory : Bool) :
    (handle.fileSetEncryption index password memory).Agrees := by
  refine ⟨agrees.sound, agrees.present,
    fun key => (agrees.located key).trans (congrArg indexOf ?_)⟩
  unfold NamedZip.fileSetEncryption Zip.fileSetEncryption
  cases index with
  | none => rfl
  | some position =>
      simp only
      split
      · symm
        apply find_modify
        intro entry
        cases entry <;> rfl
      · rfl

theorem Agrees.absent (agrees : handle.Agrees) {key : Bytes}
    (missing : handle.names.lookup key false = -1) : handle.names.names key = none := by
  rw [agrees.sound.lookup_eq] at missing
  cases there : handle.names.names key with
  | none => rfl
  | some indices =>
      rw [there] at missing
      exact absurd missing (agrees.present key indices there)

theorem Agrees.enter (agrees : handle.Agrees) {kept : Bytes} {table : AddMemory}
    (absent : handle.names.names kept = none) (growth : table.growth = true) :
    (handle.names.add kept handle.archive.entry.length false table).1 = none ↔
      handle.room table = true := by
  unfold room
  by_cases small : handle.archive.entry.length < 0x8000000000000000
  · rw [agrees.sound.add_new absent small false growth]
    simp [small]
  · rw [ZipHash.add, if_pos (Nat.not_lt.mp small)]
    simp [small]

/-- `zip_file_add` adds and refuses as it does on the list alone, as long as the
table can be enlarged. -/
theorem Agrees.file_add (agrees : handle.Agrees) (name : Bytes) (source : Source) (memory : Bool)
    {table : AddMemory} (growth : table.growth = true) :
    (handle.fileAdd name source memory table).2.Agrees ∧
      (handle.fileAdd name source memory table).1 =
          (handle.archive.fileAdd name source (memory && handle.room table)).isSome ∧
        (handle.fileAdd name source memory table).2.archive =
          (handle.archive.fileAdd name source (memory && handle.room table)).getD
            handle.archive := by
  have located := agrees.name_locate name .guess
  unfold NamedZip.fileAdd
  cases accepted : acceptedName name with
  | none => exact ⟨agrees, by simp [Zip.fileAdd, accepted], by simp [Zip.fileAdd, accepted]⟩
  | some kept =>
      have looked : handle.nameLocate name .guess = handle.names.lookup kept false := by
        rw [NamedZip.nameLocate, lookup_accepted_name accepted]
      simp only
      split
      case isFalse refused =>
        refine ⟨agrees, ?_⟩
        cases memory with
        | false => simp [Zip.fileAdd, accepted]
        | true =>
            have there : handle.archive.nameLocate name .guess ≠ none := by
              intro missing
              rw [located, missing] at refused
              exact refused (by decide)
            simp [Zip.fileAdd, accepted, there]
      case isTrue free =>
        simp only [Bool.and_eq_true, decide_eq_true_eq] at free
        have missing : handle.archive.nameLocate name .guess = none :=
          (index_of_neg_iff _).mp (located ▸ free.2)
        have unknown : handle.names.lookup kept false = -1 := by
          rw [← looked, located, missing]
          rfl
        have enters := agrees.enter (agrees.absent unknown) growth
        obtain ⟨sound, adds⟩ :=
          agrees.sound.add kept handle.archive.entry.length false table
        split
        · rename_i names added
          rw [added] at sound adds enters
          have room : handle.room table = true := enters.mp rfl
          have put := adds.succeeded
          refine ⟨⟨sound, ?_, fun key => ?_⟩, ?_, ?_⟩
          · intro key indices there
            rw [put, IndexMap.put] at there
            by_cases same : key = kept
            · rw [same, Function.update_self, Option.some.injEq] at there
              rw [← there]
              change (handle.archive.entry.length : Int) ≠ -1
              omega
            · rw [Function.update_of_ne same] at there
              exact agrees.present key indices there
          · rw [lookup_put agrees.sound sound put, index_of_concat, ← agrees.located key]
            by_cases same : key = kept
            · rw [if_pos same, if_pos ⟨same ▸ unknown, same⟩]
            · rw [if_neg same, if_neg fun both => same both.2]
          · simp [Zip.fileAdd, accepted, missing, room, free.1]
          · simp [Zip.fileAdd, accepted, missing, room, free.1]
        · rename_i error names failed
          rw [failed] at sound adds enters
          have full : handle.room table = false := by
            cases room : handle.room table with
            | false => rfl
            | true => cases enters.mpr room
          have same := adds.failed growth
          refine ⟨⟨sound, same ▸ agrees.present, fun key => ?_⟩,
            by simp [Zip.fileAdd, accepted, full], by simp [Zip.fileAdd, accepted, full]⟩
          rw [lookup_same agrees.sound sound same]
          exact agrees.located key

/-- The handles the program can hold: one it opened, changed by additions that
found room in the table and by settings of an encryption. -/
inductive Reached : NamedZip → Prop where
  | opened {entries : List Entry} {capacity : Bool} {memory : Nat → AddMemory}
      {handle : NamedZip} (opens : opened entries capacity memory = some handle) : Reached handle
  | fileAdd {handle : NamedZip} (before : Reached handle) (name : Bytes) (source : Source)
      (memory : Bool) {table : AddMemory} (growth : table.growth = true) :
      Reached (handle.fileAdd name source memory table).2
  | fileSetEncryption {handle : NamedZip} (before : Reached handle) (index : Option Nat)
      (password : Bytes) (memory : Bool) :
      Reached (handle.fileSetEncryption index password memory)

theorem Reached.agrees (reached : handle.Reached) : handle.Agrees := by
  induction reached with
  | opened opens => exact agrees_opened opens
  | fileAdd before name source memory growth ih =>
      exact (ih.file_add name source memory growth).1
  | fileSetEncryption before index password memory ih =>
      exact ih.file_set_encryption index password memory

end NamedZip

/-- On every handle the program can hold, with names twice in the archive or
not, `zip_name_locate` answers from the table of names what a search through
the entries answers, and `zip_file_add` adds a name just when that search lets
it and there is memory. Growing the table must not have failed. -/
theorem handle_refines_list {handle : NamedZip} (reached : handle.Reached) (name : Bytes)
    (flags : NameFlags) (source : Source) (memory : Bool) {table : AddMemory}
    (growth : table.growth = true) :
    handle.nameLocate name flags = indexOf (handle.archive.nameLocate name flags) ∧
      (handle.fileAdd name source memory table).1 =
          (handle.archive.fileAdd name source (memory && handle.room table)).isSome ∧
        (handle.fileAdd name source memory table).2.archive =
          (handle.archive.fileAdd name source (memory && handle.room table)).getD
            handle.archive :=
  ⟨reached.agrees.name_locate name flags,
    (reached.agrees.file_add name source memory growth).2⟩

def enough : AddMemory := ⟨true, true, true, 0⟩

def oneName : NamedZip :=
  (NamedZip.fileAdd ⟨.opened [], .new⟩ (ascii "a.txt") (.buffer []) true enough).2

/-- The name is found and not added again; another one is added. -/
theorem one_name_refines_list :
    oneName.nameLocate (ascii "a.txt") .utf8 =
        indexOf (oneName.archive.nameLocate (ascii "a.txt") .utf8) ∧
      (oneName.fileAdd (ascii "a.txt") (.buffer []) true enough).1 = false ∧
      (oneName.fileAdd (ascii "b.txt") (.buffer []) true enough).1 = true := by
  have growth : enough.growth = true := rfl
  have reached : oneName.Reached :=
    .fileAdd (@NamedZip.Reached.opened [] true (fun _ => enough) _ rfl) _ _ _ growth
  obtain ⟨located, refused, _⟩ :=
    handle_refines_list reached (ascii "a.txt") .utf8 (.buffer []) true growth
  obtain ⟨_, added, _⟩ :=
    handle_refines_list reached (ascii "b.txt") .utf8 (.buffer []) true growth
  refine ⟨located, refused.trans ?_, added.trans ?_⟩
  · decide +kernel
  · decide +kernel

end FileTransfer
