import FileTransfer.Settings
import FileTransfer.Containers.Chains
import FileTransfer.Containers.PowersOfTwo
import Mathlib.Logic.Function.Basic

/-!
# The table of names of a libzip handle

`zip_hash.c` of libzip 1.9.2: names hashed into chains, with the index an entry
had in the file and the one it has now, -1 for none. The table doubles when it
is three quarters full and halves when it is almost empty. Every allocation may
fail. Under it all lies a map from names to the two indices.
-/

namespace FileTransfer

set_option autoImplicit false

open Containers

/-- `ZIP_ER_*`, those the table sets. -/
inductive ZipError where
  | erInval
  | erMemory
  | erExists
  | erNoent
  deriving DecidableEq

def hashStart : Nat := 5381
def hashMultiplier : Nat := 33
def hashMinSize : Nat := 256
def hashMaxSize : Nat := 0x80000000

/-- `hash_string`; a name is a C string, so it holds no zero byte. -/
def hashString (name : Bytes) : Nat :=
  name.foldl (fun value byte => (value * hashMultiplier + byte.toNat) % 0x100000000) hashStart

structure HashEntry where
  name : Bytes
  origIndex : Int
  currentIndex : Int
  hashValue : Nat
  deriving DecidableEq

def HashEntry.sameName (name : Bytes) (entry : HashEntry) : Bool :=
  entry.hashValue = hashString name && entry.name = name

/-- `struct zip_hash`; the size is the number of chains. -/
structure ZipHash where
  nentries : Nat
  table : List (List HashEntry)

/-- The allocations of an addition, in their order: a first table, the entry, a
larger table. An entry is left with whatever its memory held as current index
until it is set. -/
structure AddMemory where
  table : Bool
  entry : Bool
  growth : Bool
  stale : Int

/-- The bit operations `size_for_capacity` ends with. -/
def roundUp (v : UInt32) : UInt32 :=
  let v := v - 1
  let v := v ||| v >>> 1
  let v := v ||| v >>> 2
  let v := v ||| v >>> 4
  let v := v ||| v >>> 8
  let v := v ||| v >>> 16
  v + 1

/-- `size_for_capacity`. The quotient is taken in doubles and cut off. -/
def sizeForCapacity (capacity : Nat) : Nat :=
  if hashMaxSize < min (capacity * 4 / 3) 0xffffffff then hashMaxSize
  else (roundUp (min (capacity * 4 / 3) 0xffffffff).toUInt32).toNat

/-- The loop in `_zip_hash_revert` that halves the new size. -/
def shrunkSize (nentries newSize : Nat) : Nat :=
  if nentries * 100 < newSize ∧ hashMinSize < newSize then shrunkSize nentries (newSize / 2)
  else newSize
termination_by newSize
decreasing_by
  have big := ‹_ ∧ _›.2
  unfold hashMinSize at big
  omega

namespace ZipHash

def new : ZipHash := ⟨0, []⟩

def tableSize (hash : ZipHash) : Nat := hash.table.length

def chain (hash : ZipHash) (name : Bytes) : List HashEntry :=
  (hash.table[hashString name % hash.tableSize]?).getD []

def changeChain (hash : ZipHash) (name : Bytes) (f : List HashEntry → List HashEntry) : ZipHash :=
  { hash with table := hash.table.modify (hashString name % hash.tableSize) f }

def changeEntry (hash : ZipHash) (name : Bytes) (f : HashEntry → HashEntry) : ZipHash :=
  hash.changeChain name fun chain => chain.modify (chain.findIdx (HashEntry.sameName name)) f

/-- `hash_resize`; `none` where there is no memory for the new table. -/
def resize (hash : ZipHash) (newSize : Nat) (memory : Bool) : Option ZipHash :=
  if newSize = hash.tableSize then some hash
  else if memory then
    some { hash with
      table :=
        if 0 < hash.nentries then rehash HashEntry.hashValue hash.table newSize
        else List.replicate newSize [] }
  else none

/-- The indices `_zip_hash_add` sets at its end. -/
def setIndices (hash : ZipHash) (name : Bytes) (index : Nat) (unchanged : Bool) : ZipHash :=
  hash.changeEntry name fun entry =>
    { entry with
      origIndex := if unchanged then index else entry.origIndex
      currentIndex := index }

/-- The part of `_zip_hash_add` that makes a new entry. The doubles in the
fill ratios are exact: sizes are powers of two. -/
def addEntry (hash : ZipHash) (name : Bytes) (index : Nat) (unchanged : Bool)
    (memory : AddMemory) : Option ZipError × ZipHash :=
  if memory.entry then
    let entry : HashEntry := ⟨name, -1, memory.stale, hashString name⟩
    let grown : ZipHash := { hash.changeChain name (entry :: ·) with nentries := hash.nentries + 1 }
    if grown.tableSize * 3 < grown.nentries * 4 && grown.tableSize < hashMaxSize then
      match grown.resize (grown.tableSize * 2) memory.growth with
      -- the entry stays, with its current index not set
      | none => (some .erMemory, grown)
      | some resized => (none, resized.setIndices name index unchanged)
    else (none, grown.setIndices name index unchanged)
  else (some .erMemory, hash)

/-- `_zip_hash_add`; `none` is true. -/
def add (hash : ZipHash) (name : Bytes) (index : Nat) (unchanged : Bool)
    (memory : AddMemory) : Option ZipError × ZipHash :=
  if 0x8000000000000000 ≤ index then (some .erInval, hash)
  else
    match if hash.tableSize = 0 then hash.resize hashMinSize memory.table else some hash with
    | none => (some .erMemory, hash)
    | some hash =>
        match (hash.chain name).find? (HashEntry.sameName name) with
        | none => hash.addEntry name index unchanged memory
        | some entry =>
            if (unchanged && entry.origIndex ≠ -1) || entry.currentIndex ≠ -1 then
              (some .erExists, hash)
            else (none, hash.setIndices name index unchanged)

def delete (hash : ZipHash) (name : Bytes) (memory : Bool) : Option ZipError × ZipHash :=
  if 0 < hash.nentries then
    match (hash.chain name).find? (HashEntry.sameName name) with
    | none => (some .erNoent, hash)
    | some entry =>
        if entry.origIndex = -1 then
          let shrunk : ZipHash :=
            { hash.changeChain name (·.eraseP (HashEntry.sameName name)) with
              nentries := hash.nentries - 1 }
          if shrunk.nentries * 100 < shrunk.tableSize && hashMinSize < shrunk.tableSize then
            match shrunk.resize (shrunk.tableSize / 2) memory with
            | none => (some .erMemory, shrunk)
            | some resized => (none, resized)
          else (none, shrunk)
        else (none, hash.changeEntry name fun entry => { entry with currentIndex := -1 })
  else (some .erNoent, hash)

/-- `_zip_hash_lookup`, with `ZIP_FL_UNCHANGED` or without. -/
def lookup (hash : ZipHash) (name : Bytes) (unchanged : Bool) : Int :=
  if 0 < hash.nentries then
    match (hash.chain name).find? fun entry => entry.name = name with
    | none => -1
    | some entry => if unchanged then entry.origIndex else entry.currentIndex
  else -1

def reserveCapacity (hash : ZipHash) (capacity : Nat) (memory : Bool) :
    Option ZipError × ZipHash :=
  if capacity = 0 then (none, hash)
  else if sizeForCapacity capacity ≤ hash.tableSize then (none, hash)
  else
    match hash.resize (sizeForCapacity capacity) memory with
    | none => (some .erMemory, hash)
    | some resized => (none, resized)

/-- What the loop of `_zip_hash_revert` makes of an entry. -/
def revertEntry (entry : HashEntry) : Option HashEntry :=
  if entry.origIndex = -1 then none else some { entry with currentIndex := entry.origIndex }

def revert (hash : ZipHash) (memory : Bool) : Option ZipError × ZipHash :=
  let reverted : ZipHash :=
    { nentries := hash.nentries - hash.table.flatten.countP fun entry => entry.origIndex = -1
      table := hash.table.map (·.filterMap revertEntry) }
  if reverted.nentries * 100 < reverted.tableSize && hashMinSize < reverted.tableSize then
    match reverted.resize (shrunkSize reverted.nentries (reverted.tableSize / 2)) memory with
    | none => (some .erMemory, reverted)
    | some resized => (none, resized)
  else (none, reverted)

end ZipHash

inductive HashCall where
  | add (name : Bytes) (index : Nat) (unchanged : Bool) (memory : AddMemory)
  | delete (name : Bytes) (memory : Bool)
  | lookup (name : Bytes) (unchanged : Bool)
  | reserveCapacity (capacity : Nat) (memory : Bool)
  | revert (memory : Bool)

/-- What a call returns: an error, `none` where there is none, or an index. -/
inductive HashReply where
  | status (error : Option ZipError)
  | index (index : Int)
  deriving DecidableEq

def ZipHash.call (hash : ZipHash) : HashCall → HashReply × ZipHash
  | .add name index unchanged memory =>
      let (error, hash) := hash.add name index unchanged memory
      (.status error, hash)
  | .delete name memory =>
      let (error, hash) := hash.delete name memory
      (.status error, hash)
  | .lookup name unchanged => (.index (hash.lookup name unchanged), hash)
  | .reserveCapacity capacity memory =>
      let (error, hash) := hash.reserveCapacity capacity memory
      (.status error, hash)
  | .revert memory =>
      let (error, hash) := hash.revert memory
      (.status error, hash)

/-- The replies to a list of calls, and the table they lead to. -/
def ZipHash.calls (hash : ZipHash) : List HashCall → List HashReply × ZipHash
  | [] => ([], hash)
  | call :: calls =>
      let (reply, hash) := hash.call call
      let (replies, hash) := hash.calls calls
      (reply :: replies, hash)

end FileTransfer
