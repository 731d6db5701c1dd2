import FileTransfer.Pipeline.World

/-!
# What the events of a run say about the listings

Which names a listing has looked up, what the server has shown, which paths
`check_for_new_files` has reported and which of them `append_to_zip` has taken.
Nothing here depends on what the server or the libraries do: it holds over
every environment.
-/

namespace FileTransfer

set_option autoImplicit false

open Interaction

/-- One call of `file_exists_in_zip`: the entry it was made for, the entries of
the archive as it was opened and the index found. -/
structure Lookup where
  attributes : Attributes
  opened : List Entry
  index : Option Nat
  deriving DecidableEq

/-- `start` is the initial `last_run`. `lookups` are those of the last listing,
newest first; `shown` is whatever `sftp_readdir` has returned. `reports` pairs
every path `check_for_new_files` has returned with the `now` of that iteration;
`stored` are the paths for which `append_to_zip` has returned true. -/
structure Listings where
  start : Option Nat
  lookups : List Lookup
  shown : List Attributes
  reports : List (Bytes × Nat)
  stored : List Bytes

namespace Listings

def recordDownload (listings : Listings) :
    (pc : DownloadPc) → (pc.call remoteHost1).Answer → Listings
  | .initialNow, time => { listings with start := some time }
  | .listing _ _ .sftpOpendir, _ => { listings with lookups := [] }
  | .listing _ _ (.sftpReaddir _), .entry attributes =>
      { listings with shown := attributes :: listings.shown }
  | .listing _ _ (.fileExists _ attributes .zipOpen), none =>
      { listings with lookups := ⟨attributes, [], none⟩ :: listings.lookups }
  | .listing _ _ (.fileExists _ attributes (.zipClose opened index)), _ =>
      { listings with lookups := ⟨attributes, opened, index⟩ :: listings.lookups }
  | .listing _ time (.sftpClosedir newFiles), _ =>
      { listings with reports := newFiles.map (·, time) ++ listings.reports }
  | .append _ file _ _ (.semPost true), _ =>
      { listings with stored := file :: listings.stored }
  | _, _ => listings

def record {env : Env Call.Answer} (listings : Listings) : PipelineEvent env → Listings
  | .left pc answer => listings.recordDownload pc answer
  | _ => listings

def reported (listings : Listings) : List Bytes := listings.reports.map (·.1)

@[simp] theorem reported_append (listings : Listings) (newFiles : List Bytes) (time : Nat) :
    reported { listings with reports := newFiles.map (·, time) ++ listings.reports } =
      newFiles ++ listings.reported := by
  simp [reported, Function.comp_def]

/-- The paths of the entries whose names the archive did not have. -/
def unfound (listings : Listings) : List Bytes :=
  (listings.lookups.filter (·.index.isNone)).reverse.map (·.attributes.fullPath)

end Listings

def listings {env : Env Call.Answer} (trace : List (PipelineEvent env)) : Listings :=
  trace.foldr (fun event listings => listings.record event) ⟨none, [], [], [], []⟩

section

variable {env : Env Call.Answer} (trace : List (PipelineEvent env))

@[simp] theorem listings_nil :
    listings ([] : List (PipelineEvent env)) = ⟨none, [], [], [], []⟩ := rfl

@[simp] theorem listings_left (pc : DownloadPc) (answer : (pc.call remoteHost1).Answer) :
    listings (.left pc answer :: trace) = (listings trace).recordDownload pc answer := rfl

@[simp] theorem listings_right (pc : UploadPc)
    (answer : (pc.call remoteHost2 remote2DestPath).Answer) :
    listings (.right pc answer :: trace) = listings trace := rfl

@[simp] theorem listings_move (move : env.Move) :
    listings (.move move :: trace) = listings trace := rfl

end

def DownloadPc.vars : DownloadPc → Option DownloadVars
  | .readRunning vars | .now vars | .listing vars _ _ | .fileSize vars _ _ _
  | .download vars _ _ _ _ | .append vars _ _ _ _ | .sleep vars => some vars
  | _ => none

def DownloadPc.lastRun (pc : DownloadPc) : Option Nat := pc.vars.map (·.lastRun)

@[simp] theorem loop_last_run (vars : DownloadVars) (done todo : List Bytes) :
    (DownloadPc.loop vars done todo).lastRun = some vars.lastRun := by
  cases todo <;> rfl

/-- The index is the one `zip_name_locate` gave, or -1. -/
def FileExistsPc.Sound (name : Bytes) : FileExistsPc → Prop
  | .zipClose opened index =>
      index = none ∨ index = (Zip.opened opened).nameLocate name .guess
  | _ => True

/-- `new_files` are the entries looked up in vain so far, and only entries newer
than `last_run` are looked up. -/
structure Listed (listings : Listings) (lastRun : Nat) (newFiles : List Bytes) : Prop where
  newFiles : newFiles = listings.unfound
  isNew : ∀ lookup ∈ listings.lookups, lookup.attributes.isNew lastRun = true

def DownloadPc.Listing (listings : Listings) : DownloadPc → Prop
  | .listing vars _ (.sftpReaddir newFiles) | .listing vars _ (.sftpAttributesFree newFiles)
  | .listing vars _ (.sftpClosedir newFiles) => Listed listings vars.lastRun newFiles
  | .listing vars _ (.fileExists newFiles attributes pc) =>
      Listed listings vars.lastRun newFiles ∧ attributes.isNew vars.lastRun = true ∧
        pc.Sound attributes.name
  | _ => True

theorem Listed.lookup {listings : Listings} {lastRun : Nat} {newFiles : List Bytes}
    (listed : Listed listings lastRun newFiles) {attributes : Attributes}
    (new : attributes.isNew lastRun = true) (opened : List Entry) (index : Option Nat) :
    Listed { listings with lookups := ⟨attributes, opened, index⟩ :: listings.lookups } lastRun
      (if index.isSome then newFiles else newFiles ++ [attributes.fullPath]) := by
  obtain ⟨rfl, isNew⟩ := listed
  refine ⟨?_, ?_⟩
  · cases index <;> simp [Listings.unfound]
  · intro lookup member
    rcases List.mem_cons.mp member with rfl | earlier
    · exact new
    · exact isNew lookup earlier

@[simp] theorem loop_listing (listings : Listings) (vars : DownloadVars)
    (done todo : List Bytes) : (DownloadPc.loop vars done todo).Listing listings := by
  cases todo <;> trivial

@[simp] theorem listed_listing (listings : Listings) (vars : DownloadVars) (time : Nat)
    (newFiles : Option (List Bytes)) :
    (DownloadPc.listed vars time newFiles).Listing listings :=
  DownloadPc.listed_elim (motive := fun pc => pc.Listing listings)
    (fun _ => trivial) (fun _ _ _ _ => trivial) vars time newFiles

theorem listing_step {listings : Listings} {pc : DownloadPc}
    (answer : (pc.call remoteHost1).Answer) (listing : pc.Listing listings) :
    (pc.next remoteHost1 answer).Meets
      (fun pc' => pc'.Listing (listings.recordDownload pc answer)) fun _ => True := by
  cases pc with
  | listing vars time pc =>
      cases pc with
      | sftpOpendir =>
          cases answer with
          | false => trivial
          | true => exact ⟨rfl, nofun⟩
      | sftpReaddir newFiles =>
          cases answer with
          | entry attributes =>
              obtain ⟨same, isNew⟩ := listing
              simp only [DownloadPc.next, ListPc.next]
              by_cases new : attributes.isNew vars.lastRun = true
              · rw [if_pos new]
                exact ⟨⟨same, isNew⟩, new, trivial⟩
              · rw [if_neg new]
                exact ⟨same, isNew⟩
          | eof | error => exact listing
      | fileExists newFiles attributes pc =>
          obtain ⟨listed, new, sound⟩ := listing
          cases pc with
          | zipOpen =>
              cases answer with
              | none => exact listed.lookup new [] none
              | some opened => exact ⟨listed, new, trivial⟩
          | zipNameLocate opened =>
              cases answer with
              | false => exact ⟨listed, new, .inl rfl⟩
              | true => exact ⟨listed, new, .inr rfl⟩
          | zipClose opened index =>
              have looked := listed.lookup new opened index
              cases index <;> exact looked
      | sftpAttributesFree newFiles => exact listing
      | errorOpendir | sftpClosedir =>
          simp only [DownloadPc.next, ListPc.next, Next.meets_goto]
          exact listed_listing _ _ _ _
  | append vars file todo done pc =>
      simp only [DownloadPc.next]
      split
      · trivial
      · exact loop_listing _ _ _ _
      · trivial
  | readRunning vars => cases answer <;> trivial
  | session pc | sftp pc | fileSize vars file todo done | download vars file todo done pc =>
      simp only [DownloadPc.next]
      split <;> trivial
  | _ => trivial

section

variable {env : Env Call.Answer} {ok : PipelineCondition env} {init : PipelineState env → Prop}

theorem listing_points (starts : ∀ state, init state → state.left = some downloadThread.start)
    {trace : List (PipelineEvent env)} {state : PipelineState env}
    (run : PipelineRun env ok init trace state) :
    ∀ pc, state.left = some pc → DownloadPc.Listing (listings trace) pc := by
  refine run.invariant
    (fun trace state => ∀ pc, state.left = some pc → DownloadPc.Listing (listings trace) pc) ?_ ?_
  · intro state initially pc stands
    rw [starts state initially] at stands
    cases stands
    trivial
  · intro trace state event state' _ before _ steps
    cases steps with
    | @left pc answer right world world' responds =>
        intro pc' stands
        exact (listing_step answer (before pc rfl)).resumes stands
    | right responds => exact before
    | move moves => exact before

end

end FileTransfer
