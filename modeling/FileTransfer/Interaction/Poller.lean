import Mathlib.Data.Set.Insert
import Mathlib.Order.Defs.LinearOrder

/-!
# Polling with a mark

Items with stamps appear and vanish. A poller reports items stamped after its
mark and moves the mark on; what is stamped no later is taken to have been
reported before. That is right just as long as nothing appears behind the mark
and the mark never passes an item that has not been reported. An item left
behind stays behind.
-/

namespace FileTransfer.Interaction

set_option autoImplicit false

structure Poller (Item Stamp : Type) where
  present : Set Item
  reported : Set Item
  mark : Stamp

namespace Poller

variable {Item Stamp : Type} [LinearOrder Stamp] {poller : Poller Item Stamp}
  {stamp : Item → Stamp} {item : Item}

/-- Whatever is present has been reported or can still be. -/
def Covered (poller : Poller Item Stamp) (stamp : Item → Stamp) : Prop :=
  ∀ item ∈ poller.present, item ∈ poller.reported ∨ poller.mark < stamp item

structure Missed (poller : Poller Item Stamp) (stamp : Item → Stamp) (item : Item) : Prop where
  unreported : item ∉ poller.reported
  behind : stamp item ≤ poller.mark

theorem covered_iff_not_missed :
    poller.Covered stamp ↔ ∀ item ∈ poller.present, ¬ poller.Missed stamp item := by
  constructor
  · rintro covered item present ⟨unreported, behind⟩
    rcases covered item present with reported | ahead
    · exact unreported reported
    · exact absurd behind (not_le_of_gt ahead)
  · intro unmissed item present
    by_cases reported : item ∈ poller.reported
    · exact .inl reported
    · exact .inr (lt_of_not_ge fun behind => unmissed item present ⟨reported, behind⟩)

def appear (poller : Poller Item Stamp) (item : Item) : Poller Item Stamp :=
  { poller with present := insert item poller.present }

def poll (poller : Poller Item Stamp) (found : Set Item) (mark : Stamp) : Poller Item Stamp :=
  { poller with reported := poller.reported ∪ found, mark := mark }

theorem Covered.subset (covered : poller.Covered stamp) {present : Set Item}
    (fewer : present ⊆ poller.present) : Covered { poller with present := present } stamp :=
  fun item member => covered item (fewer member)

theorem appear_covered_iff (covered : poller.Covered stamp) (item : Item) :
    (poller.appear item).Covered stamp ↔ item ∈ poller.reported ∨ poller.mark < stamp item := by
  constructor
  · exact fun after => after item (Set.mem_insert item _)
  · rintro known other (rfl | present)
    · exact known
    · exact covered other present

theorem poll_covered_iff (found : Set Item) (mark : Stamp) :
    (poller.poll found mark).Covered stamp ↔
      ∀ item ∈ poller.present, stamp item ≤ mark → item ∈ poller.reported ∨ item ∈ found := by
  constructor
  · intro covered item present behind
    rcases covered item present with reported | ahead
    · exact reported
    · exact absurd behind (not_le_of_gt ahead)
  · intro passed item present
    by_cases behind : stamp item ≤ mark
    · exact .inl (passed item present behind)
    · exact .inr (lt_of_not_ge behind)

theorem Missed.poll {found : Set Item} {mark : Stamp} (missed : poller.Missed stamp item)
    (ahead : item ∈ found → poller.mark < stamp item) (advances : poller.mark ≤ mark) :
    (poller.poll found mark).Missed stamp item := by
  refine ⟨?_, le_trans missed.behind advances⟩
  rintro (reported | again)
  · exact missed.unreported reported
  · exact absurd missed.behind (not_le_of_gt (ahead again))

end Poller

end FileTransfer.Interaction
