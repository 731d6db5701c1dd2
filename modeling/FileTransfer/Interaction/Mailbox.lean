import Mathlib.Data.List.Basic

/-!
# A mailbox whose parties work on copies

One party deposits items, the other collects what is there. Neither works on
the mailbox itself: the depositor writes back the copy it has made with its
items behind it, the collector empties the mailbox after it has made a copy.
Nothing is lost or handed over twice exactly if every copy is current when it
is used.
-/

namespace FileTransfer.Interaction

set_option autoImplicit false

structure Mailbox (Item : Type) where
  deposited : List Item
  collected : List Item
  pending : List Item

namespace Mailbox

variable {Item : Type}

/-- Every item deposited has been collected once or is pending, in the order of
the deposits. -/
def Exact (mailbox : Mailbox Item) : Prop :=
  mailbox.deposited = mailbox.collected ++ mailbox.pending

def deposit (mailbox : Mailbox Item) (seen items : List Item) : Mailbox Item where
  deposited := mailbox.deposited ++ items
  collected := mailbox.collected
  pending := seen ++ items

def collect (mailbox : Mailbox Item) (taken : List Item) : Mailbox Item where
  deposited := mailbox.deposited
  collected := mailbox.collected ++ taken
  pending := []

variable {mailbox : Mailbox Item}

theorem deposit_exact_iff (exact : mailbox.Exact) (seen items : List Item) :
    (mailbox.deposit seen items).Exact ↔ seen = mailbox.pending := by
  unfold Exact at exact ⊢
  simp only [deposit, exact, List.append_assoc]
  rw [List.append_cancel_left_eq, List.append_cancel_right_eq]
  exact eq_comm

theorem collect_exact_iff (exact : mailbox.Exact) (taken : List Item) :
    (mailbox.collect taken).Exact ↔ taken = mailbox.pending := by
  unfold Exact at exact ⊢
  simp only [collect, exact, List.append_nil]
  rw [List.append_cancel_left_eq]
  exact eq_comm

end Mailbox

end FileTransfer.Interaction
