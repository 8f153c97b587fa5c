import Mathlib.Data.List.Perm.Subperm

/-! A ledger of what was given, what was done for it, and what is left.

Nothing is done twice: what was done answers to items which together with those left are
among the items given. Items may be dropped.
-/

set_option autoImplicit false

namespace Ledger

variable {Item Deed : Type} {R : Deed → Item → Prop}

/-- Each deed was done for an item of its own, and none of these is left. -/
def Balanced (R : Deed → Item → Prop) (given : List Item) (deeds : List Deed) (left : List Item) : Prop :=
  ∃ items, List.Forall₂ R deeds items ∧ (items ++ left).Subperm given

variable {given left left' : List Item} {deeds : List Deed}

theorem Balanced.nothing : Balanced R given [] given := ⟨[], .nil, .refl given⟩

theorem Balanced.drop (balanced : Balanced R given deeds left) (fewer : left'.Subperm left) :
    Balanced R given deeds left' := by
  obtain ⟨items, answers, known⟩ := balanced
  exact ⟨items, answers, .trans ((List.subperm_append_left items).mpr fewer) known⟩

theorem Balanced.give (balanced : Balanced R given deeds left) (added : List Item) :
    Balanced R (given ++ added) deeds (left ++ added) := by
  obtain ⟨items, answers, known⟩ := balanced
  refine ⟨items, answers, ?_⟩
  rw [← List.append_assoc]
  exact (List.subperm_append_right added).mpr known

theorem Balanced.deliver {deed : Deed} {item : Item} (balanced : Balanced R given deeds (item :: left))
    (answers : R deed item) : Balanced R given (deeds ++ [deed]) left := by
  obtain ⟨items, earlier, known⟩ := balanced
  refine ⟨items ++ [item], List.rel_append earlier (.cons answers .nil), ?_⟩
  rw [List.append_assoc]
  exact known

/-- What was done, was done for some of what was given. -/
theorem Balanced.items (balanced : Balanced R given deeds left) :
    ∃ items, List.Forall₂ R deeds items ∧ items.Subperm given := by
  obtain ⟨items, answers, known⟩ := balanced
  exact ⟨items, answers, .trans (List.sublist_append_left items left).subperm known⟩

theorem origin {deeds : List Deed} {items : List Item} (answers : List.Forall₂ R deeds items) {deed : Deed}
    (member : deed ∈ deeds) : ∃ item ∈ items, R deed item := by
  induction answers with
  | nil => cases member
  | cons answers _ ih =>
    rcases List.mem_cons.mp member with rfl | later
    · exact ⟨_, List.mem_cons_self, answers⟩
    · obtain ⟨item, inside, answered⟩ := ih later
      exact ⟨item, List.mem_cons_of_mem _ inside, answered⟩

theorem Balanced.origin (balanced : Balanced R given deeds left) {deed : Deed} (member : deed ∈ deeds) :
    ∃ item ∈ given, R deed item := by
  obtain ⟨items, answers, known⟩ := balanced.items
  obtain ⟨item, inside, answered⟩ := Ledger.origin answers member
  exact ⟨item, known.subset inside, answered⟩

end Ledger
