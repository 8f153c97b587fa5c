import Mathlib.Data.List.Sort

/-! Arrangements of a list that keep the order of ties.

Each item has a key, and items of one key are ties. The keys may be put into any
order; what an arrangement prints shows whether the ties were kept in theirs.
-/

set_option autoImplicit false

namespace Stability

variable {Item Key Print : Type} {key : Item → Key} {items arranged : List Item}

/-- Items that print alike when their keys agree print the same for the same keys. -/
theorem map_print_eq (print : Item → Print) {first second : List Item}
    (keys : first.map key = second.map key)
    (alike : ∀ a ∈ first, ∀ b ∈ second, key a = key b → print a = print b) :
    first.map print = second.map print := by
  induction first generalizing second with
  | nil =>
    obtain rfl : second = [] := List.map_eq_nil_iff.mp keys.symm
    rfl
  | cons a first ih =>
    cases second with
    | nil => cases keys
    | cons b second =>
      obtain ⟨head, tail⟩ := List.cons.inj keys
      rw [List.map_cons, List.map_cons, alike a List.mem_cons_self b List.mem_cons_self head,
        ih tail fun x left y right => alike x (List.mem_cons_of_mem a left) y (List.mem_cons_of_mem b right)]

variable [DecidableEq Key]

def tiesOf (key : Item → Key) (items : List Item) (tie : Key) : List Item :=
  items.filter fun item => decide (key item = tie)

/-- The same items, and those of one key in their old order. -/
structure Keeps (key : Item → Key) (items arranged : List Item) : Prop where
  perm : arranged.Perm items
  ties : ∀ tie, tiesOf key arranged tie = tiesOf key items tie

/-- The first item of a key has none of it before. -/
theorem exists_first {tie : Key} {items : List Item} (present : tie ∈ items.map key) :
    ∃ item before after, key item = tie ∧ items = before ++ item :: after ∧ tiesOf key before tie = [] := by
  induction items with
  | nil => cases present
  | cons head tail ih =>
    by_cases here : key head = tie
    · exact ⟨head, [], tail, here, rfl, rfl⟩
    · have later : tie ∈ tail.map key := by
        rcases List.mem_cons.mp present with same | later
        · exact absurd same.symm here
        · exact later
      obtain ⟨item, before, after, same, split, nothing⟩ := ih later
      refine ⟨item, head :: before, after, same, by rw [split, List.cons_append], ?_⟩
      rw [tiesOf, List.filter_cons_of_neg (by simpa using here)]
      exact nothing

/-- Any order of the keys is that of an arrangement which keeps the ties. -/
theorem exists_keeps {keys : List Key} {items : List Item} (same : keys.Perm (items.map key)) :
    ∃ arranged, arranged.map key = keys ∧ Keeps key items arranged := by
  induction keys generalizing items with
  | nil =>
    obtain rfl : items = [] := List.map_eq_nil_iff.mp same.nil_eq.symm
    exact ⟨[], rfl, List.Perm.refl _, fun _ => rfl⟩
  | cons tie keys ih =>
    obtain ⟨item, before, after, isTie, rfl, nothing⟩ := exists_first (same.mem_iff.mp List.mem_cons_self)
    have middle : ((before ++ item :: after).map key).Perm (tie :: (before ++ after).map key) := by
      rw [← isTie, ← List.map_cons]
      exact List.perm_middle.map key
    obtain ⟨arranged, keysSame, kept⟩ := ih (List.Perm.cons_inv (same.trans middle))
    refine ⟨item :: arranged, by rw [List.map_cons, keysSame, isTie], ?_, fun other => ?_⟩
    · exact (kept.perm.cons item).trans List.perm_middle.symm
    · have rest := kept.ties other
      simp only [tiesOf, List.filter_append] at rest nothing ⊢
      by_cases here : key item = other
      · -- The item taken is the first of its key.
        rw [isTie] at here
        subst here
        rw [nothing, List.nil_append] at rest ⊢
        rw [List.filter_cons_of_pos (by simpa using isTie), List.filter_cons_of_pos (by simpa using isTie), rest]
      · rw [List.filter_cons_of_neg (by simpa using here), List.filter_cons_of_neg (by simpa using here), rest]

/-- Where ties print alike, every arrangement prints what one that keeps them prints. -/
theorem exists_keeps_printing (print : Item → Print) (perm : arranged.Perm items)
    (alike : ∀ a ∈ items, ∀ b ∈ items, key a = key b → print a = print b) :
    ∃ kept, kept.map key = arranged.map key ∧ kept.map print = arranged.map print ∧ Keeps key items kept := by
  obtain ⟨kept, keys, keeps⟩ := exists_keeps (perm.map key)
  refine ⟨kept, keys, map_print_eq print keys fun a left b right => ?_, keeps⟩
  exact alike a (keeps.perm.mem_iff.mp left) b (perm.mem_iff.mp right)

/-- What holds along an arrangement that keeps the ties held between them before. -/
theorem Keeps.pairwise_ties {relation : Item → Item → Prop} (keeps : Keeps key items arranged)
    (ordered : arranged.Pairwise relation) {a b : Item} (earlier : [a, b].Sublist items) (tied : key a = key b) :
    relation a b := by
  have both : [a, b].filter (fun item => decide (key item = key b)) = [a, b] := by simp [tied]
  have sublist : [a, b].Sublist (tiesOf key items (key b)) := by
    rw [← both]
    exact earlier.filter _
  rw [← keeps.ties] at sublist
  exact List.pairwise_iff_forall_sublist.mp ordered (sublist.trans List.filter_sublist)

end Stability
