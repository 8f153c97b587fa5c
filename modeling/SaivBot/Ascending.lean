import Mathlib.Data.List.Chain
import Mathlib.Data.List.Pairwise
import Mathlib.Data.Int.Order.Basic

/-! `while (begin < end) { list.push_back(begin); begin = next(begin); }`

The loop counts upward along a numbering of the values it goes through, so it
lists exactly the values between its bounds, each once and in order.
-/

set_option autoImplicit false

namespace Ascending

variable {α : Type}

def loop (before : α → α → Bool) (next : α → α) : Nat → α → α → Option (List α)
  | 0, _, _ => none
  | fuel + 1, first, last =>
    if before first last then (loop before next fuel (next first) last).map (first :: ·) else some []

/-- The valid values are numbered, `before` compares the numbers and `next` adds one. -/
structure Numbered (before : α → α → Bool) (next : α → α) (Valid : α → Prop) (index : α → Int) : Prop where
  before_iff : ∀ a b, Valid a → Valid b → (before a b = true ↔ index a < index b)
  valid_next : ∀ a, Valid a → Valid (next a)
  index_next : ∀ a, index (next a) = index a + 1
  eq_of_index : ∀ a b, Valid a → Valid b → index a = index b → a = b

variable {before : α → α → Bool} {next : α → α} {Valid : α → Prop} {index : α → Int}

/-- Induction on the fuel; the distance of the bounds is enough. -/
theorem Numbered.loop_spec (numbered : Numbered before next Valid index) {fuel : Nat} {first last : α}
    (validFirst : Valid first) (validLast : Valid last) (enough : (index last - index first).toNat < fuel) :
    ∃ list, loop before next fuel first last = some list ∧
      (∀ a, a ∈ list ↔ Valid a ∧ index first ≤ index a ∧ index a < index last) ∧
      list.Pairwise fun a b => index a < index b := by
  induction fuel generalizing first with
  | zero => omega
  | succ fuel ih =>
    by_cases more : before first last
    · have less := (numbered.before_iff first last validFirst validLast).mp more
      have step := numbered.index_next first
      obtain ⟨list, listed, members, ordered⟩ := ih (numbered.valid_next first validFirst) (by omega)
      refine ⟨first :: list, ?_, ?_, ?_⟩
      · simp only [loop, more, ↓reduceIte, listed, Option.map_some]
      · intro a
        rw [List.mem_cons, members]
        constructor
        · rintro (rfl | ⟨valid, lower, upper⟩)
          · exact ⟨validFirst, Int.le_refl _, less⟩
          · exact ⟨valid, by omega, upper⟩
        -- A value between the bounds is the first one or lies behind it.
        · rintro ⟨valid, lower, upper⟩
          by_cases same : index a = index first
          · exact Or.inl (numbered.eq_of_index a first valid validFirst same)
          · exact Or.inr ⟨valid, by omega, upper⟩
      · refine List.pairwise_cons.mpr ⟨?_, ordered⟩
        intro a member
        have bounds := (members a).mp member
        omega
    · have stop : ¬ index first < index last := fun less =>
        more ((numbered.before_iff first last validFirst validLast).mpr less)
      refine ⟨[], by simp [loop, more], ?_, List.Pairwise.nil⟩
      intro a
      simp only [List.not_mem_nil, false_iff]
      omega

/-- From the first to the last: each value is followed by the next one. -/
theorem Numbered.loop_consecutive (numbered : Numbered before next Valid index) {fuel : Nat} {first last : α}
    {list : List α} (validFirst : Valid first) (validLast : Valid last) (less : index first < index last)
    (listed : loop before next fuel first last = some list) :
    list.IsChain (fun a b => b = next a) ∧ list.head? = some first ∧ ∃ a, list.getLast? = some a ∧ next a = last := by
  induction fuel generalizing first list with
  | zero => cases listed
  | succ fuel ih =>
    have more : before first last = true := (numbered.before_iff first last validFirst validLast).mpr less
    have validNext := numbered.valid_next first validFirst
    have step := numbered.index_next first
    rw [loop, if_pos more, Option.map_eq_some_iff] at listed
    obtain ⟨rest, listed, rfl⟩ := listed
    by_cases another : index (next first) < index last
    · obtain ⟨chain, head, a, final, ends⟩ := ih validNext another listed
      refine ⟨List.isChain_cons.mpr ⟨?_, chain⟩, rfl, a, ?_, ends⟩
      · rintro b member
        exact Option.some.inj (Eq.trans member.symm head)
      · rw [List.getLast?_cons, final, Option.getD_some]
    · -- The value that was last has nothing behind it.
      have ends : next first = last := numbered.eq_of_index _ _ validNext validLast (by omega)
      have stop : before (next first) last = false := by
        rw [← Bool.not_eq_true, numbered.before_iff _ _ validNext validLast]
        exact another
      cases fuel with
      | zero => cases listed
      | succ fuel =>
        rw [loop, stop] at listed
        cases listed
        exact ⟨.singleton first, rfl, first, rfl, ends⟩

end Ascending
