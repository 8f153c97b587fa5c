import Mathlib.Data.List.Induction
import Mathlib.Tactic.ByContra

/-! Who is inside, from the events that let in and put out.

Nothing is said about what keeps the members; a store refines this when it answers as
`Inside` does.
-/

set_option autoImplicit false

namespace Membership

variable {Event : Type} (enters leaves : Event → Prop) (initially : Prop)

/-- At the end of these events: let in at some point, or there from the start, and not put out since. -/
def Inside (history : List Event) : Prop :=
  ∃ before after, history = before ++ after ∧
    ((before = [] ∧ initially) ∨ ∃ earlier event, before = earlier ++ [event] ∧ enters event) ∧
    ∀ event ∈ after, ¬ leaves event

/-- Inside without a break ever since the first of these two lists of events: nobody is let in who is inside. -/
structure Since (before after : List Event) : Prop where
  entered : (before = [] ∧ initially) ∨
    ∃ earlier event, before = earlier ++ [event] ∧ enters event ∧ ¬ Inside enters leaves initially earlier
  stayed : ∀ event ∈ after, ¬ leaves event

variable {enters leaves initially} {history before after : List Event}

@[simp] theorem inside_nil : Inside enters leaves initially [] ↔ initially := by
  constructor
  · rintro ⟨before, after, split, ⟨-, there⟩ | ⟨earlier, event, rfl, -⟩, -⟩
    · exact there
    · simp at split
  · exact fun there => ⟨[], [], rfl, .inl ⟨rfl, there⟩, by simp⟩

/-- One event later. -/
theorem inside_append (event : Event) :
    Inside enters leaves initially (history ++ [event]) ↔
      enters event ∨ (Inside enters leaves initially history ∧ ¬ leaves event) := by
  constructor
  · rintro ⟨before, after, split, entered, stayed⟩
    rcases List.eq_nil_or_concat after with rfl | ⟨stay, last, rfl⟩
    · -- Let in by the last event, since there is one.
      rw [List.append_nil] at split
      subst split
      rcases entered with ⟨nothing, -⟩ | ⟨earlier, last, same, enter⟩
      · simp at nothing
      · obtain rfl : event = last := by simpa using (List.append_inj_right' same rfl)
        exact .inl enter
    · rw [List.concat_eq_append, ← List.append_assoc] at split
      obtain ⟨rfl, same⟩ := List.append_inj' split rfl
      obtain rfl : event = last := by simpa using same
      exact .inr ⟨⟨before, stay, rfl, entered, fun other member => stayed other (by simp [member])⟩,
        stayed event (by simp)⟩
  · rintro (enter | ⟨⟨before, after, rfl, entered, stayed⟩, stays⟩)
    · exact ⟨history ++ [event], [], by simp, .inr ⟨history, event, rfl, enter⟩, by simp⟩
    · refine ⟨before, after ++ [event], by simp, entered, fun other member => ?_⟩
      rcases List.mem_append.mp member with old | new
      · exact stayed other old
      · rw [List.mem_singleton.mp new]
        exact stays

theorem Since.inside (since : Since enters leaves initially before after) :
    Inside enters leaves initially (before ++ after) := by
  refine ⟨before, after, rfl, ?_, since.stayed⟩
  rcases since.entered with start | ⟨earlier, event, same, enter, -⟩
  · exact .inl start
  · exact .inr ⟨earlier, event, same, enter⟩

theorem since_nil (there : initially) : Since enters leaves initially [] [] := ⟨.inl ⟨rfl, there⟩, by simp⟩

/-- Somebody from outside is let in. -/
theorem since_entered {event : Event} (outside : ¬ Inside enters leaves initially history) (enter : enters event) :
    Since enters leaves initially (history ++ [event]) [] := ⟨.inr ⟨history, event, rfl, enter, outside⟩, by simp⟩

theorem Since.append {event : Event} (since : Since enters leaves initially before after) (stays : ¬ leaves event) :
    Since enters leaves initially before (after ++ [event]) := by
  refine ⟨since.entered, fun other member => ?_⟩
  rcases List.mem_append.mp member with old | new
  · exact since.stayed other old
  · rw [List.mem_singleton.mp new]
    exact stays

/-- Somebody who stays is inside all the while. -/
theorem Since.inside_earlier {later : List Event} (since : Since enters leaves initially before (after ++ later)) :
    Inside enters leaves initially (before ++ after) :=
  Since.inside ⟨since.entered, fun event member => since.stayed event (by simp [member])⟩

/-- Nobody enters who has stayed. -/
theorem Since.before_le {before' after' : List Event} (since : Since enters leaves initially before after)
    (other : Since enters leaves initially before' after') (same : before ++ after = before' ++ after') :
    before'.length ≤ before.length := by
  rcases other.entered with ⟨rfl, -⟩ | ⟨earlier, event, rfl, -, outside⟩
  · exact Nat.zero_le _
  · rw [List.append_assoc] at same
    rcases List.append_eq_append_iff.mp same with ⟨stay, rfl, rfl⟩ | ⟨cut, rfl, -⟩
    · exact absurd since.inside_earlier outside
    · cases cut with
      | nil =>
        have inside : Inside enters leaves initially (earlier ++ [] ++ []) :=
          @Since.inside_earlier _ _ _ _ _ [] after since
        simp only [List.append_nil] at inside
        exact absurd inside outside
      | cons first cut => simp

theorem Since.unique {before' after' : List Event} (since : Since enters leaves initially before after)
    (other : Since enters leaves initially before' after') (same : before ++ after = before' ++ after') :
    before = before' ∧ after = after' :=
  List.append_inj same (Nat.le_antisymm (other.before_le since same.symm) (since.before_le other same))

end Membership
