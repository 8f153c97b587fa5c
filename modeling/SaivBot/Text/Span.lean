import SaivBot.Text.View

/-! Views one behind the other. -/

set_option autoImplicit false

namespace StringView.View

/-- Between the two positions, each view behind the one before it. -/
def Spans : Nat → List View → Nat → Prop
  | first, [], last => first ≤ last
  | first, view :: views, last => first ≤ view.start ∧ Spans view.stop views last

/-- The views that show something stand one behind the other. -/
def Apart (views : List View) : Prop :=
  (views.filter fun view => decide (view.size ≠ 0)).Pairwise fun a b => a.stop ≤ b.start

instance (views : List View) : Decidable (Apart views) := inferInstanceAs (Decidable (List.Pairwise _ _))

variable {first middle last : Nat} {views others : List View}

theorem start_le_stop (view : View) : view.start ≤ view.stop := Nat.le_add_right _ _

theorem Spans.lower (spans : Spans middle views last) (less : first ≤ middle) : Spans first views last := by
  cases views with
  | nil => exact Nat.le_trans less spans
  | cons view views => exact ⟨Nat.le_trans less spans.1, spans.2⟩

theorem Spans.append (spans : Spans first views middle) (behind : Spans middle others last) :
    Spans first (views ++ others) last := by
  induction views generalizing first with
  | nil => exact behind.lower spans
  | cons view views ih => exact ⟨spans.1, ih spans.2⟩

theorem Spans.le (spans : Spans first views last) : first ≤ last := by
  induction views generalizing first with
  | nil => exact spans
  | cons view views ih => exact Nat.le_trans spans.1 (Nat.le_trans view.start_le_stop (ih spans.2))

theorem Spans.of_mem (spans : Spans first views last) {view : View} (member : view ∈ views) :
    first ≤ view.start ∧ view.stop ≤ last := by
  induction views generalizing first with
  | nil => cases member
  | cons head views ih =>
    rcases List.mem_cons.mp member with rfl | member
    · exact ⟨spans.1, spans.2.le⟩
    · have behind := ih spans.2 member
      exact ⟨Nat.le_trans spans.1 (Nat.le_trans head.start_le_stop behind.1), behind.2⟩

theorem Spans.pairwise (spans : Spans first views last) : views.Pairwise fun a b => a.stop ≤ b.start := by
  induction views generalizing first with
  | nil => exact .nil
  | cons view views ih => exact .cons (fun other member => (spans.2.of_mem member).1) (ih spans.2)

theorem Spans.apart (spans : Spans first views last) : Apart views := spans.pairwise.filter _

theorem Apart.of_append (apart : Apart (views ++ others)) : Apart views ∧ Apart others := by
  rw [Apart, List.filter_append, List.pairwise_append] at apart
  exact ⟨apart.1, apart.2.1⟩

/-- Two views that show a common element are not apart. -/
theorem not_apart {a b : View} (listed : [a, b].Sublist views) (nonzero : a.size ≠ 0) (other : b.size ≠ 0)
    (reach : b.start < a.stop) : ¬ Apart views := by
  intro apart
  have kept : [a, b].Sublist (views.filter fun view => decide (view.size ≠ 0)) := by
    simpa [nonzero, other] using listed.filter fun view => decide (view.size ≠ 0)
  have ordered := List.rel_of_pairwise_cons (apart.sublist kept) (List.mem_singleton_self b)
  omega

end StringView.View
