import Mathlib.Data.List.Basic

/-! Splitting a sequence at each occurrence of a two-element delimiter.

The split can be resumed: cutting the input anywhere and splitting the unfinished
rest together with what follows gives the same lines. A sequence is paired when
the delimiter's two elements occur in it only as the delimiter.
-/

set_option autoImplicit false

namespace DelimitedLines

variable {α : Type}

/-- The complete lines and the unfinished rest. -/
abbrev Split (α : Type) := List (List α) × List α

/-- Put an element in front of the first line, or of the rest when there is no line. -/
def prepend (c : α) : Split α → Split α
  | ([], rest) => ([], c :: rest)
  | (line :: lines, rest) => ((c :: line) :: lines, rest)

def splitPairs [DecidableEq α] (a b : α) : List α → Split α
  | [] => ([], [])
  | [c] => ([], [c])
  | c :: d :: tail =>
    if c = a ∧ d = b then ([] :: (splitPairs a b tail).1, (splitPairs a b tail).2)
    else prepend c (splitPairs a b (d :: tail))

/-- The split undone. -/
def joinPairs (a b : α) : List (List α) → List α → List α
  | [], rest => rest
  | line :: lines, rest => line ++ a :: b :: joinPairs a b lines rest

variable (a b : α)

/-- Neither element of the delimiter occurs. -/
def Clean (xs : List α) : Prop := ∀ c ∈ xs, c ≠ a ∧ c ≠ b

inductive Paired : List α → Prop where
  | nil : Paired []
  | pair {tail : List α} : Paired tail → Paired (a :: b :: tail)
  | other {c : α} {tail : List α} : c ≠ a → c ≠ b → Paired tail → Paired (c :: tail)

variable {a b}

theorem Clean.tail {c : α} {xs : List α} (clean : Clean a b (c :: xs)) : Clean a b xs :=
  fun d member => clean d (by simp [member])

instance [DecidableEq α] (xs : List α) : Decidable (Clean a b xs) := inferInstanceAs (Decidable (∀ c ∈ xs, _))

theorem clean_nil : Clean a b [] := nofun

theorem Clean.of_subset {xs ys : List α} (clean : Clean a b ys) (subset : xs ⊆ ys) : Clean a b xs :=
  fun c member => clean c (subset member)

@[simp] theorem clean_append {xs ys : List α} : Clean a b (xs ++ ys) ↔ Clean a b xs ∧ Clean a b ys :=
  List.forall_mem_append

theorem Clean.paired_append {xs tail : List α} (clean : Clean a b xs) (paired : Paired a b tail) :
    Paired a b (xs ++ tail) := by
  induction xs with
  | nil => exact paired
  | cons c xs ih =>
    have head := clean c (by simp)
    exact .other head.1 head.2 (ih clean.tail)

theorem Clean.paired {xs : List α} (clean : Clean a b xs) : Paired a b xs := by
  simpa using clean.paired_append .nil

theorem Clean.paired_append_iff {xs tail : List α} (clean : Clean a b xs) :
    Paired a b (xs ++ tail) ↔ Paired a b tail := by
  refine ⟨fun paired => ?_, clean.paired_append⟩
  induction xs with
  | nil => exact paired
  | cons c xs ih =>
    have head := clean c (by simp)
    rw [List.cons_append] at paired
    -- A clean head can only have been consed on by itself.
    generalize xs ++ tail = more at paired ih
    cases paired with
    | pair _ => exact absurd rfl head.1
    | other _ _ rest => exact ih clean.tail rest

/-- An element of the delimiter at the head of a paired sequence starts the delimiter. -/
theorem Paired.head {c : α} {xs : List α} (paired : Paired a b (c :: xs)) (hit : c = a ∨ c = b) :
    c = a ∧ ∃ tail, xs = b :: tail ∧ Paired a b tail := by
  cases paired with
  | pair rest => exact ⟨rfl, _, rfl, rest⟩
  | other notA notB _ => exact absurd hit (by simp [notA, notB])

theorem joinPairs_prepend (c : α) (split : Split α) :
    joinPairs a b (prepend c split).1 (prepend c split).2 = c :: joinPairs a b split.1 split.2 := by
  obtain ⟨lines, rest⟩ := split
  cases lines <;> rfl

variable [DecidableEq α]

theorem joinPairs_splitPairs (xs : List α) :
    joinPairs a b (splitPairs a b xs).1 (splitPairs a b xs).2 = xs := by
  induction xs using splitPairs.induct a b with
  | case1 => rfl
  | case2 c => rfl
  | case3 c d tail same ih =>
    rw [splitPairs, if_pos same]
    simp only [joinPairs, ih, same.1, same.2, List.nil_append]
  | case4 c d tail different ih => rw [splitPairs, if_neg different, joinPairs_prepend, ih]

theorem splitPairs_clean {xs : List α} (clean : Clean a b xs) : splitPairs a b xs = ([], xs) := by
  induction xs with
  | nil => rfl
  | cons c xs ih =>
    cases xs with
    | nil => rfl
    | cons d xs =>
      have head := clean c (by simp)
      simp only [splitPairs, head.1, false_and, ↓reduceIte, ih clean.tail, prepend]

theorem splitPairs_cons {c : α} (plain : c ≠ a) {xs : List α} (nonempty : xs ≠ []) :
    splitPairs a b (c :: xs) = prepend c (splitPairs a b xs) := by
  obtain ⟨d, tail, rfl⟩ := List.exists_cons_of_ne_nil nonempty
  rw [splitPairs, if_neg (fun same => plain same.1)]

theorem splitPairs_line {line : List α} (clean : Clean a b line) (tail : List α) :
    splitPairs a b (line ++ a :: b :: tail) =
      (line :: (splitPairs a b tail).1, (splitPairs a b tail).2) := by
  induction line with
  | nil => simp [splitPairs]
  | cons c line ih =>
    rw [List.cons_append, splitPairs_cons (clean c (by simp)).1 (by simp), ih clean.tail]
    rfl

/-- Lines put together are taken apart again. -/
theorem splitPairs_flatten {lines : List (List α)} (clean : ∀ line ∈ lines, Clean a b line) :
    splitPairs a b (lines.map (· ++ [a, b])).flatten = (lines, []) := by
  induction lines with
  | nil => rfl
  | cons line lines ih =>
    have rest := ih fun other member => clean other (List.mem_cons_of_mem _ member)
    calc splitPairs a b ((line ++ [a, b]) ++ (lines.map (· ++ [a, b])).flatten)
      _ = splitPairs a b (line ++ a :: b :: (lines.map (· ++ [a, b])).flatten) := by
        rw [List.append_assoc]
        rfl
      _ = (line :: lines, []) := by rw [splitPairs_line (clean line List.mem_cons_self), rest]

/-- The split resumed after the input was cut. Induction on the split of the first part; without a
complete line in it, its rest is the whole first part. -/
theorem splitPairs_append (xs ys : List α) :
    splitPairs a b (xs ++ ys) =
      ((splitPairs a b xs).1 ++ (splitPairs a b ((splitPairs a b xs).2 ++ ys)).1,
        (splitPairs a b ((splitPairs a b xs).2 ++ ys)).2) := by
  induction xs using splitPairs.induct a b with
  | case1 => rfl
  | case2 c => rfl
  | case3 c d tail same ih =>
    rw [List.cons_append, List.cons_append, splitPairs, if_pos same, ih, splitPairs, if_pos same]
    rfl
  | case4 c d tail different ih =>
    have whole := joinPairs_splitPairs (a := a) (b := b) (d :: tail)
    rw [splitPairs, if_neg different]
    generalize splitPairs a b (d :: tail) = split at ih whole ⊢
    obtain ⟨lines, rest⟩ := split
    -- Without a line the head goes to the rest, which the second part then continues.
    cases lines with
    | nil =>
      change rest = d :: tail at whole
      subst whole
      rfl
    | cons line lines =>
      rw [List.cons_append, List.cons_append, splitPairs, if_neg different, ← List.cons_append, ih]
      rfl

/-- Lines and rest without delimiter elements can only come from a paired sequence. -/
theorem paired_of_split {xs : List α} (lines : ∀ line ∈ (splitPairs a b xs).1, Clean a b line)
    (rest : Clean a b (splitPairs a b xs).2) : Paired a b xs := by
  rw [← joinPairs_splitPairs (a := a) (b := b) xs]
  generalize splitPairs a b xs = split at lines rest ⊢
  obtain ⟨found, tail⟩ := split
  induction found with
  | nil => exact rest.paired
  | cons line found ih =>
    have others := ih (fun l member => lines l (by simp [member])) rest
    exact (lines line (by simp)).paired_append (.pair others)

end DelimitedLines
