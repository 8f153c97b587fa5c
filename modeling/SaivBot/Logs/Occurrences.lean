import Mathlib.Data.Nat.Count
import Mathlib.Data.Set.Card
import SaivBot.Logs.Matching

/-! How many occurrences of a search target the counting loop finds.

Behind each occurrence the search goes on one character on, so occurrences may
overlap, and an empty target occurs in front of every character.
-/

set_option autoImplicit false

namespace SaivBot

section

variable {α : Type} (predicate : α → α → Bool)

/-- The target matches the text character by character from this position on. -/
def MatchesAt (target str : List α) (pos : Nat) : Prop :=
  ∀ i (inside : i < target.length), ∃ c ∈ str[pos + i]?, predicate c target[i] = true

instance (target str : List α) (pos : Nat) : Decidable (MatchesAt predicate target str pos) :=
  inferInstanceAs (Decidable (∀ i (_ : i < target.length), _))

variable {predicate} {target str : List α} {c : α}

@[simp] theorem matchesAt_nil (pos : Nat) : MatchesAt predicate [] str pos := nofun

@[simp] theorem matchesAt_succ (pos : Nat) :
    MatchesAt predicate target (c :: str) (pos + 1) ↔ MatchesAt predicate target str pos := by
  unfold MatchesAt
  simp only [Nat.add_right_comm pos 1, List.getElem?_cons_succ]

/-- A text matches from its start when it starts with the target. -/
theorem startsWith_iff : startsWith predicate target str = true ↔ MatchesAt predicate target str 0 := by
  induction target generalizing str with
  | nil => simp [startsWith]
  | cons t target ih =>
    cases str with
    | nil =>
      have nowhere : ¬ MatchesAt predicate (t :: target) [] 0 := fun found => by
        obtain ⟨_, ⟨⟩, _⟩ := found 0 (Nat.succ_pos _)
      simp [startsWith, nowhere]
    | cons c str =>
      simp only [startsWith, Bool.and_eq_true, ih, MatchesAt, Nat.zero_add]
      constructor
      · rintro ⟨first, rest⟩ i inside
        cases i with
        | zero => exact ⟨c, rfl, first⟩
        | succ i => exact rest i (Nat.lt_of_succ_lt_succ inside)
      · intro each
        refine ⟨?_, fun i inside => each (i + 1) (Nat.succ_lt_succ inside)⟩
        obtain ⟨_, ⟨⟩, first⟩ := each 0 (Nat.succ_pos _)
        exact first

/-- A target with a character matches in front of the end only. -/
theorem MatchesAt.lt_length {pos : Nat} (found : MatchesAt predicate target str pos) (nonempty : target ≠ []) :
    pos < str.length := by
  obtain ⟨c, here, -⟩ := found 0 (List.length_pos_of_ne_nil nonempty)
  exact (List.getElem?_eq_some_iff.mp here).1

/-- The positions in front of the end at which the target matches. -/
def positions (predicate : α → α → Bool) (target str : List α) : Nat :=
  Nat.count (MatchesAt predicate target str) str.length

theorem positions_cons : positions predicate target (c :: str) =
    positions predicate target str + if startsWith predicate target (c :: str) then 1 else 0 := by
  simp only [positions, List.length_cons, Nat.count_succ', matchesAt_succ, startsWith_iff]

theorem positions_empty : positions predicate [] str = str.length := by
  rw [positions, Nat.count_iff_forall]
  exact fun pos _ => matchesAt_nil pos

theorem positions_eq_ncard (nonempty : target ≠ []) :
    positions predicate target str = {pos | MatchesAt predicate target str pos}.ncard := by
  rw [positions, Nat.count_eq_card_filter_range, ← Set.ncard_coe_finset]
  congr 1
  ext pos
  simp only [Finset.coe_filter, Finset.mem_range, Set.mem_ofPred_eq]
  exact ⟨And.right, fun found => ⟨found.lt_length nonempty, found⟩⟩

/-! The loop, one character after the other. -/

/-- The character in front of the first occurrence makes no difference. -/
theorem countTargetOccurrences_skip (fuel : Nat) (missing : ¬ startsWith predicate target (c :: str) = true) :
    countTargetOccurrences (search predicate target) (fuel + 1) (c :: str) =
      countTargetOccurrences (search predicate target) (fuel + 1) str := by
  have later : search predicate target (c :: str) = search predicate target str + 1 := if_neg missing
  simp only [countTargetOccurrences, later, List.length_cons, Nat.add_right_cancel_iff, List.drop_succ_cons]

theorem countTargetOccurrences_hit (fuel : Nat) (found : startsWith predicate target (c :: str) = true) :
    countTargetOccurrences (search predicate target) (fuel + 1) (c :: str) =
      (countTargetOccurrences (search predicate target) fuel str).map (· + 1) := by
  have here : search predicate target (c :: str) = 0 := if_pos found
  have more : ¬ 0 = str.length + 1 := Nat.ne_of_lt (Nat.succ_pos _)
  simp only [countTargetOccurrences, here, List.length_cons, more, ↓reduceIte, Nat.zero_add, List.drop_succ_cons,
    List.drop_zero]
  cases countTargetOccurrences (search predicate target) fuel str <;> rfl

/-- Induction on the text: each character is passed once, by the search or by the loop. -/
theorem countTargetOccurrences_eq {fuel : Nat} (enough : str.length < fuel) :
    countTargetOccurrences (search predicate target) fuel str = .ok (positions predicate target str) := by
  obtain ⟨fuel, rfl⟩ := Nat.exists_eq_succ_of_ne_zero (Nat.ne_of_gt (Nat.zero_lt_of_lt enough))
  induction str generalizing fuel with
  | nil =>
    simp only [countTargetOccurrences, search, List.length_nil, ↓reduceIte]
    rfl
  | cons c str ih =>
    rw [List.length_cons] at enough
    rw [positions_cons]
    by_cases found : startsWith predicate target (c :: str) = true
    · obtain ⟨fuel, rfl⟩ := Nat.exists_eq_succ_of_ne_zero (n := fuel) (by omega)
      rw [countTargetOccurrences_hit _ found, ih fuel (by omega), if_pos found]
      rfl
    · rw [countTargetOccurrences_skip _ found, ih fuel (by omega), if_neg found]
      rfl

/-! The caseless predicate compares lower-cased characters. -/

theorem startsWith_map {β : Type} (equal : β → β → Bool) (f : α → β) :
    startsWith (fun l r => equal (f l) (f r)) target str = startsWith equal (target.map f) (str.map f) := by
  induction target generalizing str with
  | nil => rfl
  | cons t target ih =>
    cases str with
    | nil => rfl
    | cons c str => simp only [startsWith, List.map_cons, ih]

theorem search_map {β : Type} (equal : β → β → Bool) (f : α → β) :
    search (fun l r => equal (f l) (f r)) target str = search equal (target.map f) (str.map f) := by
  induction str with
  | nil => rfl
  | cons c str ih => simp only [search, startsWith_map, ih, List.map_cons]

/-- Two searchers that find the same are counted the same. -/
theorem countTargetOccurrences_map {β : Type} {searcher : List α → Nat} {mapped : List β → Nat} {f : α → β}
    (same : ∀ str, searcher str = mapped (str.map f)) (fuel : Nat) :
    countTargetOccurrences searcher fuel str = countTargetOccurrences mapped fuel (str.map f) := by
  induction fuel generalizing str with
  | zero => rfl
  | succ fuel ih => simp only [countTargetOccurrences, same, ih, List.length_map, List.map_drop]

end

/-- The loop ends and counts the positions at which the target matches, all of them for an empty target.
Without regard to case it counts what it counts in lower case. -/
theorem countTargetOccurrences_literal :
    (∀ (α : Type) (predicate : α → α → Bool) (target str : List α) (more : Nat),
      countTargetOccurrences (search predicate target) (str.length + 1 + more) str =
        .ok (if target.isEmpty then str.length else {pos | MatchesAt predicate target str pos}.ncard)) ∧
    ∀ (searchStr str : Bytes) (regex : Bool) (fuel : Nat),
      countTargetOccurrences (SearchTarget.searcher ⟨searchStr, true, regex⟩) fuel str =
        countTargetOccurrences (SearchTarget.searcher ⟨toLowerCaseString searchStr, false, regex⟩) fuel
          (toLowerCaseString str) := by
  constructor
  · intro α predicate target str more
    rw [countTargetOccurrences_eq (by omega)]
    cases target with
    | nil => rw [positions_empty]; rfl
    | cons t target => rw [positions_eq_ncard (List.cons_ne_nil _ _)]; rfl
  · intro searchStr str regex fuel
    apply countTargetOccurrences_map
    intro str
    exact search_map (fun l r => l == r) tolower

end SaivBot
