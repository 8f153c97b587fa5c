import Mathlib.Algebra.BigOperators.Group.List.Basic
import Mathlib.Algebra.Order.Group.Multiset
import Mathlib.Algebra.GroupWithZero.Nat
import Mathlib.Data.List.Nodup
import Mathlib.Data.List.Count
import Mathlib.Data.List.Perm.Basic
import Mathlib.Data.List.ProdSigma

/-! Sums over a list, taken group by group.

Each item has a key and each group takes the items of one key. Without repeated
keys no item is counted twice, so the groups together are one selection. With them,
each group counts as often as its key is repeated.
-/

set_option autoImplicit false

namespace Grouping

variable {Item Key Value : Type} [AddCommMonoid Value]

/-- The sum of `value` over the selected items. -/
def total (value : Item → Value) (items : List Item) (selected : Item → Bool) : Value :=
  ((items.filter selected).map value).sum

variable (value : Item → Value) (items : List Item)

theorem total_cons (item : Item) (selected : Item → Bool) :
    total value (item :: items) selected =
      (if selected item then value item else 0) + total value items selected := by
  unfold total
  cases chosen : selected item with
  | true => simp [List.filter_cons_of_pos chosen]
  | false => simp [chosen]

theorem total_congr {first second : Item → Bool}
    (same : ∀ item ∈ items, first item = true ↔ second item = true) :
    total value items first = total value items second := by
  unfold total
  rw [List.filter_congr fun item member => Bool.eq_iff_iff.mpr (same item member)]

theorem total_none {selected : Item → Bool} (misses : ∀ item ∈ items, selected item = false) :
    total value items selected = 0 := by
  unfold total
  rw [List.filter_eq_nil_iff.mpr fun item member => by simp [misses item member]]
  rfl

/-- Two selections with nothing in common add up. -/
theorem total_or {first second : Item → Bool}
    (disjoint : ∀ item ∈ items, first item = true → second item = false) :
    total value items (fun item => first item || second item) =
      total value items first + total value items second := by
  induction items with
  | nil => simp [total]
  | cons item items ih =>
    have rest := ih fun other member => disjoint other (List.mem_cons_of_mem item member)
    have here := disjoint item List.mem_cons_self
    rw [total_cons, total_cons, total_cons, rest]
    cases chosen : first item with
    | true => simp [here chosen, add_assoc]
    | false => simp [add_left_comm]

/-- A guard inside the value is a condition of the selection. -/
theorem total_guarded (guard selected : Item → Bool) :
    total (fun item => if guard item then value item else 0) items selected =
      total value items fun item => guard item && selected item := by
  induction items with
  | nil => rfl
  | cons item items ih =>
    rw [total_cons, total_cons, ih]
    cases guarded : guard item with
    | true => simp
    | false => simp

/-- A list of groups built in two nested loops. -/
theorem sum_flatMap {Outer Group : Type} (outer : List Outer) (groups : Outer → List Group)
    (sumOf : Group → Value) :
    ((outer.flatMap groups).map sumOf).sum = (outer.map fun o => ((groups o).map sumOf).sum).sum := by
  induction outer with
  | nil => rfl
  | cons o outer ih => rw [List.flatMap_cons, List.map_append, List.sum_append, ih, List.map_cons, List.sum_cons]

theorem coe_flatMap (keys : List Key) (groups : Key → List Item) :
    ((keys.flatMap groups : List Item) : Multiset Item) = (keys.map fun key => (groups key : Multiset Item)).sum := by
  induction keys with
  | nil => rfl
  | cons key keys ih => rw [List.flatMap_cons, ← Multiset.coe_add, ih, List.map_cons, List.sum_cons]

/-! Keys that repeat. -/

section

variable [BEq Key] [LawfulBEq Key]

/-- A sum depends on how often each key that adds something is listed. -/
theorem sum_eq_of_count {first second : List Key} {value : Key → Value}
    (same : ∀ key, value key ≠ 0 → first.count key = second.count key) :
    (first.map value).sum = (second.map value).sum := by
  classical
  have dropped (keys : List Key) :
      (keys.map value).sum = ((keys.filter fun key => decide (value key ≠ 0)).map value).sum := by
    induction keys with
    | nil => rfl
    | cons key keys ih =>
      by_cases zero : value key = 0
      · rw [List.map_cons, List.sum_cons, ih, zero, zero_add, List.filter_cons_of_neg (by simpa using zero)]
      · rw [List.filter_cons_of_pos (by simpa using zero), List.map_cons, List.map_cons, List.sum_cons,
          List.sum_cons, ih]
  have perm : (first.filter fun key => decide (value key ≠ 0)).Perm
      (second.filter fun key => decide (value key ≠ 0)) := by
    refine List.perm_iff_count.mpr fun key => ?_
    by_cases adds : value key ≠ 0
    · rw [List.count_filter (by simpa using adds), List.count_filter (by simpa using adds), same key adds]
    · have absent (keys : List Key) : (keys.filter fun key => decide (value key ≠ 0)).count key = 0 :=
        List.count_eq_zero.mpr fun member => adds (of_decide_eq_true (List.mem_filter.mp member).2)
      rw [absent, absent]
  rw [dropped first, dropped second, (perm.map value).sum_eq]

/-- An item that only one key has is there once for each time the key is listed. -/
theorem count_sum_keys [DecidableEq Item] {keys : List Key} {found : Key → Multiset Item} {key : Key} {item : Item}
    (nowhere : ∀ other ∈ keys, item ∈ found other → other = key) :
    (keys.map found).sum.count item = keys.count key * (found key).count item := by
  induction keys with
  | nil => simp
  | cons other keys ih =>
    have rest := ih fun k member => nowhere k (List.mem_cons_of_mem other member)
    rw [List.map_cons, List.sum_cons, Multiset.count_add, rest]
    by_cases same : other = key
    · rw [same, List.count_cons_self, Nat.succ_mul, Nat.add_comm]
    · have absent : (found other).count item = 0 :=
        Multiset.count_eq_zero.mpr fun member => same (nowhere other List.mem_cons_self member)
      rw [absent, List.count_cons_of_ne same, Nat.zero_add]

theorem count_eq_of_sum_eq [DecidableEq Item] {first second : List Key} {found : Key → Multiset Item} {key : Key}
    {item : Item} (here : item ∈ found key) (inFirst : ∀ other ∈ first, item ∈ found other → other = key)
    (inSecond : ∀ other ∈ second, item ∈ found other → other = key)
    (same : (first.map found).sum = (second.map found).sum) : first.count key = second.count key := by
  have counts := congrArg (Multiset.count item) same
  rw [count_sum_keys inFirst, count_sum_keys inSecond] at counts
  exact Nat.eq_of_mul_eq_mul_right (Multiset.count_pos.mpr here) counts

/-- A pair is listed once for each way to list its parts. -/
theorem count_product {Other : Type} [BEq Other] [LawfulBEq Other] (keys : List Key) (others : List Other) (key : Key)
    (other : Other) : (keys ×ˢ others).count (key, other) = keys.count key * others.count other := by
  induction keys with
  | nil => simp
  | cons first keys ih =>
    rw [List.product_cons, List.count_append, ih]
    by_cases same : first = key
    · subst same
      rw [List.count_map_of_injective others (Prod.mk first) (Prod.mk_right_injective first), List.count_cons_self,
        Nat.succ_mul, Nat.add_comm]
    · have absent : (others.map (Prod.mk first)).count (key, other) = 0 := by
        refine List.count_eq_zero.mpr fun member => same ?_
        obtain ⟨_, -, pair⟩ := List.mem_map.mp member
        exact congrArg Prod.fst pair
      rw [absent, List.count_cons_of_ne same, Nat.zero_add]

end

variable [DecidableEq Key]

/-- The groups of a duplicate-free list of keys are one selection, restricted to those keys. -/
theorem total_by_key {keys : List Key} (nodup : keys.Nodup) (key : Item → Key) (selected : Item → Bool) :
    (keys.map fun k => total value items fun item => decide (key item = k) && selected item).sum =
      total value items fun item => decide (key item ∈ keys) && selected item := by
  induction keys with
  | nil =>
    rw [total_none value items (by simp)]
    rfl
  | cons k keys ih =>
    obtain ⟨fresh, nodup⟩ := List.nodup_cons.mp nodup
    -- A fresh key takes none of the items that the other keys take.
    rw [List.map_cons, List.sum_cons, ih nodup, ← total_or]
    · apply total_congr
      intro item _
      cases selected item with
      | true => simp [List.mem_cons]
      | false => simp
    · intro item _ mine
      simp only [Bool.and_eq_true, decide_eq_true_eq] at mine
      simp [mine.1, fresh]

/-- A selection is divided by a key: each key of the list takes its own items, and no item is left over. -/
theorem total_partition {keys : List Key} (nodup : keys.Nodup) (key : Item → Key) {part : Key → Item → Bool}
    {whole : Item → Bool}
    (parts : ∀ k ∈ keys, ∀ item ∈ items, part k item = true ↔ key item = k ∧ whole item = true)
    (keyed : ∀ item ∈ items, whole item = true → key item ∈ keys) :
    (keys.map fun k => total value items (part k)).sum = total value items whole := by
  have each : ∀ k ∈ keys, total value items (part k) =
      total value items fun item => decide (key item = k) && whole item := by
    intro k member
    apply total_congr
    intro item present
    rw [parts k member item present, Bool.and_eq_true, decide_eq_true_eq]
  rw [List.map_congr_left each, total_by_key value items nodup]
  apply total_congr
  intro item present
  rw [Bool.and_eq_true, decide_eq_true_eq]
  exact and_iff_right_of_imp (keyed item present)

/-! Groups that need no key. -/

theorem sum_map_count [DecidableEq Item] (items : List Item) (item : Item) :
    (items.map fun other => if other = item then 1 else 0).sum = items.count item := by
  induction items with
  | nil => rfl
  | cons other items ih =>
    rw [List.map_cons, List.sum_cons, ih, List.count_cons]
    by_cases same : other = item
    · simp [same, Nat.add_comm]
    · simp [same]

/-- Groups that add up to a list, whatever is added up, are that list taken apart. -/
theorem perm_of_sums [DecidableEq Item] {groups : List (List Item)} {whole : List Item}
    (sums : ∀ value : Item → Nat, (groups.map fun group => (group.map value).sum).sum = (whole.map value).sum) :
    groups.flatten.Perm whole := by
  rw [List.perm_iff_count]
  intro item
  rw [← sum_map_count, ← sum_map_count, ← sums, List.map_flatten, List.sum_flatten, List.map_map]
  rfl

/-- The sum over a part of a list is a sum over the list. -/
theorem sum_filter (items : List Item) (chosen : Item → Bool) (value : Item → Nat) :
    ((items.filter chosen).map value).sum = (items.map fun item => if chosen item then value item else 0).sum := by
  induction items with
  | nil => rfl
  | cons item items ih =>
    rw [List.map_cons, List.sum_cons, ← ih]
    cases here : chosen item with
    | true => simp [List.filter_cons_of_pos here]
    | false => simp [here]

/-- Parts without repetition that a key tells apart. -/
theorem nodup_flatMap_of_key {α κ : Type} {keys : List κ} {part : κ → List α} (key : α → κ) (nodup : keys.Nodup)
    (each : ∀ k ∈ keys, (part k).Nodup) (keyed : ∀ k, ∀ a ∈ part k, key a = k) : (keys.flatMap part).Nodup := by
  refine List.nodup_flatMap.mpr ⟨each, nodup.imp fun {k k'} differ a member member' => differ ?_⟩
  rw [← keyed k a member, keyed k' a member']

/-! An entry is taken off, or replaced. -/

variable {entries : List Item} {index : Nat} {entry : Item}

theorem sum_eraseIdx (found : entries[index]? = some entry) :
    ((entries.eraseIdx index).map value).sum + value entry = (entries.map value).sum := by
  obtain ⟨inside, rfl⟩ := List.getElem?_eq_some_iff.mp found
  rw [← ((List.getElem_cons_eraseIdx_perm inside).map value).sum_eq, List.map_cons, List.sum_cons, add_comm]

theorem sum_set (found : entries[index]? = some entry) (entry' : Item) :
    ((entries.set index entry').map value).sum + value entry = (entries.map value).sum + value entry' := by
  obtain ⟨inside, rfl⟩ := List.getElem?_eq_some_iff.mp found
  rw [((List.set_perm_cons_eraseIdx inside entry').map value).sum_eq, List.map_cons, List.sum_cons, add_assoc,
    sum_eraseIdx value found, add_comm]

end Grouping
