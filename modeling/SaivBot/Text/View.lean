import Mathlib.Data.List.Basic

/-! Views into a character sequence, with every unchecked access made explicit.

A view is an offset and a size; its text is read from the owning sequence. An
access that the language leaves undefined is a fault here, never a default, so
that "this code never reads past its view" is a statement about results.
-/

set_option autoImplicit false

namespace StringView

inductive ViewFault where
  /-- Element 0 of an empty view was read. -/
  | emptyFront
  /-- A prefix longer than the view was removed. -/
  | longPrefix
  /-- `substr` was called with a position behind the end. -/
  | outOfRange
  deriving DecidableEq, Repr

structure View where
  start : Nat
  size : Nat
  deriving DecidableEq, Repr

variable {α : Type}

/-- The first position in `xs` satisfying `p`, `none` standing for `npos`. -/
def findChar (p : α → Bool) : List α → Option Nat
  | [] => none
  | c :: rest => if p c then some 0 else (findChar p rest).map (· + 1)

/-- The first position at which `target` starts in `xs`. -/
def findText [BEq α] (target : List α) : List α → Option Nat
  | [] => if target.isEmpty then some 0 else none
  | c :: rest =>
    if target.isPrefixOf (c :: rest) then some 0 else (findText target rest).map (· + 1)

/-- `pos + 1` in unsigned arithmetic: `npos` is the largest value and wraps to zero. -/
def after : Option Nat → Nat
  | none => 0
  | some pos => pos + 1

/-- `pos - 1` as a count: zero wraps to `npos`, which is "everything". -/
def countBefore : Nat → Option Nat
  | 0 => none
  | pos + 1 => some pos

/-- `last - first - 1` as a count, wrapping to "everything" when `last` comes before `first`. -/
def countBetween (first last : Nat) : Option Nat :=
  if first < last then some (last - first - 1) else none

namespace View

def whole (data : List α) : View := ⟨0, data.length⟩

def text (view : View) (data : List α) : List α := (data.drop view.start).take view.size

/-- The view lies in its owner. -/
def Inside (view : View) (data : List α) : Prop := view.start + view.size ≤ data.length

def drop (view : View) (count : Nat) : View := ⟨view.start + count, view.size - count⟩

def slice (view : View) (pos : Nat) (count : Option Nat) : View :=
  ⟨view.start + pos, match count with
    | none => view.size - pos
    | some n => min n (view.size - pos)⟩

/-- The position behind the view. -/
def stop (view : View) : Nat := view.start + view.size

/-- The view at the same distance from another base. -/
def rebase (view : View) (source target : Nat) : View := ⟨target + (view.start - source), view.size⟩

/-- Element 0 of the view. -/
def front (view : View) (data : List α) : Except ViewFault α :=
  match view.text data with
  | [] => .error .emptyFront
  | c :: _ => .ok c

def removePrefix (view : View) (count : Nat) : Except ViewFault View :=
  if count ≤ view.size then .ok (view.drop count) else .error .longPrefix

def substr (view : View) (pos : Nat) (count : Option Nat) : Except ViewFault View :=
  if pos ≤ view.size then .ok (view.slice pos count) else .error .outOfRange

theorem inside_whole (data : List α) : (whole data).Inside data := by
  simp [Inside, whole]

@[simp] theorem text_whole (data : List α) : (whole data).text data = data := by
  simp [text, whole]

theorem text_subset (view : View) (data : List α) : view.text data ⊆ data :=
  fun _ member => List.mem_of_mem_drop (List.mem_of_mem_take member)

theorem length_text {view : View} {data : List α} (inside : view.Inside data) :
    (view.text data).length = view.size := by
  simp only [Inside] at inside
  simp only [text, List.length_take, List.length_drop]
  omega

@[simp] theorem text_drop (view : View) (data : List α) (count : Nat) :
    (view.drop count).text data = (view.text data).drop count := by
  simp only [text, drop, List.drop_take, List.drop_drop]

theorem inside_drop {view : View} {data : List α} (inside : view.Inside data) {count : Nat}
    (bound : count ≤ view.size) : (view.drop count).Inside data := by
  simp only [Inside, drop] at inside ⊢
  omega

@[simp] theorem text_slice_none (view : View) (data : List α) (pos : Nat) :
    (view.slice pos none).text data = (view.text data).drop pos := by
  simp only [text, slice, List.drop_take, List.drop_drop]

@[simp] theorem text_slice_some (view : View) (data : List α) (pos count : Nat) :
    (view.slice pos (some count)).text data = ((view.text data).drop pos).take count := by
  simp only [text, slice, List.drop_take, List.drop_drop, List.take_take]

theorem inside_slice {view : View} {data : List α} (inside : view.Inside data) {pos : Nat}
    (bound : pos ≤ view.size) (count : Option Nat) : (view.slice pos count).Inside data := by
  simp only [Inside, slice] at inside ⊢
  cases count with
  | none => simp only; omega
  | some n => simp only; omega

theorem front_of_text {view : View} {data : List α} {c : α} {rest : List α}
    (shape : view.text data = c :: rest) : view.front data = .ok c := by
  simp only [front, shape]

theorem removePrefix_of_le {view : View} {count : Nat} (bound : count ≤ view.size) :
    view.removePrefix count = .ok (view.drop count) := by
  simp only [removePrefix, bound, ↓reduceIte]

theorem substr_of_le {view : View} {pos : Nat} (bound : pos ≤ view.size) (count : Option Nat) :
    view.substr pos count = .ok (view.slice pos count) := by
  simp only [substr, bound, ↓reduceIte]

theorem removePrefix_eq_ok {view behind : View} {count : Nat} :
    view.removePrefix count = .ok behind ↔ count ≤ view.size ∧ behind = view.drop count := by
  unfold removePrefix
  split
  · next bound => simp [bound, eq_comm]
  · next short => simp [short]

theorem substr_eq_ok {view piece : View} {pos : Nat} {count : Option Nat} :
    view.substr pos count = .ok piece ↔ pos ≤ view.size ∧ piece = view.slice pos count := by
  unfold substr
  split
  · next bound => simp [bound, eq_comm]
  · next short => simp [short]

theorem inside_of_removePrefix {view behind : View} {data : List α} (inside : view.Inside data) {count : Nat}
    (cut : view.removePrefix count = .ok behind) : behind.Inside data := by
  obtain ⟨bound, rfl⟩ := removePrefix_eq_ok.mp cut
  exact inside_drop inside bound

theorem inside_of_substr {view piece : View} {data : List α} (inside : view.Inside data) {pos : Nat}
    {count : Option Nat} (cut : view.substr pos count = .ok piece) : piece.Inside data := by
  obtain ⟨bound, rfl⟩ := substr_eq_ok.mp cut
  exact inside_slice inside bound count

/-- Views move with the base they are counted from. -/
theorem rebase_rebase (view : View) (source middle target : Nat) :
    (view.rebase source middle).rebase middle target = view.rebase source target := by
  simp only [rebase, Nat.add_sub_cancel_left]

@[simp] theorem rebase_zero (view : View) : view.rebase 0 0 = view := by
  simp only [rebase, Nat.sub_zero, Nat.zero_add]

/-- Behind another text a view shows what it did. -/
theorem text_rebase_append (view : View) (front data : List α) :
    (view.rebase 0 front.length).text (front ++ data) = view.text data := by
  simp only [text, rebase, Nat.sub_zero, List.drop_append, List.drop_eq_nil_of_le (Nat.le_add_right _ _),
    Nat.add_sub_cancel_left, List.nil_append]

theorem text_append {view : View} {data : List α} (inside : view.Inside data) (behind : List α) :
    view.text (data ++ behind) = view.text data := by
  simp only [Inside] at inside
  have start : view.start ≤ data.length := by omega
  have room : view.size ≤ (data.drop view.start).length := by simp only [List.length_drop]; omega
  simp only [text, List.drop_append_of_le_length start, List.take_append_of_le_length room]

theorem drop_rebase (view : View) (base count : Nat) :
    (view.rebase 0 base).drop count = (view.drop count).rebase 0 base := by
  simp only [drop, rebase, Nat.sub_zero, Nat.add_assoc]

theorem slice_rebase (view : View) (base pos : Nat) (count : Option Nat) :
    (view.rebase 0 base).slice pos count = (view.slice pos count).rebase 0 base := by
  simp only [slice, rebase, Nat.sub_zero, Nat.add_assoc]

theorem removePrefix_rebase (view : View) (base count : Nat) :
    (view.rebase 0 base).removePrefix count = (view.removePrefix count).map (·.rebase 0 base) := by
  unfold removePrefix
  rw [drop_rebase]
  split <;> split <;> first | rfl | contradiction

theorem substr_rebase (view : View) (base pos : Nat) (count : Option Nat) :
    (view.rebase 0 base).substr pos count = (view.substr pos count).map (·.rebase 0 base) := by
  unfold substr
  rw [slice_rebase]
  split <;> split <;> first | rfl | contradiction

/-- A view inside another one shows the same text when it is counted from that one's start. -/
theorem text_within {view outer : View} {data : List α} (first : outer.start ≤ view.start)
    (last : view.stop ≤ outer.stop) :
    (view.rebase outer.start 0).text (outer.text data) = view.text data := by
  simp only [stop] at last
  have offset : outer.start + (view.start - outer.start) = view.start := by omega
  have room : min view.size (outer.size - (view.start - outer.start)) = view.size := by omega
  simp only [text, rebase, Nat.zero_add, List.drop_take, List.drop_drop, List.take_take, offset, room]

/-! Cutting a view whose text is known. -/

theorem take_front {view : View} {data before rest : List α} (inside : view.Inside data)
    (shape : view.text data = before ++ rest) :
    ∃ piece, view.substr 0 (some before.length) = .ok piece ∧ piece.text data = before ∧
      piece.Inside data := by
  refine ⟨_, substr_of_le (Nat.zero_le _) _, ?_, inside_slice inside (Nat.zero_le _) _⟩
  rw [text_slice_some, List.drop_zero, shape, List.take_left]

theorem size_of_front {view : View} {data before rest : List α} (inside : view.Inside data)
    (shape : view.text data = before ++ rest) : before.length ≤ view.size := by
  rw [← length_text inside, shape, List.length_append]
  exact Nat.le_add_right _ _

theorem behind_front {view : View} {data before rest : List α} (inside : view.Inside data)
    (shape : view.text data = before ++ rest) {count : Nat} (same : before.length = count) :
    (view.drop count).Inside data ∧ (view.drop count).text data = rest := by
  refine ⟨inside_drop inside (same ▸ size_of_front inside shape), ?_⟩
  rw [text_drop, shape, ← same, List.drop_left]

theorem pass_front {view : View} {data before rest : List α} (inside : view.Inside data)
    (shape : view.text data = before ++ rest) {count : Nat} (same : before.length = count) :
    ∃ behind, view.removePrefix count = .ok behind ∧ behind.text data = rest ∧ behind.Inside data := by
  obtain ⟨insideBehind, text⟩ := behind_front inside shape same
  exact ⟨_, removePrefix_of_le (same ▸ size_of_front inside shape), text, insideBehind⟩

/-- Behind a word and its separator. -/
theorem behind_word {view : View} {data word tail : List α} {c : α} (inside : view.Inside data)
    (shape : view.text data = word ++ c :: tail) :
    (view.drop (word.length + 1)).Inside data ∧ (view.drop (word.length + 1)).text data = tail := by
  rw [← List.singleton_append, ← List.append_assoc] at shape
  exact behind_front inside shape (by simp)

end View

/-- What remains behind a separator. -/
theorem drop_past (before : List α) (c : α) (rest : List α) :
    (before ++ c :: rest).drop (before.length + 1) = rest := by
  simp [List.drop_append]

/-! Searching. A hit splits the sequence at its first match. -/

theorem findChar_eq_none {p : α → Bool} {xs : List α} :
    findChar p xs = none ↔ ∀ c ∈ xs, p c = false := by
  induction xs with
  | nil => simp [findChar]
  | cons c rest ih =>
    by_cases hit : p c
    · simp [findChar, hit]
    · simp [findChar, hit, ih]

theorem findChar_append {p : α → Bool} {before : List α} (misses : ∀ c ∈ before, p c = false)
    {c : α} (hit : p c = true) (rest : List α) :
    findChar p (before ++ c :: rest) = some before.length := by
  induction before with
  | nil => simp [findChar, hit]
  | cons b before ih =>
    have miss : p b = false := misses b (by simp)
    simp [findChar, miss, ih fun x member => misses x (by simp [member])]

theorem findChar_split {p : α → Bool} {xs : List α} {pos : Nat} (found : findChar p xs = some pos) :
    ∃ before c rest, xs = before ++ c :: rest ∧ before.length = pos ∧ p c = true ∧
      ∀ b ∈ before, p b = false := by
  induction xs generalizing pos with
  | nil => simp [findChar] at found
  | cons x xs ih =>
    by_cases hit : p x
    · simp only [findChar, hit, ↓reduceIte, Option.some.injEq] at found
      exact ⟨[], x, xs, rfl, found, hit, by simp⟩
    · simp only [findChar, hit, Bool.false_eq_true, ↓reduceIte, Option.map_eq_some_iff] at found
      obtain ⟨inner, found, rfl⟩ := found
      obtain ⟨before, c, rest, rfl, rfl, hit', misses⟩ := ih found
      refine ⟨x :: before, c, rest, rfl, rfl, hit', ?_⟩
      intro b member
      rcases List.mem_cons.mp member with rfl | member
      · simpa using hit
      · exact misses b member

theorem findChar_lt {p : α → Bool} {xs : List α} {pos : Nat} (found : findChar p xs = some pos) :
    pos < xs.length := by
  obtain ⟨before, c, rest, rfl, rfl, _, _⟩ := findChar_split found
  simp

/-- The first occurrence of a text whose first element does not occur before it. -/
theorem findText_append [BEq α] [LawfulBEq α] {c : α} {before : List α} (absent : c ∉ before)
    (more rest : List α) :
    findText (c :: more) (before ++ (c :: more) ++ rest) = some before.length := by
  induction before with
  | nil => simp [findText]
  | cons b before ih =>
    simp only [List.mem_cons, not_or] at absent
    -- The text cannot start in front of its own first element.
    have differs : (c == b) = false := beq_eq_false_iff_ne.mpr absent.1
    have tail := ih absent.2
    simp only [List.cons_append, List.append_assoc] at tail
    simp [findText, List.isPrefixOf, differs, tail]

/-- A text that is found is cut out of the sequence. -/
theorem findText_split [BEq α] [LawfulBEq α] {target xs : List α} {pos : Nat}
    (found : findText target xs = some pos) :
    ∃ before rest, xs = before ++ target ++ rest ∧ before.length = pos := by
  induction xs generalizing pos with
  | nil =>
    unfold findText at found
    split at found
    · next empty =>
      cases found
      exact ⟨[], [], by rw [List.isEmpty_iff.mp empty]; rfl, rfl⟩
    · cases found
  | cons x xs ih =>
    unfold findText at found
    split at found
    · next starts =>
      cases found
      obtain ⟨rest, same⟩ := List.isPrefixOf_iff_prefix.mp starts
      exact ⟨[], rest, same.symm, rfl⟩
    · obtain ⟨inner, inside, rfl⟩ := Option.map_eq_some_iff.mp found
      obtain ⟨before, rest, rfl, rfl⟩ := ih inside
      exact ⟨x :: before, rest, rfl, rfl⟩

/-- A text that is not found is nowhere in the sequence. -/
theorem ne_of_findText_none [BEq α] [LawfulBEq α] {target xs : List α} (missing : findText target xs = none)
    (before rest : List α) : xs ≠ before ++ target ++ rest := by
  induction xs generalizing before with
  | nil =>
    simp only [findText, List.isEmpty_iff, ite_eq_right_iff, reduceCtorEq, imp_false] at missing
    simp [missing]
  | cons x xs ih =>
    unfold findText at missing
    split at missing
    · cases missing
    · next elsewhere =>
      intro shape
      cases before with
      | nil =>
        apply elsewhere
        rw [List.isPrefixOf_iff_prefix]
        exact ⟨rest, by simpa using shape.symm⟩
      | cons b before =>
        rw [List.cons_append, List.cons_append, List.cons.injEq] at shape
        exact ih (by simpa using missing) before shape.2

end StringView
