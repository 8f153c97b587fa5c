import Mathlib.Data.List.Basic

/-! Numbers of bounded width with a separator between them.

Reading takes as many digits as the width allows, and does not look behind the last
number. A text that spells the numbers is read to its end; what is read to the end is
spelled.
-/

set_option autoImplicit false

namespace Fields

variable {α : Type} (isDigit : α → Bool) (digit : α → Nat)

def value (digits : List α) : Nat := digits.foldl (fun n c => 10 * n + digit c) 0

/-- One to `width` digits. -/
def Number (width : Nat) (digits : List α) : Prop :=
  digits ≠ [] ∧ digits.length ≤ width ∧ ∀ c ∈ digits, isDigit c = true

/-- A number and what is behind it. -/
def number (width : Nat) (text : List α) : Option (Nat × List α) :=
  match (text.take width).takeWhile isDigit with
  | [] => none
  | c :: digits => some (value digit (c :: digits), text.drop (digits.length + 1))

variable {isDigit digit} {width : Nat} {text digits rest : List α}

theorem number_spec {n : Nat} (read : number isDigit digit width text = some (n, rest)) :
    ∃ digits, Number isDigit width digits ∧ text = digits ++ rest ∧ n = value digit digits := by
  unfold number at read
  split at read
  · cases read
  · next c digits taken =>
    cases read
    have all : ∀ b ∈ c :: digits, isDigit b = true := by
      rw [← taken]
      exact List.all_eq_true.mp List.all_takeWhile
    have front : c :: digits <+: text.take width := taken ▸ List.takeWhile_prefix _
    have short : (c :: digits).length ≤ width := Nat.le_trans front.length_le (List.length_take_le _ _)
    have whole : c :: digits <+: text := front.trans (List.take_prefix _ _)
    refine ⟨c :: digits, ⟨List.cons_ne_nil _ _, short, all⟩, ?_, rfl⟩
    conv => lhs; rw [← List.take_append_drop (digits.length + 1) text]
    rw [← List.length_cons (a := c), ← List.prefix_iff_eq_take.mp whole]

/-- A number ends where no digit follows. -/
theorem number_append (number : Number isDigit width digits) (ends : ∀ c ∈ rest.head?, isDigit c = false) :
    Fields.number isDigit digit width (digits ++ rest) = some (value digit digits, rest) := by
  obtain ⟨nonempty, short, all⟩ := number
  have behind : (rest.take (width - digits.length)).takeWhile isDigit = [] := by
    cases rest with
    | nil => simp
    | cons c rest =>
      cases width - digits.length with
      | zero => rfl
      | succ more => simp [ends c rfl]
  have taken : ((digits ++ rest).take width).takeWhile isDigit = digits := by
    rw [List.take_append, List.take_of_length_le short, List.takeWhile_append_of_pos all, behind, List.append_nil]
  unfold Fields.number
  rw [taken]
  cases digits with
  | nil => exact absurd rfl nonempty
  | cons c digits => simp

theorem number_whole (number : Number isDigit width digits) :
    Fields.number isDigit digit width digits = some (value digit digits, []) := by
  have found : Fields.number isDigit digit width (digits ++ []) = some (value digit digits, []) :=
    number_append number nofun
  rwa [List.append_nil] at found

theorem number_separated {separator : α} (separates : isDigit separator = false) (number : Number isDigit width digits)
    (rest : List α) :
    Fields.number isDigit digit width (digits ++ separator :: rest) = some (value digit digits, separator :: rest) :=
  number_append number (by rintro _ ⟨⟩; exact separates)

theorem number_none (ends : ∀ c ∈ text.head?, isDigit c = false) : number isDigit digit width text = none := by
  have nothing : (text.take width).takeWhile isDigit = [] := by
    cases text with
    | nil => simp
    | cons c text =>
      cases width with
      | zero => rfl
      | succ more => simp [ends c rfl]
  rw [number, nothing]

/-- A digit is enough for a number. -/
theorem number_some {c : α} (first : isDigit c = true) (positive : 0 < width) (rest : List α) :
    ∃ n behind, number isDigit digit width (c :: rest) = some (n, behind) := by
  obtain ⟨more, rfl⟩ := Nat.exists_eq_succ_of_ne_zero (Nat.ne_of_gt positive)
  unfold number
  rw [List.take_succ_cons, List.takeWhile_cons_of_pos first]
  exact ⟨_, _, rfl⟩

/-! Several numbers. -/

section

variable [DecidableEq α] (isDigit digit) (separator : α)

/-- Numbers of these widths, and what is behind them. -/
def read : Nat → List Nat → List α → Option (List Nat × List α)
  | width, [], text => (number isDigit digit width text).map fun (n, rest) => ([n], rest)
  | width, next :: widths, text =>
    match number isDigit digit width text with
    | none => none
    | some (_, []) => none
    | some (n, c :: rest) =>
      if c = separator then (read next widths rest).map fun (ns, rest) => (n :: ns, rest) else none

/-- The text that numbers of these widths make up. -/
inductive Spells : Nat → List Nat → List Nat → List α → Prop
  | last {width : Nat} {digits : List α} : Number isDigit width digits →
      Spells width [] [value digit digits] digits
  | cons {width next : Nat} {widths ns : List Nat} {digits rest : List α} : Number isDigit width digits →
      Spells next widths ns rest →
      Spells width (next :: widths) (value digit digits :: ns) (digits ++ separator :: rest)

end

variable [DecidableEq α] {separator : α}

theorem read_none (ends : ∀ c ∈ text.head?, isDigit c = false) (widths : List Nat) :
    read isDigit digit separator width widths text = none := by
  cases widths with
  | nil => rw [read, number_none ends]; rfl
  | cons next widths => rw [read, number_none ends]

variable {widths ns : List Nat}

theorem length_of_read {rest : List α} (found : read isDigit digit separator width widths text = some (ns, rest)) :
    ns.length = widths.length + 1 := by
  induction widths generalizing width text ns rest with
  | nil =>
    obtain ⟨_, _, ⟨⟩⟩ := Option.map_eq_some_iff.mp found
    rfl
  | cons next widths ih =>
    unfold read at found
    split at found
    · cases found
    · cases found
    · obtain ⟨-, found⟩ := Option.ite_none_right_eq_some.mp found
      obtain ⟨others, inner, same⟩ := Option.map_eq_some_iff.mp found
      cases same
      rw [List.length_cons, ih inner, List.length_cons]

/-- What is read to the end is spelled. -/
theorem spells_of_read (whole : read isDigit digit separator width widths text = some (ns, [])) :
    Spells isDigit digit separator width widths ns text := by
  induction widths generalizing width text ns with
  | nil =>
    obtain ⟨⟨n, rest⟩, found, same⟩ := Option.map_eq_some_iff.mp whole
    cases same
    obtain ⟨digits, number, rfl, rfl⟩ := number_spec found
    rw [List.append_nil]
    exact .last number
  | cons next widths ih =>
    unfold read at whole
    split at whole
    · cases whole
    · cases whole
    · next n c rest found =>
      obtain ⟨rfl, whole⟩ := Option.ite_none_right_eq_some.mp whole
      obtain ⟨⟨others, behind⟩, found', same⟩ := Option.map_eq_some_iff.mp whole
      cases same
      obtain ⟨digits, number, rfl, rfl⟩ := number_spec found
      exact .cons number (ih found')

/-- What is spelled is read to the end, where the separator is no digit. -/
theorem Spells.read (separates : isDigit separator = false)
    (spells : Spells isDigit digit separator width widths ns text) :
    Fields.read isDigit digit separator width widths text = some (ns, []) := by
  induction spells with
  | last number =>
    rw [Fields.read, number_whole number]
    rfl
  | cons number _ ih =>
    rw [Fields.read, number_separated separates number]
    simp [ih]

/-- A text that spells some numbers does not go on with another. -/
theorem Spells.read_more (separates : isDigit separator = false)
    (spells : Spells isDigit digit separator width widths ns text) (other : Nat) (more : List Nat) :
    Fields.read isDigit digit separator width (widths ++ other :: more) text = none := by
  induction spells with
  | last number => rw [List.nil_append, Fields.read, number_whole number]
  | cons number _ ih =>
    rw [List.cons_append, Fields.read, number_separated separates number]
    simp [ih]

end Fields
