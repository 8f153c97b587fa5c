import SaivBot.Text.View

/-! Where a delimiter is found that also stands behind the text it ends.

The delimiter opens with the two elements of a line break. In a text of whole lines
it is then found no earlier than behind the text, unless a line begins with what
follows the line break in it.
-/

set_option autoImplicit false

namespace StringView

variable {α : Type}

section

variable [BEq α] [LawfulBEq α] {target : List α}

/-- A text that starts nowhere before is found where it was put. -/
theorem findText_first {before rest : List α}
    (late : ∀ tail, tail ≠ [] → tail <:+ before → ¬ target <+: tail ++ (target ++ rest)) :
    findText target (before ++ (target ++ rest)) = some before.length := by
  induction before with
  | nil =>
    have starts : target.isPrefixOf (target ++ rest) = true :=
      List.isPrefixOf_iff_prefix.mpr (List.prefix_append target rest)
    cases shape : target ++ rest with
    | nil => simp [(List.append_eq_nil_iff.mp shape).1, findText]
    | cons c more =>
      rw [shape] at starts
      simp [findText, starts]
  | cons c before ih =>
    have here : target.isPrefixOf (c :: (before ++ (target ++ rest))) = false := by
      rw [Bool.eq_false_iff, ne_eq, List.isPrefixOf_iff_prefix]
      exact late (c :: before) (by simp) List.suffix_rfl
    have behind := ih fun tail nonempty suffix => late tail nonempty (suffix.trans (List.suffix_cons c before))
    rw [List.cons_append, findText, here, behind]
    rfl

/-- What is found stays where it is when the sequence goes on. -/
theorem findText_extend {xs : List α} {pos : Nat} (found : findText target xs = some pos) (ys : List α) :
    findText target (xs ++ ys) = some pos := by
  obtain ⟨before, rest, rfl, rfl⟩ := findText_split found
  induction before with
  | nil =>
    have first : findText target ([] ++ (target ++ (rest ++ ys))) = some 0 :=
      findText_first fun tail nonempty suffix => absurd (List.suffix_nil.mp suffix) nonempty
    simpa using first
  | cons c before ih =>
    simp only [List.cons_append, findText] at found ⊢
    split at found
    · cases found
    · next elsewhere =>
      have inside : findText target (before ++ target ++ rest) = some before.length := by simpa using found
      have here : ¬ target.isPrefixOf (c :: (before ++ target ++ rest ++ ys)) = true := by
        rw [List.isPrefixOf_iff_prefix] at elsewhere ⊢
        intro starts
        apply elsewhere
        refine List.prefix_of_prefix_length_le starts ⟨ys, by simp⟩ ?_
        simp only [List.length_cons, List.length_append]
        omega
      rw [if_neg here, ih inside]
      rfl

end

/-- Each line with its end. -/
def endLines (b : α) (lines : List (List α)) : List α := lines.flatMap (· ++ [b])

theorem endLines_cons (b : α) (line : List α) (lines : List (List α)) :
    endLines b (line :: lines) = line ++ b :: endLines b lines := by simp [endLines]

/-- Texts that are each a line with its end. -/
theorem exists_endLines {b : α} {good : List α → Prop} {texts : List (List α)}
    (each : ∀ text ∈ texts, ∃ line, text = line ++ [b] ∧ good line) :
    ∃ lines, texts.flatten = endLines b lines ∧ ∀ line ∈ lines, good line := by
  induction texts with
  | nil => exact ⟨[], rfl, nofun⟩
  | cons text texts ih =>
    obtain ⟨line, same, fine⟩ := each text (by simp)
    obtain ⟨lines, others, fines⟩ := ih fun other member => each other (by simp [member])
    refine ⟨line :: lines, ?_, List.forall_mem_cons.mpr ⟨fine, fines⟩⟩
    rw [List.flatten_cons, same, others, endLines_cons, List.append_assoc, List.singleton_append]

/-- Behind the end of a line there are whole lines. -/
theorem endLines_behind {b : α} {lines : List (List α)} (clean : ∀ line ∈ lines, b ∉ line) {before rest : List α}
    (shape : endLines b lines = before ++ b :: rest) : ∃ others ⊆ lines, rest = endLines b others := by
  induction lines generalizing before with
  | nil => simp [endLines] at shape
  | cons line lines ih =>
    rw [endLines_cons] at shape
    rcases List.append_eq_append_iff.mp shape with ⟨more, rfl, split⟩ | ⟨more, rfl, split⟩
    · cases more with
      | nil =>
        cases split
        exact ⟨lines, List.subset_cons_self line lines, rfl⟩
      | cons c more =>
        rw [List.cons_append, List.cons.injEq] at split
        obtain ⟨rfl, split⟩ := split
        obtain ⟨others, inside, same⟩ := ih (fun other member => clean other (by simp [member])) split
        exact ⟨others, List.subset_cons_of_subset line inside, same⟩
    · cases more with
      | nil =>
        cases split
        exact ⟨lines, List.subset_cons_self _ lines, rfl⟩
      | cons c more =>
        rw [List.cons_append, List.cons.injEq] at split
        obtain ⟨rfl, -⟩ := split
        exact absurd (by simp) (clean (before ++ b :: more) (by simp))

/-- A prefix without an element ends before that element does. -/
theorem prefix_of_prefix_append_cons {b : α} {opening line rest : List α} (absent : b ∉ opening)
    (starts : opening <+: line ++ b :: rest) : opening <+: line := by
  obtain ⟨more, shape⟩ := starts
  rcases List.append_eq_append_iff.mp shape with ⟨left, rfl, -⟩ | ⟨left, rfl, split⟩
  · exact List.prefix_append opening left
  · cases left with
    | nil => simp
    | cons c left =>
      rw [List.cons_append, List.cons.injEq] at split
      obtain ⟨rfl, -⟩ := split
      exact absurd (by simp) absent

/-- A delimiter behind whole lines is found there. -/
theorem findText_endLines [BEq α] [LawfulBEq α] {a b c : α} {opening : List α} {lines : List (List α)}
    (breaks : a ≠ b) (opens : c ≠ a) (single : b ∉ c :: opening) (clean : ∀ line ∈ lines, b ∉ line)
    (plain : ∀ line ∈ lines, ¬ c :: opening <+: line) (rest : List α) :
    findText (a :: b :: c :: opening) (endLines b lines ++ (a :: b :: c :: opening ++ rest)) =
      some (endLines b lines).length := by
  apply findText_first
  rintro tail nonempty ⟨before, shape⟩ starts
  obtain ⟨x, tail, rfl⟩ := List.exists_cons_of_ne_nil nonempty
  rw [List.cons_append, List.cons_prefix_cons] at starts
  obtain ⟨rfl, starts⟩ := starts
  cases tail with
  | nil =>
    -- The delimiter's second element would have to be its first.
    rw [List.nil_append, List.cons_append, List.cons_prefix_cons] at starts
    exact breaks starts.1.symm
  | cons y following =>
    rw [List.cons_append, List.cons_prefix_cons] at starts
    obtain ⟨rfl, starts⟩ := starts
    have split : endLines b lines = (before ++ [a]) ++ b :: following := by rw [← shape]; simp
    obtain ⟨others, inside, rfl⟩ := endLines_behind clean split
    cases others with
    | nil =>
      rw [endLines, List.flatMap_nil, List.nil_append, List.cons_append, List.cons_prefix_cons] at starts
      exact opens starts.1
    | cons line others =>
      rw [endLines_cons, List.append_assoc, List.cons_append] at starts
      exact plain line (inside (by simp)) (prefix_of_prefix_append_cons single starts)

end StringView
