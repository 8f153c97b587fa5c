import SaivBot.Logs.Matching

/-! The counting loop over matches of a regular expression.

Behind each match the rest of the text is searched as a text of its own. A match
that is empty and stands in front of the rest leaves the same rest, and the
characters in front of the rest are out of view.
-/

set_option autoImplicit false

namespace SaivBot
open StringView

namespace SearchTarget

section

variable (engine : RegexEngine) (pattern : engine.Pattern) (str : Bytes)

/-- The loop returns or throws. -/
def Ends : Prop := ∃ fuel, countRegexOccurrences engine pattern fuel str ≠ .error (.fault .endlessLoop)

/-- Where the loop searches: in front of the text and behind each match. -/
inductive Restart : Nat → Prop
  | first : Restart 0
  | next {pos : Nat} {range : View} : Restart pos → engine.regexSearch pattern (str.drop pos) = .ok (some range) →
      Restart (pos + range.stop)

/-- No search finds an empty match where it starts. -/
def Advances : Prop :=
  ∀ pos, Restart engine pattern str pos → ∀ range, engine.regexSearch pattern (str.drop pos) = .ok (some range) →
    range.stop ≠ 0

/-- No match starts in front of the one that a search finds. -/
def Leftmost : Prop :=
  ∀ pattern text range, engine.regexSearch pattern text = .ok (some range) →
    ∀ other, engine.Matches pattern text other → range.start ≤ other.start

end

variable {engine : RegexEngine} {pattern : engine.Pattern} {str : Bytes} {range : View}

/-! One turn of the loop. -/

theorem countRegexOccurrences_error {exception : Exception} (thrown : engine.regexSearch pattern str = .error exception)
    (fuel : Nat) : countRegexOccurrences engine pattern (fuel + 1) str = .error (.raise exception) := by
  rw [countRegexOccurrences, thrown]
  rfl

theorem countRegexOccurrences_none (missing : engine.regexSearch pattern str = .ok none) (fuel : Nat) :
    countRegexOccurrences engine pattern (fuel + 1) str = .ok 0 := by
  rw [countRegexOccurrences, missing]
  rfl

theorem countRegexOccurrences_some (found : engine.regexSearch pattern str = .ok (some range)) (fuel : Nat) :
    countRegexOccurrences engine pattern (fuel + 1) str =
      (countRegexOccurrences engine pattern fuel (str.drop range.stop)).map (· + 1) := by
  rw [countRegexOccurrences, found]
  change (countRegexOccurrences engine pattern fuel (str.drop range.stop) >>= fun count => pure (count + 1)) = _
  cases countRegexOccurrences engine pattern fuel (str.drop range.stop) <;> rfl

theorem map_eq_error {ε α β : Type} {m : Except ε α} {f : α → β} {e : ε} : m.map f = .error e ↔ m = .error e := by
  cases m <;> simp [Except.map]

/-- More turns than the loop takes make no difference. -/
theorem countRegexOccurrences_mono {fuel : Nat}
    (ended : countRegexOccurrences engine pattern fuel str ≠ .error (.fault .endlessLoop)) (more : Nat) :
    countRegexOccurrences engine pattern (fuel + more) str = countRegexOccurrences engine pattern fuel str := by
  induction fuel generalizing str with
  | zero => exact absurd rfl ended
  | succ fuel ih =>
    rw [Nat.add_right_comm]
    cases searched : engine.regexSearch pattern str with
    | error exception => rw [countRegexOccurrences_error searched, countRegexOccurrences_error searched]
    | ok found =>
      cases found with
      | none => rw [countRegexOccurrences_none searched, countRegexOccurrences_none searched]
      | some range =>
        rw [countRegexOccurrences_some searched, Ne, map_eq_error] at ended
        rw [countRegexOccurrences_some searched, countRegexOccurrences_some searched, ih ended]

/-- The loop has no other fault. -/
theorem endless_of_fault {fuel : Nat} {fault : Fault}
    (failed : countRegexOccurrences engine pattern fuel str = .error (.fault fault)) : fault = .endlessLoop := by
  induction fuel generalizing str with
  | zero =>
    cases failed
    rfl
  | succ fuel ih =>
    cases searched : engine.regexSearch pattern str with
    | error exception =>
      rw [countRegexOccurrences_error searched] at failed
      cases failed
    | ok found =>
      cases found with
      | none =>
        rw [countRegexOccurrences_none searched] at failed
        cases failed
      | some range =>
        rw [countRegexOccurrences_some searched, map_eq_error] at failed
        exact ih failed

/-- A match lies in the range searched. -/
theorem stop_le_length (found : engine.regexSearch pattern str = .ok (some range)) : range.stop ≤ str.length :=
  engine.inside (engine.regexSearch_some found)

/-- A search that finds an empty match in front leaves its text as it is. -/
theorem not_ends_of_empty (found : engine.regexSearch pattern str = .ok (some range)) (empty : range.stop = 0) :
    ¬ Ends engine pattern str := by
  rintro ⟨fuel, returned⟩
  apply returned
  clear returned
  induction fuel with
  | zero => rfl
  | succ fuel ih =>
    rw [countRegexOccurrences_some found, empty, List.drop_zero, ih]
    rfl

theorem Ends.next (ends : Ends engine pattern str) (found : engine.regexSearch pattern str = .ok (some range)) :
    Ends engine pattern (str.drop range.stop) := by
  obtain ⟨fuel, returned⟩ := ends
  cases fuel with
  | zero => exact absurd rfl returned
  | succ fuel =>
    refine ⟨fuel, fun endless => returned ?_⟩
    rw [countRegexOccurrences_some found, endless]
    rfl

theorem Ends.restart (ends : Ends engine pattern str) {pos : Nat} (restart : Restart engine pattern str pos) :
    Ends engine pattern (str.drop pos) := by
  induction restart with
  | first => exact ends
  | next _ found ih =>
    have next := ih.next found
    rwa [List.drop_drop] at next

/-- Where every match moves on, each turn leaves less of the text. -/
theorem Advances.returns (advances : Advances engine pattern str) {fuel pos : Nat}
    (restart : Restart engine pattern str pos) (enough : str.length - pos < fuel) :
    countRegexOccurrences engine pattern fuel (str.drop pos) ≠ .error (.fault .endlessLoop) := by
  induction fuel generalizing pos with
  | zero => omega
  | succ fuel ih =>
    cases searched : engine.regexSearch pattern (str.drop pos) with
    | error exception => simp [countRegexOccurrences_error searched]
    | ok found =>
      cases found with
      | none => simp [countRegexOccurrences_none searched]
      | some range =>
        have moved := advances pos restart range searched
        have inside := stop_le_length searched
        rw [List.length_drop] at inside
        rw [countRegexOccurrences_some searched, List.drop_drop, Ne, map_eq_error]
        exact ih (restart.next searched) (by omega)

/-- A loop that ends has no more turns than the text has characters, and one. -/
theorem Ends.returns (ends : Ends engine pattern str) {fuel : Nat} (enough : str.length < fuel) :
    countRegexOccurrences engine pattern fuel str ≠ .error (.fault .endlessLoop) := by
  have advances : Advances engine pattern str := fun pos restart range found empty =>
    not_ends_of_empty found empty (ends.restart restart)
  exact advances.returns .first (by omega)

/-- The loop ends exactly for texts on whose way no match is empty where its search starts. -/
theorem ends_iff_advances (engine : RegexEngine) (pattern : engine.Pattern) (str : Bytes) :
    Ends engine pattern str ↔ Advances engine pattern str := by
  constructor
  · intro ends pos restart range found empty
    exact not_ends_of_empty found empty (ends.restart restart)
  · intro advances
    exact ⟨str.length + 1, advances.returns .first (by omega)⟩

end SearchTarget

/-- Patterns of a letter and a star. -/
def starRegex : RegexEngine where
  Pattern := Byte
  compile
    | [c, 42] => if 97 ≤ tolower c ∧ tolower c ≤ 122 then some c else none
    | _ => none
  Matches c text range := range.Inside text ∧ ∀ b ∈ range.text text, b = c
  regexMatch c text := .ok (text.all (· == c))
  regexSearch c text := .ok (some ⟨0, (text.takeWhile (· == c)).length⟩)
  inside := And.left
  regexMatch_iff := by
    rintro c text matched ⟨⟩
    simp [View.inside_whole]
  regexSearch_some := by
    rintro c text range ⟨⟩
    refine ⟨?_, fun b member => ?_⟩
    · simpa [View.Inside] using (List.takeWhile_prefix (p := (· == c)) (l := text)).length_le
    · have first : (text.take (text.takeWhile (· == c)).length) = text.takeWhile (· == c) :=
        (List.prefix_iff_eq_take.mp (List.takeWhile_prefix _)).symm
      simp only [View.text, List.drop_zero, first] at member
      simpa using List.all_eq_true.mp List.all_takeWhile b member
  regexSearch_none := by
    rintro c text ⟨⟩

namespace SearchTarget

theorem leftmost_starRegex : Leftmost starRegex := by
  rintro c text range ⟨⟩ other matched
  exact Nat.zero_le _

/-- `a*` in a text that does not begin with an `a`. -/
theorem endless_star : ¬ ∀ (engine : RegexEngine) (searchStr : Bytes) (pattern : engine.Pattern) (str : Bytes),
    Leftmost engine → engine.compile searchStr = some pattern → Ends engine pattern str := by
  intro ends
  have star : starRegex.compile (ascii "a*") = some (97 : Byte) := rfl
  exact not_ends_of_empty rfl rfl (ends starRegex (ascii "a*") _ (ascii "NaM") leftmost_starRegex star)

end SearchTarget

/-- `std::regex_search` with `match_prev_avail`: it searches behind a position, and the characters in front of
it stay in view. -/
structure ContextEngine extends RegexEngine where
  searchFrom : Pattern → Bytes → Nat → Except Exception (Option View)
  searchFrom_zero : ∀ pattern text, searchFrom pattern text 0 = regexSearch pattern text
  searchFrom_some : ∀ {pattern text pos range}, searchFrom pattern text pos = .ok (some range) →
    Matches pattern text range ∧ pos ≤ range.start ∧
      ∀ other, Matches pattern text other → pos ≤ other.start → range.start ≤ other.start
  searchFrom_none : ∀ {pattern text pos}, searchFrom pattern text pos = .ok none →
    ∀ range, Matches pattern text range → range.start < pos

namespace SearchTarget

section

variable (engine : ContextEngine) (pattern : engine.Pattern) (str : Bytes)

/-- The matches `std::regex_iterator` enumerates from a position on, for a pattern without empty matches. -/
def iteratorCount : Nat → Nat → Except Abort Nat
  | 0, _ => .error (.fault .endlessLoop)
  | fuel + 1, pos => do
    match (← (engine.searchFrom pattern str pos).mapError Abort.raise) with
    | none => return 0
    | some range => do
      let count ← iteratorCount fuel range.stop
      return count + 1

/-- No range matched is empty. -/
def NeverEmpty : Prop := ∀ text range, engine.Matches pattern text range → range.size ≠ 0

/-- Behind this position the rest of the text is searched as a text of its own with the same result. -/
def InContext (pos : Nat) : Prop :=
  engine.searchFrom pattern str pos =
    (engine.regexSearch pattern (str.drop pos)).map fun found => found.map fun range => range.rebase 0 pos

end

variable {engine : ContextEngine} {pattern : engine.Pattern} {str : Bytes} {range : View} {pos : Nat}

theorem iteratorCount_error {exception : Exception} (thrown : engine.searchFrom pattern str pos = .error exception)
    (fuel : Nat) : iteratorCount engine pattern str (fuel + 1) pos = .error (.raise exception) := by
  rw [iteratorCount, thrown]
  rfl

theorem iteratorCount_none (missing : engine.searchFrom pattern str pos = .ok none) (fuel : Nat) :
    iteratorCount engine pattern str (fuel + 1) pos = .ok 0 := by
  rw [iteratorCount, missing]
  rfl

theorem iteratorCount_some (found : engine.searchFrom pattern str pos = .ok (some range)) (fuel : Nat) :
    iteratorCount engine pattern str (fuel + 1) pos =
      (iteratorCount engine pattern str fuel range.stop).map (· + 1) := by
  rw [iteratorCount, found]
  change (iteratorCount engine pattern str fuel range.stop >>= fun count => pure (count + 1)) = _
  cases iteratorCount engine pattern str fuel range.stop <;> rfl

/-- Without empty matches every search moves on. -/
theorem NeverEmpty.advances (neverEmpty : NeverEmpty engine pattern) (str : Bytes) :
    Advances engine.toRegexEngine pattern str := by
  intro pos _ range found stop
  have size := neverEmpty _ _ (engine.regexSearch_some found)
  unfold View.stop at stop
  omega

theorem stop_rebase (range : View) (pos : Nat) : (range.rebase 0 pos).stop = pos + range.stop :=
  Nat.add_assoc pos range.start range.size

/-- The loop and the iterator go from match to match together. -/
theorem countRegexOccurrences_eq_iteratorCount
    (agree : ∀ pos, Restart engine.toRegexEngine pattern str pos → InContext engine pattern str pos) (fuel : Nat)
    (restart : Restart engine.toRegexEngine pattern str pos) :
    countRegexOccurrences engine.toRegexEngine pattern fuel (str.drop pos) =
      iteratorCount engine pattern str fuel pos := by
  induction fuel generalizing pos with
  | zero => rfl
  | succ fuel ih =>
    have same := agree pos restart
    unfold InContext at same
    cases searched : engine.regexSearch pattern (str.drop pos) with
    | error exception =>
      rw [searched] at same
      rw [countRegexOccurrences_error searched, iteratorCount_error same]
    | ok found =>
      rw [searched] at same
      cases found with
      | none => rw [countRegexOccurrences_none searched, iteratorCount_none same]
      | some range =>
        rw [countRegexOccurrences_some searched, iteratorCount_some same, List.drop_drop, ih (restart.next searched),
          stop_rebase]

/-- A pattern without empty matches is counted as the iterator enumerates it, on texts whose rests are searched
as they are in context. -/
theorem counts_as_iterator (engine : ContextEngine) (pattern : engine.Pattern) (str : Bytes)
    (neverEmpty : NeverEmpty engine pattern)
    (agree : ∀ pos, Restart engine.toRegexEngine pattern str pos → InContext engine pattern str pos) (more : Nat) :
    countRegexOccurrences engine.toRegexEngine pattern (str.length + 1 + more) str =
        iteratorCount engine pattern str (str.length + 1 + more) 0 ∧
      iteratorCount engine pattern str (str.length + 1 + more) 0 ≠ .error (.fault .endlessLoop) := by
  have same := countRegexOccurrences_eq_iteratorCount agree (str.length + 1 + more) .first
  rw [List.drop_zero] at same
  refine ⟨same, ?_⟩
  rw [← same]
  exact (neverEmpty.advances str).returns .first (by omega)

end SearchTarget

/-- Patterns of a `^` and a letter. -/
def headRegex : ContextEngine where
  Pattern := Byte
  compile
    | [94, c] => if 97 ≤ tolower c ∧ tolower c ≤ 122 then some c else none
    | _ => none
  Matches c text range := range = ⟨0, 1⟩ ∧ text.head? = some c
  regexMatch c text := .ok (decide (text = [c]))
  regexSearch c text := .ok (if text.head? = some c then some ⟨0, 1⟩ else none)
  searchFrom c text pos := .ok (if pos = 0 ∧ text.head? = some c then some ⟨0, 1⟩ else none)
  inside := by
    rintro c text range ⟨rfl, head⟩
    cases text with
    | nil => cases head
    | cons first rest => simp [View.Inside]
  regexMatch_iff := by
    rintro c text matched ⟨⟩
    cases text with
    | nil => simp
    | cons first rest => simp [View.whole, and_comm]
  regexSearch_some := by
    rintro c text range found
    obtain ⟨head, ⟨⟩⟩ := Option.ite_none_right_eq_some.mp (Except.ok.inj found)
    exact ⟨rfl, head⟩
  regexSearch_none := by
    rintro c text missing range ⟨-, head⟩
    have missing := Except.ok.inj missing
    rw [if_pos head] at missing
    cases missing
  searchFrom_zero c text := by simp
  searchFrom_some := by
    rintro c text pos range found
    obtain ⟨⟨rfl, head⟩, ⟨⟩⟩ := Option.ite_none_right_eq_some.mp (Except.ok.inj found)
    exact ⟨⟨rfl, head⟩, Nat.le_refl _, fun _ _ _ => Nat.zero_le _⟩
  searchFrom_none := by
    rintro c text pos missing range ⟨rfl, head⟩
    have missing := Except.ok.inj missing
    by_contra early
    rw [if_pos ⟨Nat.le_zero.mp (Nat.not_lt.mp early), head⟩] at missing
    cases missing

namespace SearchTarget

theorem neverEmpty_headRegex (c : Byte) : NeverEmpty headRegex c := by
  rintro text range ⟨rfl, -⟩
  exact Nat.one_ne_zero

/-- `^N` in "NaM": what is left behind the match does not begin with an `N`. -/
theorem counts_as_iterator_head : iteratorCount headRegex (78 : Byte) (ascii "NaM") 4 0 = .ok 1 ∧
    countRegexOccurrences headRegex.toRegexEngine (78 : Byte) 4 (ascii "NaM") = .ok 1 := by
  have one : iteratorCount headRegex (78 : Byte) (ascii "NaM") 4 0 = .ok 1 := rfl
  refine ⟨one, ?_⟩
  have agree (pos : Nat) (restart : Restart headRegex.toRegexEngine (78 : Byte) (ascii "NaM") pos) :
      InContext headRegex (78 : Byte) (ascii "NaM") pos := by
    have places : pos = 0 ∨ pos = 1 := by
      induction restart with
      | first => exact .inl rfl
      | next _ found ih =>
        rcases ih with rfl | rfl
        · cases found
          exact .inr rfl
        · cases found
    rcases places with rfl | rfl <;> rfl
  rw [← one]
  exact (counts_as_iterator headRegex (78 : Byte) (ascii "NaM") (neverEmpty_headRegex 78) agree 0).1

/-- `^N` in "NN": the second letter begins the rest, and not the text. -/
theorem anchored_twice : ¬ ∀ (engine : ContextEngine) (searchStr : Bytes) (pattern : engine.Pattern) (str : Bytes)
    (more : Nat), engine.compile searchStr = some pattern → NeverEmpty engine pattern →
      countRegexOccurrences engine.toRegexEngine pattern (str.length + 1 + more) str =
        iteratorCount engine pattern str (str.length + 1 + more) 0 := by
  intro same
  have anchored : headRegex.compile (ascii "^N") = some (78 : Byte) := rfl
  have counts := same headRegex (ascii "^N") _ (ascii "NN") 0 anchored (neverEmpty_headRegex 78)
  have twice : countRegexOccurrences headRegex.toRegexEngine (78 : Byte) 3 (ascii "NN") = .ok 2 := rfl
  have once : iteratorCount headRegex (78 : Byte) (ascii "NN") 3 0 = .ok 1 := rfl
  have different := twice.symm.trans (counts.trans once)
  cases different

end SearchTarget

end SaivBot
