import SaivBot.Bytes
import SaivBot.Fault
import SaivBot.Program

/-! What `find` selects and what `count` counts.

Each of the two builds its closure from the search target and the same two options.
Without `-regex` both search for the target under a comparison of characters; with
it `find` asks for a match of the whole message, `count` for matches inside it.
-/

set_option autoImplicit false

namespace SaivBot
open StringView Program

/-! Searching for a text under a comparison of characters. -/

section

variable {α : Type} (predicate : α → α → Bool)

def startsWith : List α → List α → Bool
  | [], _ => true
  | _ :: _, [] => false
  | t :: target, c :: str => predicate c t && startsWith target str

/-- `std::search`: the position of the first occurrence, or the end. -/
def search (target : List α) : List α → Nat
  | [] => 0
  | c :: str => if startsWith predicate target (c :: str) then 0 else search target str + 1

end

/-- `countTargetOccurrences` with a searcher: behind each occurrence's first character it goes on. -/
def countTargetOccurrences {α : Type} (searcher : List α → Nat) : Nat → List α → Except Abort Nat
  | 0, _ => .error (.fault .endlessLoop)
  | fuel + 1, str =>
    if searcher str = str.length then return 0
    else do
      let count ← countTargetOccurrences searcher fuel (str.drop (searcher str + 1))
      return count + 1

/-- `std::regex`: its constructor and the two functions, which decide one relation between a pattern, a
text and a range of it. -/
structure RegexEngine where
  Pattern : Type
  /-- The constructor. Without a result it throws `std::regex_error`. -/
  compile : Bytes → Option Pattern
  Matches : Pattern → Bytes → View → Prop
  regexMatch : Pattern → Bytes → Except Exception Bool
  regexSearch : Pattern → Bytes → Except Exception (Option View)
  inside : ∀ {pattern text range}, Matches pattern text range → range.Inside text
  regexMatch_iff : ∀ {pattern text matched}, regexMatch pattern text = .ok matched →
    (matched = true ↔ Matches pattern text (View.whole text))
  regexSearch_some : ∀ {pattern text range}, regexSearch pattern text = .ok (some range) →
    Matches pattern text range
  regexSearch_none : ∀ {pattern text}, regexSearch pattern text = .ok none →
    ∀ range, ¬ Matches pattern text range

/-- What the search is for. -/
structure SearchTarget where
  searchStr : Bytes
  caseless : Bool
  regex : Bool
  deriving DecidableEq, Repr

namespace SearchTarget

variable (engine : RegexEngine)

def predicate (target : SearchTarget) : Byte → Byte → Bool :=
  if target.caseless then fun l r => tolower l == tolower r else fun l r => l == r

def searcher (target : SearchTarget) : Bytes → Nat := search target.predicate target.searchStr

def compile (target : SearchTarget) : Except Exception engine.Pattern :=
  match engine.compile target.searchStr with
  | none => .error .regexError
  | some pattern => .ok pattern

/-- `countTargetOccurrences` with a regular expression: behind each match it goes on. -/
def countRegexOccurrences (pattern : engine.Pattern) : Nat → Bytes → Except Abort Nat
  | 0, _ => .error (.fault .endlessLoop)
  | fuel + 1, str => do
    match (← (engine.regexSearch pattern str).mapError Abort.raise) with
    | none => return 0
    | some range => do
      let count ← countRegexOccurrences pattern fuel (str.drop range.stop)
      return count + 1

/-- The closure of `countCommandFunc`. -/
def countFunc (target : SearchTarget) : Except Abort (Nat → Bytes → Except Abort Nat) := do
  if target.regex then
    let pattern ← (target.compile engine).mapError Abort.raise
    return countRegexOccurrences engine pattern
  else return countTargetOccurrences target.searcher

/-- The closure of `findCommandFunc`. -/
def findFunc (target : SearchTarget) : Except Exception (Bytes → Except Exception Bool) := do
  if target.regex then
    let pattern ← target.compile engine
    return fun str => engine.regexMatch pattern str
  else return fun str => .ok (decide (target.searcher str ≠ str.length))

/-- The command and then its closure on one message. -/
def occurrences (target : SearchTarget) (fuel : Nat) (message : Bytes) : Except Abort Nat := do
  let count ← target.countFunc engine
  count fuel message

def selects (target : SearchTarget) (message : Bytes) : Except Exception Bool := do
  let find ← target.findFunc engine
  find message

/-- A pattern, if one is searched for, matches the whole message or no part of it. -/
def WholeOrNothing (target : SearchTarget) (message : Bytes) : Prop :=
  target.regex = true → ∀ pattern, engine.compile target.searchStr = some pattern →
    engine.Matches pattern message (View.whole message) ∨ ∀ range, ¬ engine.Matches pattern message range

end SearchTarget

/-- More turns than the loop takes make no difference. -/
theorem countTargetOccurrences_mono {α : Type} {searcher : List α → Nat} {fuel : Nat} {str : List α} {count : Nat}
    (counted : countTargetOccurrences searcher fuel str = .ok count) (more : Nat) :
    countTargetOccurrences searcher (fuel + more) str = .ok count := by
  induction fuel generalizing str count with
  | zero => cases counted
  | succ fuel ih =>
    rw [Nat.add_right_comm]
    unfold countTargetOccurrences at counted ⊢
    split at counted
    · next missing => rwa [if_pos missing]
    · next hit =>
      obtain ⟨later, rest, counted⟩ := except_bind_eq_ok.mp counted
      rw [if_neg hit, ih rest]
      exact counted

/-- At least one occurrence is counted where the first search finds one. -/
theorem one_le_countTargetOccurrences {α : Type} {searcher : List α → Nat} {fuel : Nat} {str : List α}
    {count : Nat} (counted : countTargetOccurrences searcher fuel str = .ok count) :
    1 ≤ count ↔ searcher str ≠ str.length := by
  cases fuel with
  | zero => cases counted
  | succ fuel =>
    unfold countTargetOccurrences at counted
    split at counted
    · next missing =>
      cases counted
      simp [missing]
    · next hit =>
      obtain ⟨more, -, counted⟩ := except_bind_eq_ok.mp counted
      cases counted
      simp [hit]

namespace SearchTarget

variable {engine : RegexEngine}

theorem one_le_countRegexOccurrences {pattern : engine.Pattern} {fuel : Nat} {str : Bytes} {count : Nat}
    (counted : countRegexOccurrences engine pattern fuel str = .ok count) :
    1 ≤ count ↔ ∃ range, engine.Matches pattern str range := by
  cases fuel with
  | zero => cases counted
  | succ fuel =>
    obtain ⟨found, searched, counted⟩ := except_bind_eq_ok.mp counted
    rw [mapError_eq_ok] at searched
    cases found with
    | none =>
      cases counted
      simp [engine.regexSearch_none searched]
    | some range =>
      obtain ⟨more, -, counted⟩ := except_bind_eq_ok.mp counted
      cases counted
      simpa using ⟨range, engine.regexSearch_some searched⟩

variable {target : SearchTarget} {message : Bytes} {selected : Bool} {fuel count : Nat}

theorem agree_literal (literal : target.regex = false) (found : target.selects engine message = .ok selected)
    (counted : target.occurrences engine fuel message = .ok count) : selected = true ↔ 1 ≤ count := by
  simp only [selects, findFunc, literal, occurrences, countFunc, Bool.false_eq_true, ↓reduceIte] at found counted
  cases found
  rw [one_le_countTargetOccurrences counted, decide_eq_true_iff]

/-- With a regular expression, one searches where the other matches. -/
theorem agree_regex (regex : target.regex = true) (found : target.selects engine message = .ok selected)
    (counted : target.occurrences engine fuel message = .ok count) :
    ∃ pattern, engine.compile target.searchStr = some pattern ∧
      (selected = true ↔ engine.Matches pattern message (View.whole message)) ∧
      (1 ≤ count ↔ ∃ range, engine.Matches pattern message range) := by
  simp only [selects, findFunc, occurrences, countFunc, regex, ↓reduceIte, compile] at found counted
  cases compiled : engine.compile target.searchStr with
  | none =>
    rw [compiled] at found
    cases found
  | some pattern =>
    simp only [compiled] at found counted
    refine ⟨pattern, rfl, ?_, one_le_countRegexOccurrences counted⟩
    exact engine.regexMatch_iff found

/-- `find` selects what `count` counts exactly for targets that match everything or nothing. -/
theorem selects_iff_counted_iff (engine : RegexEngine) (target : SearchTarget) (message : Bytes)
    (found : target.selects engine message = .ok selected)
    (counted : target.occurrences engine fuel message = .ok count) :
    (selected = true ↔ 1 ≤ count) ↔ target.WholeOrNothing engine message := by
  by_cases regex : target.regex = true
  · obtain ⟨pattern, compiled, selects_iff, counted_iff⟩ := agree_regex regex found counted
    rw [selects_iff, counted_iff]
    constructor
    · intro same _ other compiled'
      obtain rfl : pattern = other := Option.some.inj (compiled.symm.trans compiled')
      by_cases part : ∃ range, engine.Matches pattern message range
      · exact .inl (same.mpr part)
      · exact .inr (not_exists.mp part)
    · intro condition
      rcases condition regex pattern compiled with whole | nothing
      · exact iff_of_true whole ⟨_, whole⟩
      · exact iff_of_false (nothing _) (not_exists.mpr nothing)
  · have literal : target.regex = false := by simpa using regex
    exact iff_of_true (agree_literal literal found counted) fun set => absurd set regex

end SearchTarget

/-- Patterns of letters, which match themselves and nothing else. -/
def letterRegex : RegexEngine where
  Pattern := Bytes
  compile text := if text.all fun c => 97 ≤ tolower c && tolower c ≤ 122 then some text else none
  Matches pattern text range := range.Inside text ∧ range.text text = pattern
  regexMatch pattern text := .ok (decide (text = pattern))
  regexSearch pattern text := .ok ((findText pattern text).map fun pos => ⟨pos, pattern.length⟩)
  inside := And.left
  regexMatch_iff := by
    rintro pattern text matched ⟨⟩
    simp [View.inside_whole]
  regexSearch_some := by
    intro pattern text range found
    obtain ⟨pos, searched, rfl⟩ := Option.map_eq_some_iff.mp (Except.ok.inj found)
    obtain ⟨before, rest, rfl, rfl⟩ := findText_split searched
    refine ⟨?_, ?_⟩
    · simp [View.Inside]
    · simp [View.text]
  regexSearch_none := by
    rintro pattern text missing range ⟨inside, same⟩
    have nowhere := ne_of_findText_none (Option.map_eq_none_iff.mp (Except.ok.inj missing))
      (text.take range.start) ((text.drop range.start).drop range.size)
    apply nowhere
    rw [← same, View.text, List.append_assoc, List.take_append_drop, List.take_append_drop]

namespace SearchTarget

/-- A word that is the whole message. -/
theorem selects_iff_counted_iff_word :
    (true = true ↔ 1 ≤ 1) ↔ WholeOrNothing letterRegex ⟨ascii "NaM", false, true⟩ (ascii "NaM") := by
  have found : selects letterRegex ⟨ascii "NaM", false, true⟩ (ascii "NaM") = .ok true := rfl
  have counted : occurrences letterRegex ⟨ascii "NaM", false, true⟩ 2 (ascii "NaM") = .ok 1 := rfl
  exact selects_iff_counted_iff letterRegex ⟨ascii "NaM", false, true⟩ (ascii "NaM") found counted

/-- A word in a message: counted, and not found. -/
theorem partial_match_not_selected :
    ¬ ∀ (engine : RegexEngine) (target : SearchTarget) (message : Bytes) (selected : Bool) (fuel count : Nat),
      target.selects engine message = .ok selected → target.occurrences engine fuel message = .ok count →
        (selected = true ↔ 1 ≤ count) := by
  intro agree
  have same := agree letterRegex ⟨ascii "NaM", false, true⟩ (ascii "hello NaM") false 2 1 rfl rfl
  simp at same

end SearchTarget

end SaivBot
