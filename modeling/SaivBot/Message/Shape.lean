import SaivBot.Message.Parsing

/-! What a line says: an origin, a command, and the arguments behind the command.

This is the reading of a line that the parser is compared with. It is total and
knows no views; where a line leaves something out it says what stands in.
-/

set_option autoImplicit false

namespace SaivBot
open StringView

def StartsColon (text : Bytes) : Prop := ∃ tail, text = Byte.colon :: tail

theorem startsColon_iff (text : Bytes) : StartsColon text ↔ text.head? = some Byte.colon := by
  cases text with
  | nil => simp [StartsColon]
  | cons c tail => simp [StartsColon]

instance (text : Bytes) : Decidable (StartsColon text) := decidable_of_iff _ (startsColon_iff text).symm

/-- A command or a middle parameter: it cannot be confused with a separator or a trailing part. -/
structure IsWord (word : Bytes) : Prop where
  nonempty : word ≠ []
  clean : Byte.space ∉ word
  start : word.head? ≠ some Byte.colon

theorem IsWord.noColon {word : Bytes} (isWord : IsWord word) : ¬ StartsColon word :=
  fun colon => isWord.start ((startsColon_iff word).mp colon)

theorem IsWord.append_noColon {word : Bytes} (isWord : IsWord word) (tail : Bytes) :
    ¬ StartsColon (word ++ tail) := by
  obtain ⟨c, rest, rfl⟩ := List.exists_cons_of_ne_nil isWord.nonempty
  rintro ⟨more, same⟩
  exact isWord.noColon ⟨rest, by rw [(List.cons.inj same).1]⟩

/-- A text is one word, or it is split at its first space. -/
theorem split_space (text : Bytes) :
    Byte.space ∉ text ∨ ∃ word tail, text = word ++ Byte.space :: tail ∧ Byte.space ∉ word := by
  by_cases member : Byte.space ∈ text
  · obtain ⟨word, tail, same, clean⟩ := List.eq_append_cons_of_mem member
    exact Or.inr ⟨word, tail, same, clean⟩
  · exact Or.inl member

theorem split_unique {word tail word' tail' : Bytes} (clean : Byte.space ∉ word)
    (clean' : Byte.space ∉ word') (same : word ++ Byte.space :: tail = word' ++ Byte.space :: tail') :
    word = word' ∧ tail = tail' := by
  have found := IRCMessage.findSpace_append clean tail
  rw [same, IRCMessage.findSpace_append clean'] at found
  have length : word.length = word'.length := (Option.some.inj found).symm
  obtain ⟨front, behind⟩ := List.append_inj same length
  exact ⟨front, (List.cons.inj behind).2⟩

/-! The arguments. -/

/-- Parameters and body, with `seen` of the current parameter behind us. -/
def readArguments (seen : Bytes) : Bytes → List Bytes × Bytes
  | [] => (if seen = [] then [] else [seen], [])
  | c :: rest =>
    if seen = [] ∧ c = Byte.colon then ([], rest)
    else if c = Byte.space then (seen :: (readArguments [] rest).1, (readArguments [] rest).2)
    else readArguments (seen ++ [c]) rest

def splitArguments (text : Bytes) : List Bytes × Bytes := readArguments [] text

theorem readArguments_word {seen word : Bytes} (clean : Byte.space ∉ word)
    (start : seen = [] → word.head? ≠ some Byte.colon) (tail : Bytes) :
    readArguments seen (word ++ Byte.space :: tail) =
      ((seen ++ word) :: (splitArguments tail).1, (splitArguments tail).2) := by
  induction word generalizing seen with
  | nil =>
    have notColon : Byte.space ≠ Byte.colon := by decide
    simp [readArguments, notColon, splitArguments]
  | cons c word ih =>
    simp only [List.mem_cons, not_or] at clean
    -- Inside a word a colon is a byte like any other.
    have notColon : ¬ (seen = [] ∧ c = Byte.colon) := fun both => start both.1 (by simp [both.2])
    have next := @ih (seen ++ [c]) clean.2 (by simp)
    rw [List.append_assoc, List.singleton_append] at next
    rw [List.cons_append, readArguments, if_neg notColon, if_neg (Ne.symm clean.1), next]

theorem readArguments_last {seen word : Bytes} (clean : Byte.space ∉ word)
    (start : seen = [] → word.head? ≠ some Byte.colon) (nonempty : seen ++ word ≠ []) :
    readArguments seen word = ([seen ++ word], []) := by
  induction word generalizing seen with
  | nil =>
    rw [List.append_nil] at nonempty ⊢
    rw [readArguments, if_neg nonempty]
  | cons c word ih =>
    simp only [List.mem_cons, not_or] at clean
    have notColon : ¬ (seen = [] ∧ c = Byte.colon) := fun both => start both.1 (by simp [both.2])
    have next := @ih (seen ++ [c]) clean.2 (by simp) (by simp)
    rw [List.append_assoc, List.singleton_append] at next
    rw [readArguments, if_neg notColon, if_neg (Ne.symm clean.1), next]

@[simp] theorem splitArguments_nil : splitArguments [] = ([], []) := rfl

@[simp] theorem splitArguments_colon (body : Bytes) : splitArguments (Byte.colon :: body) = ([], body) := by
  simp [splitArguments, readArguments]

theorem splitArguments_word {word : Bytes} (clean : Byte.space ∉ word)
    (start : word.head? ≠ some Byte.colon) (tail : Bytes) :
    splitArguments (word ++ Byte.space :: tail) =
      (word :: (splitArguments tail).1, (splitArguments tail).2) :=
  readArguments_word clean (fun _ => start) tail

theorem splitArguments_last {word : Bytes} (isWord : IsWord word) : splitArguments word = ([word], []) :=
  readArguments_last isWord.clean (fun _ => isWord.start) isWord.nonempty

/-- A parameter without a name stands in front of a space. -/
theorem splitArguments_space (tail : Bytes) :
    splitArguments (Byte.space :: tail) = ([] :: (splitArguments tail).1, (splitArguments tail).2) :=
  @splitArguments_word [] (by simp) (by simp) tail

/-- One case for each way the arguments can begin. -/
theorem arguments_cases (text : Bytes) :
    text = [] ∨ StartsColon text ∨ IsWord text ∨
      ∃ word tail, text = word ++ Byte.space :: tail ∧ Byte.space ∉ word ∧ word.head? ≠ some Byte.colon := by
  by_cases nonempty : text = []
  · exact Or.inl nonempty
  by_cases colon : StartsColon text
  · exact Or.inr (Or.inl colon)
  rcases split_space text with clean | ⟨word, tail, rfl, clean⟩
  · exact Or.inr (Or.inr (Or.inl ⟨nonempty, clean, fun head => colon ((startsColon_iff text).mpr head)⟩))
  · refine Or.inr (Or.inr (Or.inr ⟨word, tail, rfl, clean, fun head => colon ?_⟩))
    obtain ⟨rest, rfl⟩ := (startsColon_iff word).mpr head
    exact ⟨rest ++ Byte.space :: tail, rfl⟩

theorem splitArguments_params_nil (text : Bytes) :
    (splitArguments text).1 = [] ↔ text = [] ∨ StartsColon text := by
  rcases arguments_cases text with rfl | ⟨tail, rfl⟩ | word | ⟨word, tail, rfl, clean, start⟩
  · simp
  · simp [StartsColon]
  · simp [splitArguments_last word, word.nonempty, word.noColon]
  · rw [splitArguments_word clean start, startsColon_iff]
    cases word with
    | nil => simp [show Byte.space ≠ Byte.colon by decide]
    | cons c word => simpa using start

theorem splitArguments_nameless {text : Bytes} (nameless : (splitArguments text).1.head? = some []) :
    ∃ tail, text = Byte.space :: tail := by
  rcases arguments_cases text with rfl | ⟨tail, rfl⟩ | word | ⟨word, tail, rfl, clean, start⟩
  · simp at nameless
  · simp at nameless
  · rw [splitArguments_last word] at nameless
    exact absurd (Option.some.inj nameless) word.nonempty
  · rw [splitArguments_word clean start] at nameless
    exact ⟨tail, by rw [Option.some.inj nameless, List.nil_append]⟩

/-- One of the words begins with a colon: there is a trailing part, be it an empty one. -/
def HasTrailing (text : Bytes) : Prop := ∃ word ∈ text.splitOn Byte.space, StartsColon word

instance (text : Bytes) : Decidable (HasTrailing text) := inferInstanceAs (Decidable (∃ _ ∈ _, _))

theorem hasTrailing_of_clean {text : Bytes} (clean : Byte.space ∉ text) : HasTrailing text ↔ StartsColon text := by
  rw [HasTrailing, List.splitOn_eq_singleton clean]
  simp

theorem hasTrailing_word {word : Bytes} (clean : Byte.space ∉ word) (tail : Bytes) :
    HasTrailing (word ++ Byte.space :: tail) ↔ StartsColon word ∨ HasTrailing tail := by
  rw [HasTrailing, List.splitOn_append_cons_self_of_not_mem clean, HasTrailing]
  simp

@[simp] theorem hasTrailing_nil : ¬ HasTrailing [] := by
  rw [hasTrailing_of_clean (by simp)]
  simp [StartsColon]

@[simp] theorem hasTrailing_colon (body : Bytes) : HasTrailing (Byte.colon :: body) := by
  rcases split_space body with clean | ⟨word, tail, rfl, clean⟩
  · exact (hasTrailing_of_clean (by simpa using ⟨by decide, clean⟩)).mpr ⟨body, rfl⟩
  · have clean' : Byte.space ∉ Byte.colon :: word := by simpa using ⟨by decide, clean⟩
    exact (hasTrailing_word clean' tail).mpr (.inl ⟨word, rfl⟩)

/-! The command and the origin. -/

/-- Where the command ends and its arguments begin. -/
inductive CommandShape (text : Bytes) : Bytes → Bytes → Prop where
  /-- A lone word is the command and its own arguments. -/
  | lone : Byte.space ∉ text → CommandShape text text text
  | spaced {word tail : Bytes} : text = word ++ Byte.space :: tail → Byte.space ∉ word →
      CommandShape text word tail

/-- How a line splits into the reported nick, the command and the arguments. -/
inductive LineShape (line : Bytes) : Bytes → Bytes → Bytes → Prop where
  | plain {command arguments : Bytes} : ¬ StartsColon line → CommandShape line command arguments →
      LineShape line [] command arguments
  | origin {word tail command arguments : Bytes} :
      line = Byte.colon :: word ++ Byte.space :: tail → Byte.space ∉ word → tail ≠ [] →
      CommandShape tail command arguments →
      LineShape line (IRCMessage.maskNick (word ++ [Byte.space])) command arguments
  | originOnly {word : Bytes} : line = Byte.colon :: word ++ [Byte.space] → Byte.space ∉ word →
      LineShape line (IRCMessage.maskNick (word ++ [Byte.space])) [] []
  /-- Without a space nothing is removed: the origin is scanned again as the command. -/
  | lone {word : Bytes} : line = Byte.colon :: word → Byte.space ∉ word →
      LineShape line (IRCMessage.maskNick word) line line

/-- The origin of a line, with the nick the parser reports for it. -/
inductive OriginOf : Bytes → Bytes → Prop where
  | none : OriginOf [] []
  | some {word : Bytes} : Byte.space ∉ word →
      OriginOf (Byte.colon :: word ++ [Byte.space]) (IRCMessage.maskNick (word ++ [Byte.space]))

/-- The line is an origin with this nick, this command and a space, and these arguments. -/
def Spells (nick command arguments line : Bytes) : Prop :=
  ∃ origin, OriginOf origin nick ∧ line = origin ++ command ++ Byte.space :: arguments

theorem CommandShape.eq_of_spaced {text word tail command arguments : Bytes}
    (shape : CommandShape text command arguments) (split : text = word ++ Byte.space :: tail)
    (clean : Byte.space ∉ word) : command = word ∧ arguments = tail := by
  cases shape with
  | lone single =>
    rw [split] at single
    exact absurd (by simp) single
  | spaced split' clean' =>
    rw [split] at split'
    obtain ⟨rfl, rfl⟩ := split_unique clean clean' split'
    exact ⟨rfl, rfl⟩

theorem LineShape.plain_inv {line nick command arguments : Bytes}
    (shape : LineShape line nick command arguments) (plain : ¬ StartsColon line) :
    nick = [] ∧ CommandShape line command arguments := by
  cases shape with
  | plain _ shape => exact ⟨rfl, shape⟩
  | origin split | originOnly split | lone split => exact absurd ⟨_, split⟩ plain

theorem LineShape.origin_inv {line nick command arguments word tail : Bytes}
    (shape : LineShape line nick command arguments)
    (split : line = Byte.colon :: word ++ Byte.space :: tail) (clean : Byte.space ∉ word)
    (more : tail ≠ []) :
    nick = IRCMessage.maskNick (word ++ [Byte.space]) ∧ CommandShape tail command arguments := by
  cases shape with
  | plain plain _ => exact absurd ⟨_, split⟩ plain
  | origin split' clean' more' shape =>
    rw [split, List.cons_append, List.cons_append, List.cons.injEq] at split'
    obtain ⟨rfl, rfl⟩ := split_unique clean clean' split'.2
    exact ⟨rfl, shape⟩
  | originOnly split' clean' =>
    rw [split, List.cons_append, List.cons_append, List.cons.injEq] at split'
    obtain ⟨rfl, rfl⟩ := split_unique clean clean' split'.2
    exact absurd rfl more
  | lone split' clean' =>
    rw [split, List.cons_append, List.cons.injEq] at split'
    exact absurd (by rw [← split'.2]; simp) clean'

/-- A line spelled out is read as it is spelled. -/
theorem LineShape.eq_of_spells {line nick nick' command command' arguments arguments' : Bytes}
    (shape : LineShape line nick' command' arguments') (isWord : IsWord command)
    (spells : Spells nick command arguments line) :
    nick' = nick ∧ command' = command ∧ arguments' = arguments := by
  obtain ⟨origin, named, split⟩ := spells
  cases named with
  | none =>
    rw [List.nil_append] at split
    have plain : ¬ StartsColon line := by
      rw [split]
      exact isWord.append_noColon _
    obtain ⟨rfl, commandShape⟩ := shape.plain_inv plain
    exact ⟨rfl, commandShape.eq_of_spaced split isWord.clean⟩
  | @some mask clean =>
    have split' : line = Byte.colon :: mask ++ Byte.space :: (command ++ Byte.space :: arguments) := by
      rw [split]
      simp
    obtain ⟨rfl, commandShape⟩ := shape.origin_inv split' clean (by simp)
    exact ⟨rfl, commandShape.eq_of_spaced rfl isWord.clean⟩

/-- A word that is reported as the command was spelled out, or ends the line. -/
theorem LineShape.spells {line nick command arguments : Bytes} (shape : LineShape line nick command arguments)
    (isWord : IsWord command) : arguments = command ∨ Spells nick command arguments line := by
  cases shape with
  | plain _ shape =>
    cases shape with
    | lone _ => exact Or.inl rfl
    | spaced split _ => exact Or.inr ⟨[], .none, split⟩
  | origin split clean _ shape =>
    cases shape with
    | lone _ => exact Or.inl rfl
    | spaced split' _ => exact Or.inr ⟨_, .some clean, by rw [split, split']; simp⟩
  | originOnly => exact absurd rfl isWord.nonempty
  | lone split => exact absurd ⟨_, split⟩ isWord.noColon

end SaivBot
