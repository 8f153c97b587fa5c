import SaivBot.Bytes
import SaivBot.Fault
import SaivBot.Text.Lines

/-! The receive buffer: lines cut out of the byte stream, whatever its chunking.

`parseBuffer` looks for the first carriage return or newline and removes two
bytes there. That is the CR LF pair only where the two bytes do not occur alone
and the network has not cut between them.
-/

set_option autoImplicit false

namespace SaivBot
open StringView DelimitedLines

namespace ReadBuffer

/-- One of the characters of `cr`, which `find_first_of` takes as a set. -/
def isLineBreak (c : Byte) : Bool := c == Byte.carriageReturn || c == Byte.newline

/-- The loop of `parseBuffer`: the lines it appends and what it leaves in `m_buffer`. An iteration
removes two bytes, so the size of the buffer is enough fuel. -/
def parseLines : Nat → Bytes → Except Fault (List Bytes × Bytes)
  | 0, buffer => return ([], buffer)
  | fuel + 1, buffer =>
    match findChar isLineBreak buffer with
    | none => return ([], buffer)
    | some n =>
      -- Two bytes are erased, whatever the second one is.
      if n + crlf.length ≤ buffer.length then do
        let (lines, rest) ← parseLines fuel (buffer.drop (n + crlf.length))
        return (buffer.take n :: lines, rest)
      else throw .eraseRange

def parseBuffer (buffer : Bytes) : Except Fault (List Bytes × Bytes) :=
  parseLines buffer.length buffer

/-- The text part of `onRead`: `m_buffer.append` and `parseBuffer`, on the lines appended so far and
the buffer. -/
def onRead (state : List Bytes × Bytes) (chunk : Bytes) : Except Fault (List Bytes × Bytes) := do
  let (lines, rest) ← parseBuffer (state.2 ++ chunk)
  return (state.1 ++ lines, rest)

def onReads (state : List Bytes × Bytes) (chunks : List Bytes) : Except Fault (List Bytes × Bytes) :=
  chunks.foldlM onRead state

abbrev splitLines : Bytes → List Bytes × Bytes := splitPairs Byte.carriageReturn Byte.newline
abbrev NoLineBreak : Bytes → Prop := Clean Byte.carriageReturn Byte.newline

/-- Carriage return and newline occur in the chunk only as pairs, each pair whole. -/
abbrev WholePairs : Bytes → Prop := Paired Byte.carriageReturn Byte.newline

/-- A line with its end, in front of whole pairs. -/
theorem wholePairs_line {line rest : Bytes} (clean : NoLineBreak line) (paired : WholePairs rest) :
    WholePairs (line ++ (crlf ++ rest)) :=
  clean.paired_append (.pair paired)

theorem isLineBreak_iff (c : Byte) :
    isLineBreak c = true ↔ c = Byte.carriageReturn ∨ c = Byte.newline := by
  simp [isLineBreak]

theorem noLineBreak_iff (text : Bytes) : NoLineBreak text ↔ ∀ c ∈ text, isLineBreak c = false := by
  refine forall_congr' fun c => imp_congr_right fun _ => ?_
  rw [← Bool.not_eq_true, isLineBreak_iff, not_or]

/-- What the loop can meet: no line break, one as the very last byte, or one with a byte behind it. -/
inductive Shape : Bytes → Prop where
  | clean {text : Bytes} : NoLineBreak text → Shape text
  | last {line : Bytes} {c : Byte} : NoLineBreak line → isLineBreak c = true → Shape (line ++ [c])
  | more {line : Bytes} {c d : Byte} {tail : Bytes} : NoLineBreak line → isLineBreak c = true →
      Shape tail → Shape (line ++ c :: d :: tail)

theorem shape (text : Bytes) : Shape text := by
  induction h : text.length using Nat.strongRecOn generalizing text with
  | ind size ih =>
    subst h
    cases found : findChar isLineBreak text with
    | none => exact .clean ((noLineBreak_iff text).mpr (findChar_eq_none.mp found))
    | some n =>
      obtain ⟨line, c, rest, rfl, -, hit, misses⟩ := findChar_split found
      have clean : NoLineBreak line := (noLineBreak_iff line).mpr misses
      cases rest with
      | nil => exact .last clean hit
      | cons d tail =>
        refine .more clean hit (ih tail.length ?_ tail rfl)
        simp only [List.length_append, List.length_cons]
        omega

theorem parseLines_clean {text : Bytes} (clean : NoLineBreak text) (fuel : Nat) :
    parseLines fuel text = .ok ([], text) := by
  cases fuel with
  | zero => rfl
  | succ fuel =>
    simp only [parseLines, findChar_eq_none.mpr ((noLineBreak_iff text).mp clean)]
    rfl

theorem parseLines_last {line : Bytes} {c : Byte} (clean : NoLineBreak line)
    (hit : isLineBreak c = true) (fuel : Nat) :
    parseLines (fuel + 1) (line ++ [c]) = .error .eraseRange := by
  have short : ¬ line.length + crlf.length ≤ (line ++ [c]).length := by simp [crlf]
  simp only [parseLines, findChar_append ((noLineBreak_iff line).mp clean) hit, short, ↓reduceIte]
  rfl

theorem parseLines_more {line : Bytes} {c : Byte} (clean : NoLineBreak line)
    (hit : isLineBreak c = true) (d : Byte) (tail : Bytes) (fuel : Nat) :
    parseLines (fuel + 1) (line ++ c :: d :: tail) =
      (parseLines fuel tail).map fun (lines, rest) => (line :: lines, rest) := by
  have long : line.length + crlf.length ≤ (line ++ c :: d :: tail).length := by simp [crlf]
  have behind : (line ++ c :: d :: tail).drop (line.length + crlf.length) = tail := by
    simp [crlf, List.drop_append]
  simp only [parseLines, findChar_append ((noLineBreak_iff line).mp clean) hit, long, ↓reduceIte, behind,
    List.take_left]
  cases parseLines fuel tail with
  | error fault => rfl
  | ok result => rfl

/-- A loop that gets through has cut the first line and gets through the rest. -/
theorem parseLines_more_ok {line : Bytes} {c d : Byte} {tail : Bytes} (clean : NoLineBreak line)
    (hit : isLineBreak c = true) {fuel : Nat} (enough : (line ++ c :: d :: tail).length ≤ fuel)
    {lines : List Bytes} {rest : Bytes} (parsed : parseLines fuel (line ++ c :: d :: tail) = .ok (lines, rest)) :
    ∃ less others, fuel = less + 1 ∧ tail.length ≤ less ∧ parseLines less tail = .ok (others, rest) ∧
      lines = line :: others := by
  simp only [List.length_append, List.length_cons] at enough
  obtain ⟨less, rfl⟩ : ∃ n, fuel = n + 1 := ⟨fuel - 1, by omega⟩
  rw [parseLines_more clean hit] at parsed
  cases inner : parseLines less tail with
  | error fault =>
    rw [inner] at parsed
    cases parsed
  | ok result =>
    rw [inner] at parsed
    cases parsed
    exact ⟨less, _, rfl, by omega, inner, rfl⟩

/-- No loop with fuel gets past a line break at the end. -/
theorem parseLines_last_ne {line : Bytes} {c : Byte} (clean : NoLineBreak line) (hit : isLineBreak c = true)
    {fuel : Nat} (enough : (line ++ [c]).length ≤ fuel) (result : List Bytes × Bytes) :
    parseLines fuel (line ++ [c]) ≠ .ok result := by
  intro parsed
  rw [List.length_append, List.length_singleton] at enough
  obtain ⟨less, rfl⟩ : ∃ n, fuel = n + 1 := ⟨fuel - 1, by omega⟩
  rw [parseLines_last clean hit] at parsed
  cases parsed

/-- A paired text is split as the delimiter splits it. Fuel is never the reason to stop. -/
theorem parseLines_paired {text : Bytes} (paired : WholePairs text) {fuel : Nat}
    (enough : text.length ≤ fuel) : parseLines fuel text = .ok (splitLines text) := by
  induction shape text generalizing fuel with
  | clean clean => rw [parseLines_clean clean, splitLines, splitPairs_clean clean]
  | last clean hit =>
    obtain ⟨_, tail, nothing, _⟩ := (clean.paired_append_iff.mp paired).head ((isLineBreak_iff _).mp hit)
    cases nothing
  | more clean hit _ ih =>
    obtain ⟨rfl, _, rest, paired'⟩ := (clean.paired_append_iff.mp paired).head ((isLineBreak_iff _).mp hit)
    cases rest
    simp only [List.length_append, List.length_cons] at enough
    obtain ⟨fuel, rfl⟩ : ∃ n, fuel = n + 1 := ⟨fuel - 1, by omega⟩
    rw [parseLines_more clean hit, ih paired' (by omega), splitLines, splitPairs_line clean]
    rfl

/-- Whatever the loop cuts out contains no line break, and neither does what it leaves. -/
theorem parseLines_clean_result {text : Bytes} {fuel : Nat} (enough : text.length ≤ fuel)
    {lines : List Bytes} {rest : Bytes} (parsed : parseLines fuel text = .ok (lines, rest)) :
    (∀ line ∈ lines, NoLineBreak line) ∧ NoLineBreak rest := by
  induction shape text generalizing fuel lines with
  | clean clean =>
    rw [parseLines_clean clean] at parsed
    cases parsed
    exact ⟨by simp, clean⟩
  | last clean hit => exact absurd parsed (parseLines_last_ne clean hit enough _)
  | more clean hit _ ih =>
    obtain ⟨less, others, -, enough, inner, rfl⟩ := parseLines_more_ok clean hit enough parsed
    obtain ⟨othersClean, last⟩ := ih enough inner
    exact ⟨List.forall_mem_cons.mpr ⟨clean, othersClean⟩, last⟩

/-- In a paired stream the loop succeeds only at a boundary that does not cut a pair. -/
theorem parseLines_boundary {text later : Bytes} {fuel : Nat} (enough : text.length ≤ fuel)
    (paired : WholePairs (text ++ later)) {lines : List Bytes} {rest : Bytes}
    (parsed : parseLines fuel text = .ok (lines, rest)) :
    WholePairs text ∧ WholePairs (rest ++ later) := by
  induction shape text generalizing fuel lines with
  | clean clean =>
    rw [parseLines_clean clean] at parsed
    cases parsed
    exact ⟨clean.paired, paired⟩
  | last clean hit => exact absurd parsed (parseLines_last_ne clean hit enough _)
  | more clean hit _ ih =>
    rw [List.append_assoc] at paired
    -- What the loop takes for a line break begins a pair, so the cut is a cut of the stream.
    obtain ⟨rfl, _, same, paired'⟩ := (clean.paired_append_iff.mp paired).head ((isLineBreak_iff _).mp hit)
    cases same
    obtain ⟨less, others, -, enough, inner, rfl⟩ := parseLines_more_ok clean hit enough parsed
    obtain ⟨first, after⟩ := ih enough paired' inner
    exact ⟨clean.paired_append (.pair first), after⟩

theorem onRead_ok {state next : List Bytes × Bytes} {chunk : Bytes}
    (read : onRead state chunk = .ok next) :
    ∃ lines, parseBuffer (state.2 ++ chunk) = .ok (lines, next.2) ∧ next.1 = state.1 ++ lines := by
  unfold onRead at read
  cases parsed : parseBuffer (state.2 ++ chunk) with
  | error fault => rw [parsed] at read; cases read
  | ok result =>
    rw [parsed] at read
    cases read
    exact ⟨result.1, rfl, rfl⟩

theorem onReads_cons {state final : List Bytes × Bytes} {chunk : Bytes} {chunks : List Bytes}
    (read : onReads state (chunk :: chunks) = .ok final) :
    ∃ next, onRead state chunk = .ok next ∧ onReads next chunks = .ok final := by
  unfold onReads at read
  rw [List.foldlM_cons] at read
  cases first : onRead state chunk with
  | error fault => rw [first] at read; cases read
  | ok next =>
    rw [first] at read
    exact ⟨next, rfl, read⟩

/-- Whole pairs in every chunk: the reads together split the stream. -/
theorem onReads_paired {chunks : List Bytes} (whole : ∀ chunk ∈ chunks, WholePairs chunk)
    {state : List Bytes × Bytes} (clean : NoLineBreak state.2) :
    onReads state chunks = .ok
      (state.1 ++ (splitLines (state.2 ++ chunks.flatten)).1, (splitLines (state.2 ++ chunks.flatten)).2) := by
  induction chunks generalizing state with
  | nil =>
    have split := splitPairs_clean clean
    simp only [onReads, List.foldlM_nil, List.flatten_nil, List.append_nil, splitLines, split]
    rfl
  | cons chunk chunks ih =>
    have paired : WholePairs (state.2 ++ chunk) := clean.paired_append (whole chunk (by simp))
    have parsed := parseLines_paired paired (Nat.le_refl _)
    have rest := (parseLines_clean_result (Nat.le_refl _) parsed).2
    have next := @ih (fun c member => whole c (by simp [member]))
      (state.1 ++ (splitLines (state.2 ++ chunk)).1, (splitLines (state.2 ++ chunk)).2) rest
    have first : onRead state chunk =
        .ok (state.1 ++ (splitLines (state.2 ++ chunk)).1, (splitLines (state.2 ++ chunk)).2) := by
      rw [onRead, parseBuffer, parsed]
      rfl
    -- The split of the stream resumes behind the chunk with what the buffer holds.
    have resumed := splitPairs_append (a := Byte.carriageReturn) (b := Byte.newline)
      (state.2 ++ chunk) chunks.flatten
    rw [onReads, List.foldlM_cons, first]
    refine next.trans ?_
    rw [List.flatten_cons, ← List.append_assoc, splitLines, resumed, List.append_assoc]

theorem onReads_clean_result {chunks : List Bytes} {state final : List Bytes × Bytes}
    (lines : ∀ line ∈ state.1, NoLineBreak line) (clean : NoLineBreak state.2)
    (read : onReads state chunks = .ok final) :
    (∀ line ∈ final.1, NoLineBreak line) ∧ NoLineBreak final.2 := by
  induction chunks generalizing state with
  | nil =>
    cases read
    exact ⟨lines, clean⟩
  | cons chunk chunks ih =>
    obtain ⟨next, first, rest⟩ := onReads_cons read
    obtain ⟨new, parsed, appended⟩ := onRead_ok first
    obtain ⟨newClean, restClean⟩ := parseLines_clean_result (Nat.le_refl _) parsed
    refine ih ?_ restClean rest
    intro line member
    rw [appended, List.mem_append] at member
    exact member.elim (lines line) (newClean line)

theorem onReads_boundary {chunks : List Bytes} {state final : List Bytes × Bytes}
    (clean : NoLineBreak state.2) (paired : WholePairs (state.2 ++ chunks.flatten))
    (read : onReads state chunks = .ok final) : ∀ chunk ∈ chunks, WholePairs chunk := by
  induction chunks generalizing state with
  | nil => simp
  | cons chunk chunks ih =>
    obtain ⟨next, first, rest⟩ := onReads_cons read
    obtain ⟨new, parsed, -⟩ := onRead_ok first
    rw [List.flatten_cons, ← List.append_assoc] at paired
    obtain ⟨here, later⟩ := parseLines_boundary (Nat.le_refl _) paired parsed
    have restClean := (parseLines_clean_result (Nat.le_refl _) parsed).2
    intro c member
    rcases List.mem_cons.mp member with rfl | member
    · exact clean.paired_append_iff.mp here
    · exact ih restClean later rest c member

/-- The reads split the stream at its CR LF pairs exactly when every chunk holds whole pairs only:
no stray carriage return or newline, and no boundary inside a pair. -/
theorem onReads_split_iff (chunks : List Bytes) :
    onReads ([], []) chunks = .ok (splitLines chunks.flatten) ↔ ∀ chunk ∈ chunks, WholePairs chunk := by
  have start : NoLineBreak (([], []) : List Bytes × Bytes).2 := by intro c member; cases member
  constructor
  · intro read
    obtain ⟨lines, rest⟩ := onReads_clean_result (by simp) start read
    exact onReads_boundary start (paired_of_split lines rest) read
  · intro whole
    simpa using onReads_paired whole start

/-- The chunks `PING CR` and `LF`: the first call erases one byte too many. -/
theorem cut_pair_erases_past_end :
    ¬ ∀ chunks : List Bytes, (∀ chunk ∈ chunks, chunk ≠ []) →
      onReads ([], []) chunks = .ok (splitLines chunks.flatten) := by
  intro splits
  have split := splits [ascii "PING\r", ascii "\n"] (by decide)
  have erased : onReads ([], []) [ascii "PING\r", ascii "\n"] = .error .eraseRange := by decide
  rw [erased] at split
  cases split

end ReadBuffer

end SaivBot
