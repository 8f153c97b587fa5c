import SaivBot.Logs.Placement
import SaivBot.Program

/-! Logs are read line by line.

What a line gives depends on its text alone, so a log that is cut between two lines gives
the entries of its parts, and a line that gives none leaves the others as they are.
-/

set_option autoImplicit false

namespace SaivBot
open StringView Program

/-- Nothing, or whole lines. -/
def WholeLines (text : Bytes) : Prop := text = [] ∨ ∃ front, text = front ++ [Byte.newline]

theorem WholeLines.behind {line rest : Bytes} (whole : WholeLines (line ++ Byte.newline :: rest)) :
    WholeLines rest := by
  rcases List.eq_nil_or_concat rest with rfl | ⟨front, last, rfl⟩
  · exact .inl rfl
  · rcases whole with empty | ⟨other, same⟩
    · simp at empty
    · rw [List.concat_eq_append, ← List.cons_append, ← List.append_assoc] at same
      obtain ⟨-, ends⟩ := List.append_inj' same rfl
      exact .inr ⟨front, by rw [List.concat_eq_append, ends]⟩

theorem WholeLines.eq_nil {text : Bytes} (whole : WholeLines text) (absent : Byte.newline ∉ text) : text = [] := by
  rcases whole with empty | ⟨front, rfl⟩
  · exact empty
  · simp at absent

namespace LineView

/-- The line in a log that has something in front of it. -/
def rebase (line : LineView) (base : Nat) : LineView where
  lineView := line.lineView.rebase 0 base
  timeView := line.timeView.rebase 0 base
  time := line.time
  nameView := line.nameView.rebase 0 base
  messageView := line.messageView.rebase 0 base

structure Inside (data : Bytes) (line : LineView) : Prop where
  whole : line.lineView.Inside data
  time : line.timeView.Inside data
  name : line.nameView.Inside data
  message : line.messageView.Inside data

@[simp] theorem rebase_zero (line : LineView) : line.rebase 0 = line := by
  simp only [rebase, View.rebase_zero]

theorem report_rebase (line : LineView) (front data : Bytes) :
    (line.rebase front.length).report (front ++ data) = line.report data := by
  simp only [report, rebase, View.text_rebase_append]

theorem Inside.report_append {data : Bytes} {line : LineView} (inside : line.Inside data) (behind : Bytes) :
    line.report (data ++ behind) = line.report data := by
  simp only [report, View.text_append inside.time, View.text_append inside.name, View.text_append inside.message]

end LineView

namespace LogParsing

/-- What is parsed from a line: its text decides, and every view lies in the log. -/
structure Local (parseLine : Bytes → View → View → Except ViewFault (Option LineView)) : Prop where
  moves : ∀ {data data' : Bytes} {lineView allView : View} {base : Nat},
    (allView.rebase 0 base).text data' = allView.text data →
      parseLine data' (lineView.rebase 0 base) (allView.rebase 0 base) =
        (parseLine data lineView allView).map (Option.map (·.rebase base))
  inside : ∀ {data : Bytes} {lineView allView : View} {line : LineView}, LineCut data lineView allView →
    parseLine data lineView allView = .ok (some line) → line.Inside data

section

variable {data data' : Bytes} {base : Nat}

/-- The view shows in one log what it shows in the other, moved. -/
def Mirrored (data data' : Bytes) (base : Nat) (view : View) : Prop :=
  (view.rebase 0 base).text data' = view.text data

theorem Mirrored.substr {view piece : View} (same : Mirrored data data' base view) {pos : Nat}
    {count : Option Nat} (cut : view.substr pos count = .ok piece) : Mirrored data data' base piece := by
  obtain ⟨-, rfl⟩ := View.substr_eq_ok.mp cut
  rw [Mirrored, ← View.slice_rebase]
  cases count with
  | none => rw [View.text_slice_none, View.text_slice_none, same]
  | some count => rw [View.text_slice_some, View.text_slice_some, same]

theorem Mirrored.removePrefix {view behind : View} (same : Mirrored data data' base view) {count : Nat}
    (cut : view.removePrefix count = .ok behind) : Mirrored data data' base behind := by
  obtain ⟨-, rfl⟩ := View.removePrefix_eq_ok.mp cut
  rw [Mirrored, ← View.drop_rebase, View.text_drop, View.text_drop, same]

/-- A cut is made at the same place in both. -/
theorem Mirrored.cutAt {view : View} {pos width : Nat} {count : Nat → Option Nat}
    {rest rest' : View → View → Except ViewFault (Option LineView)} (same : Mirrored data data' base view)
    (found : Option Nat)
    (behind : ∀ piece behind, Mirrored data data' base piece → Mirrored data data' base behind →
      rest' (piece.rebase 0 base) (behind.rebase 0 base) = (rest piece behind).map (Option.map (·.rebase base))) :
    cutAt (view.rebase 0 base) found pos count width rest' =
      (cutAt view found pos count width rest).map (Option.map (·.rebase base)) := by
  cases found with
  | none => rfl
  | some place =>
    simp only [LogParsing.cutAt, View.substr_rebase, View.removePrefix_rebase]
    cases cut : view.substr pos (count place) with
    | error fault => rfl
    | ok piece =>
      cases passed : view.removePrefix (place + width) with
      | error fault => rfl
      | ok others => exact behind piece others (same.substr cut) (same.removePrefix passed)

end

theorem gempirLine_local (date : DateParser) : Local (gempirLine date) where
  moves := by
    intro data data' lineView allView base same
    rw [gempirLine_eq, gempirLine_eq, same]
    refine Mirrored.cutAt same _ fun timeView behind time mirrored => ?_
    rw [mirrored]
    refine mirrored.cutAt _ fun channelView named _ mirrored => ?_
    rw [mirrored]
    refine mirrored.cutAt _ fun nameView messageView _ _ => ?_
    rw [time]
    cases TimeDetail.parseGempirTimeString date (timeView.text data) <;> rfl
  inside := by
    intro data lineView allView line cut read
    rw [gempirLine_eq] at read
    obtain ⟨timeView, behind, insideTime, insideBehind, read⟩ := cutAt_eq_some cut.insideAll read
    obtain ⟨channelView, named, -, insideNamed, read⟩ := cutAt_eq_some insideBehind read
    obtain ⟨nameView, messageView, insideName, insideMessage, read⟩ := cutAt_eq_some insideNamed read
    obtain ⟨time, -, rfl⟩ := dated_eq_some read
    exact ⟨cut.inside, insideTime, insideName, insideMessage⟩

theorem overrustleLine_local (date : DateParser) : Local (overrustleLine date) where
  moves := by
    intro data data' lineView allView base same
    rw [overrustleLine_eq, overrustleLine_eq, same]
    refine Mirrored.cutAt same _ fun timeView behind time mirrored => ?_
    rw [mirrored]
    refine mirrored.cutAt _ fun nameView messageView _ _ => ?_
    rw [time]
    cases TimeDetail.parseOverrustleTimeString date (timeView.text data) <;> rfl
  inside := by
    intro data lineView allView line cut read
    rw [overrustleLine_eq] at read
    obtain ⟨timeView, behind, insideTime, insideBehind, read⟩ := cutAt_eq_some cut.insideAll read
    obtain ⟨nameView, messageView, insideName, insideMessage, read⟩ := cutAt_eq_some insideBehind read
    obtain ⟨time, -, rfl⟩ := dated_eq_some read
    exact ⟨cut.inside, insideTime, insideName, insideMessage⟩

/-! The loop. -/

/-- The loop as it runs: without a round left it has not ended. -/
def scanRounds (parseLine : View → View → Except ViewFault (Option LineView)) (data : Bytes) :
    Nat → View → Option (Except ViewFault (List LineView))
  | 0, _ => none
  | rounds + 1, dataView =>
    if dataView.size = 0 then some (.ok [])
    else
      match findChar isNewline (dataView.text data) with
      | none => some (.ok [])
      | some crPos =>
        let round : Except ViewFault (Option LineView × View) := do
          let lineView ← dataView.substr 0 (some (crPos + 1))
          let allView ← dataView.substr 0 (some crPos)
          let entry ← parseLine lineView allView
          let dataView ← dataView.removePrefix (crPos + 1)
          return (entry, dataView)
        match round with
        | .error fault => some (.error fault)
        | .ok (entry, dataView) =>
          (scanRounds parseLine data rounds dataView).map fun lines => lines.map (entry.toList ++ ·)

section

variable {parseLine : View → View → Except ViewFault (Option LineView)} {data : Bytes} {view : View}

/-- The loop ends with what the scan reports. Each round makes the view shorter, so it has at most as many
rounds as the view has bytes, and one that finds nothing. -/
theorem scanRounds_eq (inside : view.Inside data) {fuel rounds : Nat} (enough : view.size ≤ fuel)
    (more : view.size < rounds) :
    scanRounds parseLine data rounds view = some (scanLines parseLine data fuel view) := by
  induction rounds generalizing view fuel with
  | zero => omega
  | succ rounds ih =>
    by_cases ended : Byte.newline ∈ view.text data
    · obtain ⟨line, rest, shape, clean⟩ := List.eq_append_cons_of_mem ended
      have length := View.length_text inside
      rw [shape, List.length_append, List.length_cons] at length
      obtain ⟨fuel, rfl⟩ : ∃ n, fuel = n + 1 := ⟨fuel - 1, by omega⟩
      have some_left : view.size ≠ 0 := by omega
      obtain ⟨insideRest, -⟩ := View.behind_word inside shape
      have size : (view.drop (line.length + 1)).size = view.size - (line.length + 1) := rfl
      have next := @ih _ insideRest fuel (by omega) (by omega)
      rw [scanLines_line inside shape clean, scanRounds, if_neg some_left, shape, findNewline_append clean]
      simp only [View.substr_of_le (Nat.zero_le _),
        View.removePrefix_of_le (show line.length + 1 ≤ view.size by omega), bind, Except.bind, pure, Except.pure]
      cases parseLine (view.slice 0 (some (line.length + 1))) (view.slice 0 (some line.length)) with
      | error fault => rfl
      | ok entry =>
        simp only [next, Option.map_some]
        cases scanLines parseLine data fuel (view.drop (line.length + 1)) <;> rfl
    · rw [scanLines_last ended, scanRounds, findNewline_none ended]
      exact ite_self _

/-- More fuel than the view has bytes changes nothing. -/
theorem scanLines_fuel (inside : view.Inside data) {fuel fuel' : Nat} (enough : view.size ≤ fuel)
    (enough' : view.size ≤ fuel') : scanLines parseLine data fuel view = scanLines parseLine data fuel' view := by
  have rounds := @scanRounds_eq parseLine data view inside fuel (view.size + 1) enough (Nat.lt_succ_self _)
  rw [scanRounds_eq inside enough' (Nat.lt_succ_self _)] at rounds
  exact (Option.some.inj rounds).symm

/-- What holds of the entry of each line holds of every entry. -/
theorem forall_scanLines {good : LineView → Prop}
    (each : ∀ {lineView allView : View} {line : LineView}, LineCut data lineView allView →
      parseLine lineView allView = .ok (some line) → good line)
    (inside : view.Inside data) {fuel : Nat} {lines : List LineView}
    (scanned : scanLines parseLine data fuel view = .ok lines) : ∀ line ∈ lines, good line := by
  induction fuel generalizing view lines with
  | zero =>
    cases scanned
    simp
  | succ fuel ih =>
    by_cases ended : Byte.newline ∈ view.text data
    · obtain ⟨front, rest, shape, clean⟩ := List.eq_append_cons_of_mem ended
      rw [scanLines_line inside shape clean] at scanned
      obtain ⟨entry, read, scanned⟩ := except_bind_eq_ok.mp scanned
      obtain ⟨others, scannedRest, scanned⟩ := except_bind_eq_ok.mp scanned
      cases scanned
      obtain ⟨insideRest, -⟩ := View.behind_word inside shape
      obtain ⟨cut, -⟩ := lineCut_front inside shape
      intro line member
      rcases List.mem_append.mp member with first | later
      · obtain rfl : entry = some line := Option.mem_toList.mp first
        exact each cut read
      · exact ih insideRest scannedRest line later
    · rw [scanLines_last ended] at scanned
      cases scanned
      simp

end

/-! Logs one behind the other. -/

variable {parseLine : Bytes → View → View → Except ViewFault (Option LineView)}

/-- A log that is scanned at another place gives the same lines, moved. -/
theorem scanLines_rebase (isLocal : Local parseLine) {data data' : Bytes} {base fuel : Nat} {view : View}
    (inside : view.Inside data) (inside' : (view.rebase 0 base).Inside data')
    (same : (view.rebase 0 base).text data' = view.text data) :
    scanLines (parseLine data') data' fuel (view.rebase 0 base) =
      (scanLines (parseLine data) data fuel view).map (List.map (·.rebase base)) := by
  induction fuel generalizing view with
  | zero => rfl
  | succ fuel ih =>
    by_cases ended : Byte.newline ∈ view.text data
    · obtain ⟨line, rest, shape, clean⟩ := List.eq_append_cons_of_mem ended
      obtain ⟨insideRest, textRest⟩ := View.behind_word inside shape
      obtain ⟨insideRest', textRest'⟩ := View.behind_word inside' (same.trans shape)
      obtain ⟨-, text, -⟩ := lineCut_front inside shape
      obtain ⟨-, text', -⟩ := lineCut_front inside' (same.trans shape)
      rw [View.drop_rebase] at insideRest' textRest'
      rw [View.slice_rebase] at text'
      have others := ih insideRest insideRest' (textRest'.trans textRest.symm)
      rw [scanLines_line inside' (same.trans shape) clean, scanLines_line inside shape clean, View.slice_rebase,
        View.slice_rebase, View.drop_rebase, isLocal.moves (text'.trans text.symm), others]
      cases parseLine data (view.slice 0 (some (line.length + 1))) (view.slice 0 (some line.length)) with
      | error fault => rfl
      | ok entry =>
        cases scanLines (parseLine data) data fuel (view.drop (line.length + 1)) with
        | error fault => rfl
        | ok lines => cases entry <;> rfl
    · rw [scanLines_last ended, scanLines_last (same ▸ ended)]
      rfl

/-- What is behind a log does not matter to its lines. -/
theorem parseLine_append (isLocal : Local parseLine) {a : Bytes} (b : Bytes) {lineView allView : View}
    (inside : allView.Inside a) : parseLine (a ++ b) lineView allView = parseLine a lineView allView := by
  have same : (allView.rebase 0 0).text (a ++ b) = allView.text a := by
    rw [View.rebase_zero, View.text_append inside]
  have moved := @Local.moves parseLine isLocal a (a ++ b) lineView allView 0 same
  rw [View.rebase_zero, View.rebase_zero] at moved
  rw [moved]
  cases parseLine a lineView allView with
  | error fault => rfl
  | ok entry => cases entry <;> simp [Except.map]

/-- The view that goes on to the end of the second log. -/
theorem through_text {a b : Bytes} {view : View} (stop : view.stop = a.length) :
    View.Inside ⟨view.start, view.size + b.length⟩ (a ++ b) ∧
      View.text ⟨view.start, view.size + b.length⟩ (a ++ b) = view.text a ++ b := by
  simp only [View.stop] at stop
  have start : view.start ≤ a.length := by omega
  have left : (a.drop view.start).length = view.size := by rw [List.length_drop]; omega
  constructor
  · simp only [View.Inside, List.length_append]
    omega
  · rw [View.text, View.text, List.drop_append_of_le_length start, List.take_of_length_le, List.take_of_length_le]
    · exact Nat.le_of_eq left
    · rw [List.length_append, left]

theorem through_slice (view : View) (more : Nat) {count : Nat} (bound : count ≤ view.size) :
    View.slice ⟨view.start, view.size + more⟩ 0 (some count) = view.slice 0 (some count) := by
  have room : min count (view.size + more) = min count view.size := by omega
  simp only [View.slice, Nat.sub_zero, room]

theorem through_drop (view : View) (more : Nat) {count : Nat} (bound : count ≤ view.size) :
    View.drop ⟨view.start, view.size + more⟩ count =
      ⟨(view.drop count).start, (view.drop count).size + more⟩ := by
  simp only [View.drop, Nat.sub_add_comm bound]

/-- At the end of the first log the second one is scanned where it stands. -/
theorem scanLines_second (isLocal : Local parseLine) {a b : Bytes} {view : View} (stop : view.stop = a.length)
    (empty : view.size = 0) (fuel : Nat) {fuel' : Nat} (enough : b.length ≤ fuel') :
    scanLines (parseLine (a ++ b)) (a ++ b) fuel' ⟨view.start, view.size + b.length⟩ = do
      let before ← scanLines (parseLine a) a fuel view
      let behind ← scanLines (parseLine b) b b.length (View.whole b)
      return before ++ behind.map (·.rebase a.length) := by
  have same : (⟨view.start, view.size + b.length⟩ : View) = (View.whole b).rebase 0 a.length := by
    simp only [View.stop, empty] at stop
    simp only [View.whole, View.rebase, View.mk.injEq]
    omega
  have inside : ((View.whole b).rebase 0 a.length).Inside (a ++ b) := by
    simp [View.Inside, View.rebase, View.whole]
  have nothing : view.text a = [] := by simp [View.text, empty]
  have done := @scanLines_last (parseLine a) a view (by simp [nothing]) fuel
  rw [same, scanLines_rebase isLocal (View.inside_whole b) inside (View.text_rebase_append _ _ _),
    scanLines_fuel (View.inside_whole b) enough (Nat.le_refl b.length), done]
  cases scanLines (parseLine b) b b.length (View.whole b) <;> rfl

/-- The scan of what is left of the first log and of the second one behind it. Induction on the fuel, a line
of the first log at a time; at its end the second one is scanned where it stands. -/
theorem scanLines_append (isLocal : Local parseLine) {a b : Bytes} {view : View} (inside : view.Inside a)
    (stop : view.stop = a.length) (whole : WholeLines (view.text a)) {fuel fuel' : Nat} (enough : view.size ≤ fuel)
    (enough' : view.size + b.length ≤ fuel') :
    scanLines (parseLine (a ++ b)) (a ++ b) fuel' ⟨view.start, view.size + b.length⟩ = do
      let before ← scanLines (parseLine a) a fuel view
      let behind ← scanLines (parseLine b) b b.length (View.whole b)
      return before ++ behind.map (·.rebase a.length) := by
  induction fuel generalizing view fuel' with
  | zero => exact scanLines_second isLocal stop (by omega) 0 (by omega)
  | succ fuel ih =>
    by_cases ended : Byte.newline ∈ view.text a
    · obtain ⟨line, rest, shape, clean⟩ := List.eq_append_cons_of_mem ended
      obtain ⟨insideRest, textRest⟩ := View.behind_word inside shape
      obtain ⟨cut, -, room⟩ := lineCut_front inside shape
      obtain ⟨insideThrough, textThrough⟩ := @through_text a b view stop
      obtain ⟨fuel', rfl⟩ : ∃ n, fuel' = n + 1 := ⟨fuel' - 1, by omega⟩
      have shapeThrough : View.text ⟨view.start, view.size + b.length⟩ (a ++ b) =
          line ++ Byte.newline :: (rest ++ b) := by
        rw [textThrough, shape, List.append_assoc, List.cons_append]
      have stopRest : (view.drop (line.length + 1)).stop = a.length := by
        rw [← stop]
        simp only [View.stop, View.drop]
        omega
      have size : (view.drop (line.length + 1)).size = view.size - (line.length + 1) := rfl
      have others := @ih _ insideRest stopRest (by rw [textRest]; exact (shape ▸ whole).behind) fuel' (by omega)
        (by omega)
      rw [scanLines_line insideThrough shapeThrough clean, scanLines_line inside shape clean,
        through_slice view _ room, through_slice view _ (Nat.le_of_succ_le room), through_drop view _ room, others,
        parseLine_append isLocal b cut.insideAll]
      cases parseLine a (view.slice 0 (some (line.length + 1))) (view.slice 0 (some line.length)) with
      | error fault => rfl
      | ok entry =>
        cases scanLines (parseLine a) a fuel (view.drop (line.length + 1)) with
        | error fault => rfl
        | ok before =>
          cases scanLines (parseLine b) b b.length (View.whole b) with
          | error fault => rfl
          | ok behind => simp only [bind, Except.bind, pure, Except.pure, List.append_assoc]
    · have empty := View.length_text inside
      rw [whole.eq_nil ended] at empty
      exact scanLines_second isLocal stop empty.symm (fuel + 1) (by omega)

/-- A parser that reads its logs line by line, but for the text of a failure. -/
structure ByLines (failure : Bytes) (parseLine : Bytes → View → View → Except ViewFault (Option LineView))
    (parser : Bytes → Except ViewFault (Bool × List LineView)) : Prop where
  /-- The lines of the second log follow those of the first, and a fault in one is a fault in the whole. -/
  append : ∀ {a b : Bytes}, WholeLines a → b ≠ failure → parser (a ++ b) = do
    let before ← parser a
    let behind ← parser b
    return (true, before.2 ++ behind.2.map (·.rebase a.length))
  /-- The entries are those of the two logs. -/
  entries : ∀ {a b : Bytes}, WholeLines a → b ≠ failure → ∀ {validA validB : Bool} {before behind : List LineView},
    parser a = .ok (validA, before) → parser b = .ok (validB, behind) →
    ∃ lines, parser (a ++ b) = .ok (true, lines) ∧
      lines.map (·.report (a ++ b)) = before.map (·.report a) ++ behind.map (·.report b)
  /-- Lines without an entry leave the others as they are. -/
  skips : ∀ {a skipped b : Bytes}, WholeLines a → WholeLines skipped → b ≠ failure → ∀ {valid validA validB : Bool}
    {before behind : List LineView}, parser a = .ok (validA, before) → parser skipped = .ok (valid, []) →
    parser b = .ok (validB, behind) →
    ∃ lines others, parser (a ++ skipped ++ b) = .ok (true, lines) ∧ parser (a ++ b) = .ok (true, others) ∧
      lines.map (·.report (a ++ skipped ++ b)) = others.map (·.report (a ++ b))
  /-- The loop ends. -/
  ends : ∀ data : Bytes, ∃ lines, scanRounds (parseLine data) data (data.length + 1) (View.whole data) = some lines ∧
    (data ≠ failure → parser data = lines.map (true, ·))

theorem wholeLines_append {a b : Bytes} (first : WholeLines a) (second : WholeLines b) : WholeLines (a ++ b) := by
  rcases second with rfl | ⟨front, rfl⟩
  · rwa [List.append_nil]
  · exact .inr ⟨a ++ front, by rw [List.append_assoc]⟩

theorem parseLog_of_ne {failure data : Bytes} (differs : data ≠ failure) :
    parseLog failure parseLine data =
      (scanLines (parseLine data) data data.length (View.whole data)).map (true, ·) := by
  simp only [parseLog, differs, ↓reduceIte]
  cases scanLines (parseLine data) data data.length (View.whole data) <;> rfl

section

variable {failure : Bytes} (nonempty : failure ≠ []) (unbroken : Byte.newline ∉ failure)

include nonempty unbroken

/-- The failure is no log of whole lines. -/
theorem WholeLines.ne_failure {a : Bytes} (whole : WholeLines a) : a ≠ failure := by
  rcases whole with rfl | ⟨front, rfl⟩
  · exact nonempty.symm
  · rintro rfl
    simp at unbroken

theorem parseLog_append (isLocal : Local parseLine) {a b : Bytes} (whole : WholeLines a) (differs : b ≠ failure) :
    parseLog failure parseLine (a ++ b) = do
      let before ← parseLog failure parseLine a
      let behind ← parseLog failure parseLine b
      return (true, before.2 ++ behind.2.map (·.rebase a.length)) := by
  have joined : a ++ b ≠ failure := by
    rcases whole with rfl | ⟨front, rfl⟩
    · exact differs
    · rintro rfl
      simp at unbroken
  have both : (a ++ b).length = (View.whole a).size + b.length := List.length_append
  have scanned := @scanLines_append parseLine isLocal a b (View.whole a) (View.inside_whole a) (Nat.zero_add _)
    (by rwa [View.text_whole]) a.length (a ++ b).length (Nat.le_refl _) (Nat.le_of_eq both.symm)
  have through : View.whole (a ++ b) = ⟨(View.whole a).start, (View.whole a).size + b.length⟩ := by
    simp [View.whole]
  rw [parseLog_of_ne joined, parseLog_of_ne (WholeLines.ne_failure nonempty unbroken whole), parseLog_of_ne differs,
    through, scanned]
  cases scanLines (parseLine a) a a.length (View.whole a) with
  | error fault => rfl
  | ok before => cases scanLines (parseLine b) b b.length (View.whole b) <;> rfl

end

/-- Every view that is reported lies in the log. -/
theorem inside_parseLog (isLocal : Local parseLine) {failure data : Bytes} {valid : Bool} {lines : List LineView}
    (parsed : parseLog failure parseLine data = .ok (valid, lines)) : ∀ line ∈ lines, line.Inside data := by
  by_cases refused : data = failure
  · simp only [parseLog, refused, ↓reduceIte] at parsed
    cases parsed
    simp
  · rw [parseLog_of_ne refused] at parsed
    cases scanned : scanLines (parseLine data) data data.length (View.whole data) with
    | error fault =>
      rw [scanned] at parsed
      cases parsed
    | ok found =>
      rw [scanned] at parsed
      cases parsed
      exact forall_scanLines (fun cut read => isLocal.inside cut read) (View.inside_whole data) scanned

theorem map_report_append {a b : Bytes} {before behind : List LineView} (inside : ∀ line ∈ before, line.Inside a) :
    (before ++ behind.map (·.rebase a.length)).map (·.report (a ++ b)) =
      before.map (·.report a) ++ behind.map (·.report b) := by
  rw [List.map_append, List.map_map]
  congr 1
  · exact List.map_congr_left fun line member => (inside line member).report_append b
  · exact List.map_congr_left fun line _ => line.report_rebase a b

theorem byLines_of_local (isLocal : Local parseLine) {failure : Bytes} (nonempty : failure ≠ [])
    (unbroken : Byte.newline ∉ failure) : ByLines failure parseLine (parseLog failure parseLine) := by
  have append {a b : Bytes} (whole : WholeLines a) (differs : b ≠ failure) :=
    parseLog_append nonempty unbroken isLocal whole differs
  have entries {a b : Bytes} (whole : WholeLines a) (differs : b ≠ failure) {validA validB : Bool}
      {before behind : List LineView} (first : parseLog failure parseLine a = .ok (validA, before))
      (second : parseLog failure parseLine b = .ok (validB, behind)) :
      ∃ lines, parseLog failure parseLine (a ++ b) = .ok (true, lines) ∧
        lines.map (·.report (a ++ b)) = before.map (·.report a) ++ behind.map (·.report b) := by
    refine ⟨before ++ behind.map (·.rebase a.length), ?_, map_report_append (inside_parseLog isLocal first)⟩
    rw [append whole differs, first, second]
    rfl
  refine ⟨append, entries, ?_, fun data => ?_⟩
  · intro a skipped b whole wholeSkipped differs valid validA validB before behind first nothing second
    have other := WholeLines.ne_failure nonempty unbroken wholeSkipped
    obtain ⟨front, parsedFront, reports⟩ := entries whole other first nothing
    obtain ⟨lines, parsed, all⟩ := entries (wholeLines_append whole wholeSkipped) differs parsedFront second
    obtain ⟨others, parsedOthers, rest⟩ := entries whole differs first second
    refine ⟨lines, others, parsed, parsedOthers, ?_⟩
    rw [all, reports, rest, List.map_nil, List.append_nil]
  · exact ⟨_, scanRounds_eq (View.inside_whole data) (Nat.le_refl _) (Nat.lt_succ_self _), parseLog_of_ne⟩

/-- Both parsers read their logs line by line. -/
theorem parsers_byLines (date : DateParser) :
    ByLines (ascii "\x7b\"message\":\"Failure reading log\"\x7d") (gempirLine date) (gempirLogParser date) ∧
      ByLines (ascii "didn't find any logs for this user") (overrustleLine date) (overrustleLogParser date) :=
  ⟨byLines_of_local (gempirLine_local date) (by decide) (by decide),
    byLines_of_local (overrustleLine_local date) (by decide) (by decide)⟩

end LogParsing

end SaivBot
