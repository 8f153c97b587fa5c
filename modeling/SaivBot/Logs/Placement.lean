import SaivBot.Logs.Line

/-! Which logs are cut into pieces of their lines.

A log is read line by line, so it is enough to say which lines are. A cut that goes
wrong leaves the view it was made on, or makes a piece that reaches into the next one.
-/

set_option autoImplicit false

namespace SaivBot
open StringView

/-- The lines of a text that end, without the newlines. -/
def terminatedLines (data : Bytes) : List Bytes := (data.splitOn Byte.newline).dropLast

theorem terminatedLines_of_notMem {data : Bytes} (absent : Byte.newline ∉ data) :
    terminatedLines data = [] := by
  rw [terminatedLines, List.splitOn_eq_singleton absent, List.dropLast_singleton]

theorem terminatedLines_append {line : Bytes} (clean : Byte.newline ∉ line) (rest : Bytes) :
    terminatedLines (line ++ Byte.newline :: rest) = line :: terminatedLines rest := by
  rw [terminatedLines, List.splitOn_append_cons_self_of_not_mem clean, List.dropLast_cons_of_ne_nil]
  · rfl
  · exact List.splitOn_ne_nil _ _

namespace LogParsing

/-- A line of the data, with its newline and without. -/
structure LineCut (data : Bytes) (lineView allView : View) : Prop where
  inside : lineView.Inside data
  start : lineView.start = allView.start
  size : lineView.size = allView.size + 1

theorem LineCut.insideAll {data : Bytes} {lineView allView : View} (cut : LineCut data lineView allView) :
    allView.Inside data := by
  obtain ⟨inside, start, size⟩ := cut
  simp only [View.Inside] at inside ⊢
  omega

/-- The result is there, and everything it reports has the property. -/
def Reads (good : LineView → Prop) : Except ViewFault (Option LineView) → Prop
  | .error _ => False
  | .ok entry => ∀ line ∈ entry, good line

def ReadsAll (good : LineView → Prop) : Except ViewFault (List LineView) → Prop
  | .error _ => False
  | .ok lines => ∀ line ∈ lines, good line

/-- A line with its newline and without, cut off the text that begins with it. -/
theorem lineCut_front {data : Bytes} {view : View} (inside : view.Inside data) {line rest : Bytes}
    (shape : view.text data = line ++ Byte.newline :: rest) :
    LineCut data (view.slice 0 (some (line.length + 1))) (view.slice 0 (some line.length)) ∧
      (view.slice 0 (some line.length)).text data = line ∧ line.length + 1 ≤ view.size := by
  have length := View.length_text inside
  rw [shape, List.length_append, List.length_cons] at length
  refine ⟨⟨View.inside_slice inside (Nat.zero_le _) _, rfl, ?_⟩, ?_, by omega⟩
  · simp only [View.slice]
    omega
  · rw [View.text_slice_some, List.drop_zero, shape, List.take_left]

/-- What decides each line decides the scan. Induction on the fuel, which is enough for the data left. -/
theorem readsAll_scanLines {parseLine : View → View → Except ViewFault (Option LineView)} {data : Bytes}
    {good : LineView → Prop} {readable : Bytes → Prop}
    (decides : ∀ lineView allView, LineCut data lineView allView →
      (Reads good (parseLine lineView allView) ↔ readable (allView.text data)))
    {fuel : Nat} {view : View} (inside : view.Inside data) (enough : view.size ≤ fuel) :
    ReadsAll good (scanLines parseLine data fuel view) ↔
      ∀ line ∈ terminatedLines (view.text data), readable line := by
  induction fuel generalizing view with
  | zero =>
    have size : view.size = 0 := by omega
    have empty : view.text data = [] := List.eq_nil_of_length_eq_zero (by rw [View.length_text inside, size])
    rw [empty, terminatedLines_of_notMem (by simp)]
    simp [scanLines, ReadsAll, pure, Except.pure]
  | succ fuel ih =>
    by_cases ended : Byte.newline ∈ view.text data
    · obtain ⟨line, rest, shape, clean⟩ := List.eq_append_cons_of_mem ended
      obtain ⟨insideRest, textRest⟩ := View.behind_word inside shape
      obtain ⟨cut, textAll, room⟩ := lineCut_front inside shape
      have first := decides _ _ cut
      have others := ih insideRest (by simp only [View.drop]; omega)
      rw [textAll] at first
      rw [textRest] at others
      rw [scanLines_line inside shape clean, shape, terminatedLines_append clean, List.forall_mem_cons, ← first,
        ← others]
      simp only [bind, Except.bind, pure, Except.pure]
      cases parseLine (view.slice 0 (some (line.length + 1))) (view.slice 0 (some line.length)) with
      | error fault => simp [Reads, ReadsAll]
      | ok entry =>
        cases scanLines parseLine data fuel (view.drop (line.length + 1)) with
        | error fault => simp [ReadsAll]
        | ok lines =>
          simp only [Reads, ReadsAll, List.mem_append, Option.mem_toList, Option.mem_def, or_imp, forall_and]
    · rw [scanLines_last ended, terminatedLines_of_notMem ended]
      simp [ReadsAll]

theorem readsAll_parseLog {failure : Bytes}
    {parseLine : Bytes → View → View → Except ViewFault (Option LineView)} {data : Bytes}
    (ending : Byte.newline ∉ failure) {good : LineView → Prop} {readable : Bytes → Prop}
    (decides : ∀ lineView allView, LineCut data lineView allView →
      (Reads good (parseLine data lineView allView) ↔ readable (allView.text data))) :
    ReadsAll good ((parseLog failure parseLine data).map (·.2)) ↔
      ∀ line ∈ terminatedLines data, readable line := by
  by_cases refused : data = failure
  · rw [refused, terminatedLines_of_notMem ending]
    simp [parseLog, ReadsAll, Except.map, pure, Except.pure]
  · have scanned := readsAll_scanLines decides (View.inside_whole data) (Nat.le_refl _)
    rw [View.text_whole] at scanned
    have size : (View.whole data).size = data.length := rfl
    rw [← scanned, size]
    simp only [parseLog, refused, ↓reduceIte, bind, Except.bind, pure, Except.pure, Except.map]
    cases scanLines (parseLine data) data data.length (View.whole data) <;> rfl

theorem readsAll_iff {result : Except ViewFault (Bool × List LineView)} {good : LineView → Prop} :
    ReadsAll good (result.map (·.2)) ↔ ∃ valid lines, result = .ok (valid, lines) ∧ ∀ line ∈ lines, good line := by
  cases result with
  | error fault => simp [ReadsAll, Except.map]
  | ok read =>
    obtain ⟨valid, lines⟩ := read
    simp [ReadsAll, Except.map]

/-! The beginning that both formats share: a time stamp, `] ` and the rest. -/

structure StampParts (text stamp rest : Bytes) : Prop where
  shape : text = stamp ++ ascii "] " ++ rest
  first : findText (ascii "] ") text = some stamp.length

theorem stampParts_of_found {text : Bytes} {pos : Nat} (found : findText (ascii "] ") text = some pos) :
    ∃ stamp rest, stamp.length = pos ∧ StampParts text stamp rest := by
  obtain ⟨stamp, rest, shape, rfl⟩ := findText_split found
  exact ⟨stamp, rest, rfl, shape, found⟩

theorem StampParts.unique {text stamp rest stamp' rest' : Bytes} (parts : StampParts text stamp rest)
    (parts' : StampParts text stamp' rest') : stamp = stamp' ∧ rest = rest' := by
  have length : stamp.length = stamp'.length := by simpa [parts.first] using parts'.first
  have same := parts.shape.symm.trans parts'.shape
  obtain ⟨stamps, rests⟩ := List.append_inj same (by simp [length])
  exact ⟨List.append_cancel_right stamps, rests⟩

/-- The text taken for the time: behind the bracket, or behind the first character of everything when
the stamp is empty. -/
def stampText (text stamp : Bytes) : Bytes := if stamp = [] then text.drop 1 else stamp.drop 1

/-- What is cut of a line that has a stamp. -/
theorem StampParts.cut {data : Bytes} {view : View} (inside : view.Inside data) {stamp rest : Bytes}
    (parts : StampParts (view.text data) stamp rest) :
    (view.slice 1 (countBefore stamp.length)).text data = stampText (view.text data) stamp ∧
      (view.drop (stamp.length + 2)).text data = rest ∧ (view.drop (stamp.length + 2)).Inside data ∧
      view.size = stamp.length + 2 + rest.length := by
  have closing : (ascii "] ").length = 2 := by decide
  have length := View.length_text inside
  have past : (stamp ++ ascii "] ").length = stamp.length + 2 := by rw [List.length_append, closing]
  obtain ⟨insideRest, textRest⟩ := View.behind_front inside parts.shape past
  refine ⟨?_, textRest, insideRest, ?_⟩
  · cases stamp with
    | nil => simp [stampText, countBefore]
    | cons c stamp =>
      simp only [stampText, countBefore, List.length_cons, View.text_slice_some, parts.shape]
      simp
  · rw [parts.shape] at length
    simp only [List.length_append, closing] at length
    omega

/-- A separator that is not found is in no way to cut the text. -/
theorem ne_of_not_found {p : Byte → Bool} {text : Bytes} (missing : findChar p text = none) {c : Byte}
    (hit : p c = true) (before rest : Bytes) : text ≠ before ++ c :: rest := by
  rintro rfl
  have miss := findChar_eq_none.mp missing c (by simp)
  simp [hit] at miss

/-- A separator that is found cuts the text at its first occurrence. -/
theorem found_split {separator : Byte} {p : Byte → Bool} (test : ∀ c, p c = true ↔ c = separator)
    {text : Bytes} {pos : Nat} (found : findChar p text = some pos) :
    ∃ before rest, text = before ++ separator :: rest ∧ before.length = pos ∧ separator ∉ before := by
  obtain ⟨before, c, rest, shape, length, hit, misses⟩ := findChar_split found
  have same := (test c).mp hit
  subst same
  refine ⟨before, rest, shape, length, fun member => ?_⟩
  have miss := misses _ member
  simp [hit] at miss

/-- A text is cut at the first occurrence of a separator in one way only. -/
theorem cut_unique {separator : Byte} {before before' rest rest' : Bytes} (clean : separator ∉ before)
    (clean' : separator ∉ before') (same : before ++ separator :: rest = before' ++ separator :: rest') :
    before = before' ∧ rest = rest' := by
  have first {xs : Bytes} (absent : separator ∉ xs) (more : Bytes) :
      (xs ++ separator :: more).idxOf separator = xs.length := by
    rw [List.idxOf_append_of_notMem absent, List.idxOf_cons_self, Nat.add_zero]
  have length : before.length = before'.length := by rw [← first clean rest, same, first clean']
  obtain ⟨befores, rests⟩ := List.append_inj same length
  exact ⟨befores, (List.cons.inj rests).2⟩

theorem isSpace_iff (c : Byte) : IRCMessage.isSpace c = true ↔ c = Byte.space := by
  simp [IRCMessage.isSpace]

theorem isColon_iff (c : Byte) : isColon c = true ↔ c = Byte.colon := by simp [isColon]

/-! A cut reads what is behind it: there is one place for it, or the line is skipped. -/

section

variable {good : LineView → Prop} {data : Bytes} {view : View} {count : Nat → Option Nat}
  {f : View → View → Except ViewFault (Option LineView)}

theorem reads_skipped : Reads good (.ok none) := by simp [Reads]

theorem reads_stamp (inside : view.Inside data) :
    Reads good (cutAt view (findText (ascii "] ") (view.text data)) 1 count 2 f) ↔
      ∀ stamp more, StampParts (view.text data) stamp more →
        Reads good (f (view.slice 1 (count stamp.length)) (view.drop (stamp.length + 2))) := by
  cases found : findText (ascii "] ") (view.text data) with
  | none =>
    refine iff_of_true reads_skipped fun stamp more parts => ?_
    simp [parts.first] at found
  | some pos =>
    obtain ⟨stamp, more, rfl, stamped⟩ := stampParts_of_found found
    obtain ⟨-, -, -, size⟩ := stamped.cut inside
    rw [cutAt_some (by omega) (by omega)]
    refine ⟨fun reads stamp' more' stamped' => ?_, fun all => all stamp more stamped⟩
    rw [← (stamped.unique stamped').1]
    exact reads

theorem reads_separator {separator : Byte} {p : Byte → Bool} (test : ∀ c, p c = true ↔ c = separator)
    (inside : view.Inside data) {width : Nat} :
    Reads good (cutAt view (findChar p (view.text data)) 0 count width f) ↔
      ∀ before rest, view.text data = before ++ separator :: rest → separator ∉ before →
        width ≤ rest.length + 1 ∧
          Reads good (f (view.slice 0 (count before.length)) (view.drop (before.length + width))) := by
  cases found : findChar p (view.text data) with
  | none =>
    refine iff_of_true reads_skipped fun before rest same _ => ?_
    exact absurd same (ne_of_not_found found ((test separator).mpr rfl) before rest)
  | some pos =>
    obtain ⟨before, rest, shape, rfl, clean⟩ := found_split test found
    have size : view.size = before.length + (rest.length + 1) := by
      rw [← View.length_text inside, shape, List.length_append, List.length_cons]
    have here : Reads good (cutAt view (some before.length) 0 count width f) ↔
        width ≤ rest.length + 1 ∧
          Reads good (f (view.slice 0 (count before.length)) (view.drop (before.length + width))) := by
      by_cases room : width ≤ rest.length + 1
      · rw [cutAt_some (Nat.zero_le _) (by omega)]
        exact (and_iff_right room).symm
      · have fault : cutAt view (some before.length) 0 count width f = .error .longPrefix := by
          simp only [cutAt, View.substr_of_le (Nat.zero_le _), View.removePrefix, bind, Except.bind]
          rw [if_neg (by omega)]
        rw [fault]
        exact iff_of_false id fun fine => room fine.1
    rw [here]
    refine ⟨fun reads before' rest' same' clean' => ?_, fun all => all before rest shape clean⟩
    obtain ⟨rfl, rfl⟩ := cut_unique clean clean' (shape.symm.trans same')
    exact reads

theorem reads_dated {time : Option TimePoint} {entry : TimePoint → LineView} :
    Reads good (dated time entry) ↔ ∀ point, time = some point → good (entry point) := by
  cases time <;> simp [dated, Reads, pure, Except.pure]

end

/-! `[stamp] #channel name: message`. -/

structure GempirParts (text stamp channel name rest : Bytes) : Prop where
  stamped : StampParts text stamp (channel ++ Byte.space :: (name ++ Byte.colon :: rest))
  channelClean : Byte.space ∉ channel
  nameClean : Byte.colon ∉ name

/-- Something follows the colon, and a line without a stamp has no time either. -/
def GempirReadable (date : DateParser) (text : Bytes) : Prop :=
  ∀ stamp channel name rest, GempirParts text stamp channel name rest →
    rest ≠ [] ∧ (stamp = [] → TimeDetail.parseGempirTimeString date (stampText text stamp) = none)

theorem GempirParts.unique {text stamp channel name rest stamp' channel' name' rest' : Bytes}
    (parts : GempirParts text stamp channel name rest)
    (parts' : GempirParts text stamp' channel' name' rest') : stamp = stamp' ∧ rest = rest' := by
  obtain ⟨stamps, same⟩ := parts.stamped.unique parts'.stamped
  obtain ⟨-, same⟩ := cut_unique parts.channelClean parts'.channelClean same
  obtain ⟨-, rests⟩ := cut_unique parts.nameClean parts'.nameClean same
  exact ⟨stamps, rests⟩

theorem gempirReadable_iff {date : DateParser} {text stamp channel name rest : Bytes}
    (parts : GempirParts text stamp channel name rest) :
    GempirReadable date text ↔
      rest ≠ [] ∧ (stamp = [] → TimeDetail.parseGempirTimeString date (stampText text stamp) = none) := by
  refine ⟨fun readable => readable _ _ _ _ parts, fun fine stamp' channel' name' rest' other => ?_⟩
  obtain ⟨rfl, rfl⟩ := parts.unique other
  exact fine

/-- The parts in the order in which they are cut. -/
theorem gempirReadable_cuts {date : DateParser} {text : Bytes} :
    GempirReadable date text ↔
      ∀ stamp more, StampParts text stamp more →
        ∀ channel afterChannel, more = channel ++ Byte.space :: afterChannel → Byte.space ∉ channel →
          ∀ name rest, afterChannel = name ++ Byte.colon :: rest → Byte.colon ∉ name →
            rest ≠ [] ∧ (stamp = [] → TimeDetail.parseGempirTimeString date (stampText text stamp) = none) := by
  constructor
  · rintro readable stamp _ stamped channel _ rfl channelClean name rest rfl nameClean
    exact readable stamp channel name rest ⟨stamped, channelClean, nameClean⟩
  · rintro cuts stamp channel name rest ⟨stamped, channelClean, nameClean⟩
    exact cuts stamp _ stamped channel _ rfl channelClean name rest rfl nameClean

theorem reads_gempirLine (date : DateParser) {data : Bytes} {lineView allView : View}
    (cut : LineCut data lineView allView) :
    Reads (·.Placed data) (gempirLine date data lineView allView) ↔
      GempirReadable date (allView.text data) := by
  rw [gempirLine_eq, gempirReadable_cuts, reads_stamp cut.insideAll]
  refine forall₃_congr fun stamp more stamped => ?_
  obtain ⟨stampCut, moreCut, insideMore, size⟩ := stamped.cut cut.insideAll
  rw [reads_separator isSpace_iff insideMore, moreCut]
  refine forall₄_congr fun channel afterChannel same channelClean => ?_
  obtain ⟨insideName, nameCut⟩ := View.behind_word insideMore (moreCut.trans same)
  rw [reads_separator isColon_iff insideName, nameCut, and_iff_right (Nat.succ_le_succ (Nat.zero_le _))]
  refine forall₄_congr fun name rest same' nameClean => ?_
  rw [reads_dated, stampCut]
  subst same same'
  simp only [List.length_append, List.length_cons] at size
  -- Two characters are removed behind the name.
  refine and_congr (by cases rest <;> simp) ?_
  obtain ⟨insideLine, sameStart, lineSize⟩ := cut
  cases stamp with
  | nil =>
    constructor
    · intro placed _
      refine Option.eq_none_iff_forall_ne_some.mpr fun time read => ?_
      -- The time reaches to the end of the line.
      have overlap := (placed time read).name
      simp only [View.stop, View.slice, View.drop, countBefore, List.length_nil] at overlap size
      omega
    · intro silent time read
      rw [silent rfl] at read
      cases read
  | cons first stamp =>
    simp only [List.length_cons] at size
    refine iff_of_true (fun time _ => ⟨insideLine, ?_, ?_, ?_, ?_⟩) fun empty => absurd empty (List.cons_ne_nil _ _) <;>
      simp only [View.stop, View.slice, View.drop, countBefore, List.length_cons] <;> omega

/-! `[stamp] name: message`. -/

structure OverrustleParts (text stamp word rest : Bytes) : Prop where
  stamped : StampParts text stamp (word ++ Byte.space :: rest)
  wordClean : Byte.space ∉ word

/-- A line that has a time has a stamp, and a message only behind a name. -/
def OverrustleReadable (date : DateParser) (text : Bytes) : Prop :=
  ∀ stamp word rest, OverrustleParts text stamp word rest →
    TimeDetail.parseOverrustleTimeString date (stampText text stamp) = none ∨
      stamp ≠ [] ∧ (word = [] → rest = [])

theorem overrustleReadable_cuts {date : DateParser} {text : Bytes} :
    OverrustleReadable date text ↔
      ∀ stamp more, StampParts text stamp more →
        ∀ word rest, more = word ++ Byte.space :: rest → Byte.space ∉ word →
          TimeDetail.parseOverrustleTimeString date (stampText text stamp) = none ∨
            stamp ≠ [] ∧ (word = [] → rest = []) := by
  constructor
  · rintro readable stamp _ stamped word rest rfl wordClean
    exact readable stamp word rest ⟨stamped, wordClean⟩
  · rintro cuts stamp word rest ⟨stamped, wordClean⟩
    exact cuts stamp _ stamped word rest rfl wordClean

theorem reads_overrustleLine (date : DateParser) {data : Bytes} {lineView allView : View}
    (cut : LineCut data lineView allView) :
    Reads (·.Placed data) (overrustleLine date data lineView allView) ↔
      OverrustleReadable date (allView.text data) := by
  rw [overrustleLine_eq, overrustleReadable_cuts, reads_stamp cut.insideAll]
  refine forall₃_congr fun stamp more stamped => ?_
  obtain ⟨stampCut, moreCut, insideMore, size⟩ := stamped.cut cut.insideAll
  rw [reads_separator isSpace_iff insideMore, moreCut]
  refine forall₄_congr fun word rest same wordClean => ?_
  rw [reads_dated, stampCut, and_iff_right (Nat.succ_le_succ (Nat.zero_le _))]
  subst same
  simp only [List.length_append, List.length_cons] at size
  obtain ⟨insideLine, sameStart, lineSize⟩ := cut
  cases TimeDetail.parseOverrustleTimeString date (stampText (allView.text data) stamp) with
  | none => simp
  | some time =>
    simp only [Option.some.injEq, forall_eq', reduceCtorEq, false_or]
    constructor
    · intro placed
      have time_name := placed.name
      have name_message := placed.message
      simp only [View.stop, View.slice, View.drop] at time_name name_message
      refine ⟨?_, ?_⟩
      · -- Without a stamp the time reaches to the end of the line.
        rintro rfl
        simp only [countBefore, List.length_nil] at time_name size
        omega
      · -- Without a word the name does.
        rintro rfl
        simp only [countBefore, List.length_nil] at name_message size
        exact List.eq_nil_of_length_eq_zero (by omega)
    · rintro ⟨hasStamp, wordless⟩
      obtain ⟨first, stamp, rfl⟩ := List.exists_cons_of_ne_nil hasStamp
      simp only [List.length_cons] at size
      cases word with
      | nil =>
        obtain rfl := wordless rfl
        simp only [List.length_nil] at size
        refine ⟨insideLine, ?_, ?_, ?_, ?_⟩ <;>
          simp only [View.stop, View.slice, View.drop, countBefore, List.length_cons, List.length_nil] <;>
          omega
      | cons c word =>
        simp only [List.length_cons] at size
        refine ⟨insideLine, ?_, ?_, ?_, ?_⟩ <;>
          simp only [View.stop, View.slice, View.drop, countBefore, List.length_cons] <;> omega

/-! Both parsers. -/

/-- The log is read to its end, and the pieces of every line are in it and survive copying. -/
def CutsInside (parser : Bytes → Except ViewFault (Bool × List LineView)) (data : Bytes) : Prop :=
  ∃ valid lines, parser data = .ok (valid, lines) ∧
    ∀ line ∈ lines, line.Placed data ∧ ∀ copy, line.CopyOf data copy → copy.report = line.report data

theorem cutsInside_iff {parser : Bytes → Except ViewFault (Bool × List LineView)} {data : Bytes} :
    CutsInside parser data ↔ ReadsAll (·.Placed data) ((parser data).map (·.2)) := by
  rw [readsAll_iff]
  constructor
  · rintro ⟨valid, lines, read, sound⟩
    exact ⟨valid, lines, read, fun line member => (sound line member).1⟩
  · rintro ⟨valid, lines, read, placed⟩
    exact ⟨valid, lines, read, fun line member =>
      ⟨placed line member, fun _ copy => (placed line member).report_eq copy⟩⟩

theorem gempirLogParser_cutsInside_iff {date : DateParser} {data : Bytes} :
    CutsInside (gempirLogParser date) data ↔ ∀ line ∈ terminatedLines data, GempirReadable date line := by
  rw [cutsInside_iff]
  exact readsAll_parseLog (by decide) fun _ _ => reads_gempirLine date

theorem overrustleLogParser_cutsInside_iff {date : DateParser} {data : Bytes} :
    CutsInside (overrustleLogParser date) data ↔ ∀ line ∈ terminatedLines data, OverrustleReadable date line := by
  rw [cutsInside_iff]
  exact readsAll_parseLog (by decide) fun _ _ => reads_overrustleLine date

/-- Both parsers stay in the lines exactly when every line is readable. -/
theorem logParsers_cut_inside_iff (date : DateParser) (data : Bytes) :
    (CutsInside (gempirLogParser date) data ↔ ∀ line ∈ terminatedLines data, GempirReadable date line) ∧
      (CutsInside (overrustleLogParser date) data ↔
        ∀ line ∈ terminatedLines data, OverrustleReadable date line) :=
  ⟨gempirLogParser_cutsInside_iff, overrustleLogParser_cutsInside_iff⟩

/-- A line that ends at the name's colon: one more character is removed than there is, whatever dates are
read. -/
theorem gempirLogParser_leaves_line :
    ¬ ∃ date : DateParser,
      CutsInside (gempirLogParser date) (ascii "[2019-02-08 12:34:56] #pajlada saiv:\n") := by
  rintro ⟨date, valid, lines, read, -⟩
  have fault : gempirLogParser date (ascii "[2019-02-08 12:34:56] #pajlada saiv:\n") = .error .longPrefix := rfl
  rw [fault] at read
  cases read

end LogParsing

end SaivBot
