import SaivBot.Logs.Parsing
import SaivBot.Calendar.Gregorian

/-! Chat entries, the lines both services print for them, and what the parsers read back. -/

set_option autoImplicit false

namespace SaivBot
open StringView

/-- A line of chat that both services can print: no field imitates what ends it. -/
structure ChatEntry extends ChatLine where
  wholeSecond : time % ticksPerSecond = 0
  channelClean : Byte.space ∉ channel ∧ Byte.newline ∉ channel
  authorClean : Byte.space ∉ author ∧ Byte.colon ∉ author ∧ Byte.newline ∉ author
  messageClean : Byte.newline ∉ message

namespace LogParsing

variable (calendar : Civil.Calendar)

/-- `[time] #channel author: message`, without the newline. -/
def gempirText (entry : ChatEntry) : Bytes :=
  ascii "[" ++ TimeDetail.formatSeconds calendar entry.time ++ ascii "] #" ++ entry.channel ++ ascii " " ++
    entry.author ++ ascii ": " ++ entry.message

/-- `[time UTC] author: message`, without the newline. -/
def overrustleText (entry : ChatEntry) : Bytes :=
  ascii "[" ++ TimeDetail.formatSeconds calendar entry.time ++ ascii " UTC] " ++ entry.author ++ ascii ": " ++
    entry.message

/-- One line for each entry, each with its newline. -/
def render (text : ChatEntry → Bytes) (entries : List ChatEntry) : Bytes :=
  entries.flatMap fun entry => text entry ++ [Byte.newline]

/-! Scanning. -/

/-- A line format and its parser: every rendered line is read back, wherever it stands. -/
structure ReadsBack (parseLine : Bytes → View → View → Except ViewFault (Option LineView))
    (text : ChatEntry → Bytes) (entry : ChatEntry) : Prop where
  clean : Byte.newline ∉ text entry
  parsed : ∀ (data : Bytes) (lineView allView : View), allView.Inside data →
    allView.text data = text entry →
    ∃ line, parseLine data lineView allView = .ok (some line) ∧ line.content data = entry.content

/-- The data behind the view is always what remains to be rendered. Induction on the entries. -/
theorem scanLines_render {parseLine : Bytes → View → View → Except ViewFault (Option LineView)}
    {text : ChatEntry → Bytes} {entries : List ChatEntry}
    (reads : ∀ entry ∈ entries, ReadsBack parseLine text entry) {data : Bytes} {fuel : Nat} {view : View}
    (inside : view.Inside data) (enough : view.size ≤ fuel) (shape : view.text data = render text entries) :
    ∃ lines, scanLines (parseLine data) data fuel view = .ok lines ∧
      lines.map (·.content data) = entries.map (·.content) := by
  induction entries generalizing fuel view with
  | nil => exact ⟨[], scanLines_last (by rw [shape]; simp [render]) fuel, rfl⟩
  | cons entry entries ih =>
    have split : view.text data = text entry ++ Byte.newline :: render text entries := by
      rw [shape]
      simp [render]
    have length := View.length_text inside
    rw [split, List.length_append, List.length_cons] at length
    obtain ⟨fuel, rfl⟩ : ∃ n, fuel = n + 1 := ⟨fuel - 1, by omega⟩
    have allText : (view.slice 0 (some (text entry).length)).text data = text entry := by
      rw [View.text_slice_some, List.drop_zero, split, List.take_left]
    obtain ⟨line, parsed, content⟩ := (reads entry (by simp)).parsed data
      (view.slice 0 (some ((text entry).length + 1))) _ (View.inside_slice inside (Nat.zero_le _) _) allText
    obtain ⟨insideRest, rest⟩ := View.behind_word inside split
    have small : (view.drop ((text entry).length + 1)).size ≤ fuel := by
      simp only [View.drop]
      omega
    obtain ⟨lines, scanned, contents⟩ :=
      ih (fun other member => reads other (by simp [member])) insideRest small rest
    refine ⟨line :: lines, ?_, ?_⟩
    · rw [scanLines_line inside split (reads entry (by simp)).clean, parsed, scanned]
      rfl
    · rw [List.map_cons, List.map_cons, content, contents]

theorem parseLog_render {parseLine : Bytes → View → View → Except ViewFault (Option LineView)}
    {text : ChatEntry → Bytes} {entries : List ChatEntry}
    (reads : ∀ entry ∈ entries, ReadsBack parseLine text entry) {failure : Bytes} (nonempty : failure ≠ [])
    (ending : failure.getLast? ≠ some Byte.newline) :
    ∃ lines, parseLog failure parseLine (render text entries) = .ok (true, lines) ∧
      lines.map (·.content (render text entries)) = entries.map (·.content) := by
  have differs : render text entries ≠ failure := by
    intro same
    rcases List.eq_nil_or_concat entries with rfl | ⟨front, last, rfl⟩
    · exact nonempty same.symm
    · apply ending
      rw [← same]
      simp [render]
  obtain ⟨lines, scanned, contents⟩ := scanLines_render reads (View.inside_whole (render text entries))
    (Nat.le_refl _) (View.text_whole _)
  refine ⟨lines, ?_, contents⟩
  simp only [parseLog, differs, ↓reduceIte]
  have size : (View.whole (render text entries)).size = (render text entries).length := rfl
  rw [← size, scanned]
  rfl

/-! The two line formats. -/

def closingBracket : Byte := 93

/-- The common beginning of both formats: everything up to the first `] ` is the time. -/
theorem cut_time {data : Bytes} {view : View} (inside : view.Inside data) {stamp rest : Bytes}
    (clean : closingBracket ∉ stamp)
    (shape : view.text data = ascii "[" ++ stamp ++ ascii "] " ++ rest) :
    findText (ascii "] ") (view.text data) = some (stamp.length + 1) ∧
      (∃ timeView, view.substr 1 (countBefore (stamp.length + 1)) = .ok timeView ∧
        timeView.text data = stamp) ∧
      ∃ behind, view.removePrefix (stamp.length + 1 + 2) = .ok behind ∧ behind.text data = rest ∧
        behind.Inside data := by
  have opening : ascii "[" = [91] := by decide
  have closing : ascii "] " = [closingBracket, Byte.space] := by decide
  have absent : closingBracket ∉ ascii "[" ++ stamp := by
    rw [opening]
    simpa using ⟨by decide, clean⟩
  refine ⟨?_, ⟨_, View.substr_of_le ?_ _, ?_⟩, View.pass_front inside shape ?_⟩
  · rw [shape, closing, findText_append absent, opening]
    simp
  · rw [← View.length_text inside, shape, opening]
    simp
  · rw [countBefore, View.text_slice_some, shape, opening]
    simp
  · rw [opening, closing]
    simp

theorem misses_colon {name : Bytes} (clean : Byte.colon ∉ name) : ∀ c ∈ name, isColon c = false := by
  intro c member
  simp only [isColon, beq_eq_false_iff_ne]
  rintro rfl
  exact clean member

theorem stamp_clean {calendar : Civil.Calendar} (point : TimePoint) :
    closingBracket ∉ TimeDetail.formatSeconds calendar point ∧
      Byte.newline ∉ TimeDetail.formatSeconds calendar point :=
  ⟨TimeDetail.not_mem_formatSeconds (by decide) (by decide) (by decide) (by decide),
    TimeDetail.not_mem_formatSeconds (by decide) (by decide) (by decide) (by decide)⟩

variable {calendar} {entry : ChatEntry} {date : DateParser}

theorem gempirText_clean : Byte.newline ∉ gempirText calendar entry := by
  have literals : Byte.newline ∉ ascii "[" ∧ Byte.newline ∉ ascii "] #" ∧ Byte.newline ∉ ascii " " ∧
      Byte.newline ∉ ascii ": " := by decide
  simp [gempirText, literals, stamp_clean, entry.channelClean, entry.authorClean, entry.messageClean]

theorem overrustleText_clean : Byte.newline ∉ overrustleText calendar entry := by
  have literals : Byte.newline ∉ ascii "[" ∧ Byte.newline ∉ ascii " UTC] " ∧ Byte.newline ∉ ascii ": " := by
    decide
  simp [overrustleText, literals, stamp_clean, entry.authorClean, entry.messageClean]

/-- The pieces the parser looks for. -/
theorem gempirText_split :
    gempirText calendar entry =
      ascii "[" ++ TimeDetail.formatSeconds calendar entry.time ++ ascii "] " ++
        ((Byte.hash :: entry.channel) ++ Byte.space ::
          (entry.author ++ Byte.colon :: Byte.space :: entry.message)) := by
  have literals : ascii "] #" = ascii "] " ++ [Byte.hash] ∧ ascii " " = [Byte.space] ∧
      ascii ": " = [Byte.colon, Byte.space] := by decide
  rw [gempirText, literals.1, literals.2.1, literals.2.2]
  simp

theorem gempirLine_reads
    (read : TimeDetail.parseGempirTimeString date (TimeDetail.formatSeconds calendar entry.time) =
      some entry.time) :
    ReadsBack (gempirLine date) (gempirText calendar) entry := by
  refine ⟨gempirText_clean, fun data lineView allView inside shape => ?_⟩
  have split := shape.trans gempirText_split
  obtain ⟨foundTime, ⟨timeView, timeCut, timeText⟩, behindTime, timePassed, text, inside⟩ :=
    cut_time inside (stamp_clean entry.time).1 split
  -- the channel ends at the first space, the hash being part of it
  have noSpace : Byte.space ∉ Byte.hash :: entry.channel := by
    simpa using ⟨by decide, entry.channelClean.1⟩
  generalize Byte.hash :: entry.channel = channel at text noSpace
  have foundChannel : findChar IRCMessage.isSpace (behindTime.text data) = some channel.length := by
    rw [text]
    exact IRCMessage.findSpace_append noSpace _
  obtain ⟨channelView, channelCut, -⟩ := View.take_front inside text
  rw [List.append_cons] at text
  obtain ⟨behindChannel, channelPassed, text, inside⟩ := View.pass_front inside text (List.length_append ..)
  -- the name ends at the first colon behind it
  have foundName : findChar isColon (behindChannel.text data) = some entry.author.length := by
    rw [text]
    exact findChar_append (misses_colon entry.authorClean.2.1) rfl _
  obtain ⟨nameView, nameCut, nameText, -⟩ := View.take_front inside text
  have behindName : behindChannel.text data =
      (entry.author ++ [Byte.colon, Byte.space]) ++ entry.message := by
    rw [text]
    simp
  obtain ⟨messageView, namePassed, messageText, -⟩ :=
    View.pass_front inside behindName (List.length_append ..)
  refine ⟨{ lineView, timeView, time := entry.time, nameView, messageView }, ?_, ?_⟩
  · simp only [List.length_cons, List.length_nil] at channelPassed namePassed
    simp only [gempirLine, foundTime, timeCut, timePassed, bind, Except.bind, foundChannel, channelCut,
      channelPassed, foundName, nameCut, namePassed, timeText, read]
    rfl
  · simp only [LineView.content, ChatLine.content, nameText, messageText]

theorem overrustleLine_reads
    (read : TimeDetail.parseOverrustleTimeString date
      (TimeDetail.formatSeconds calendar entry.time ++ ascii " UTC") = some entry.time) :
    ReadsBack (overrustleLine date) (overrustleText calendar) entry := by
  refine ⟨overrustleText_clean, fun data lineView allView inside shape => ?_⟩
  have clean : closingBracket ∉ TimeDetail.formatSeconds calendar entry.time ++ ascii " UTC" := by
    simpa using ⟨(stamp_clean entry.time).1, by decide⟩
  have split : allView.text data =
      ascii "[" ++ (TimeDetail.formatSeconds calendar entry.time ++ ascii " UTC") ++ ascii "] " ++
        ((entry.author ++ [Byte.colon]) ++ Byte.space :: entry.message) := by
    have literals : ascii " UTC] " = ascii " UTC" ++ ascii "] " ∧
        ascii ": " = [Byte.colon, Byte.space] := by decide
    rw [shape, overrustleText, literals.1, literals.2]
    simp
  obtain ⟨foundTime, ⟨timeView, timeCut, timeText⟩, behindTime, timePassed, text, inside⟩ :=
    cut_time inside clean split
  -- the name ends one byte in front of the first space, on its colon
  have noSpace : Byte.space ∉ entry.author ++ [Byte.colon] := by
    simpa using ⟨entry.authorClean.1, by decide⟩
  have foundName : findChar IRCMessage.isSpace (behindTime.text data) = some (entry.author.length + 1) := by
    rw [text, IRCMessage.findSpace_append noSpace, List.length_append, List.length_singleton]
  have nameFirst : behindTime.text data = entry.author ++ (Byte.colon :: Byte.space :: entry.message) := by
    rw [text]
    simp
  obtain ⟨nameView, nameCut, nameText, -⟩ := View.take_front inside nameFirst
  change behindTime.substr 0 (countBefore (entry.author.length + 1)) = _ at nameCut
  rw [List.append_cons] at text
  obtain ⟨messageView, namePassed, messageText, -⟩ := View.pass_front inside text (List.length_append ..)
  refine ⟨{ lineView, timeView, time := entry.time, nameView, messageView }, ?_, ?_⟩
  · rw [List.length_append, List.length_singleton, List.length_singleton] at namePassed
    simp only [overrustleLine, foundTime, timeCut, timePassed, bind, Except.bind, foundName,
      nameCut, namePassed, timeText, read]
    rfl
  · simp only [LineView.content, ChatLine.content, nameText, messageText]

/-- Parsing the text is successful and yields exactly these entries, in order. -/
def Recovers (parser : Bytes → Except ViewFault (Bool × List LineView)) (data : Bytes)
    (entries : List ChatEntry) : Prop :=
  ∃ lines, parser data = .ok (true, lines) ∧ lines.map (·.content data) = entries.map (·.content)

/-- Both parsers invert the form their service prints, given that the time strings are read back. -/
theorem parsers_recover (calendar : Civil.Calendar) (date : DateParser) (entries : List ChatEntry)
    (gempirRead : ∀ entry ∈ entries,
      TimeDetail.parseGempirTimeString date (TimeDetail.formatSeconds calendar entry.time) = some entry.time)
    (overrustleRead : ∀ entry ∈ entries,
      TimeDetail.parseOverrustleTimeString date
        (TimeDetail.formatSeconds calendar entry.time ++ ascii " UTC") = some entry.time) :
    Recovers (gempirLogParser date) (render (gempirText calendar) entries) entries ∧
      Recovers (overrustleLogParser date) (render (overrustleText calendar) entries) entries := by
  constructor
  · exact parseLog_render (fun entry member => gempirLine_reads (gempirRead entry member))
      (by decide) (by decide)
  · exact parseLog_render (fun entry member => overrustleLine_reads (overrustleRead entry member))
      (by decide) (by decide)

/-- Two entries of one second; the first message imitates the separators. -/
def sampleEntries : List ChatEntry :=
  [ { time := 1549629296000000000, channel := ascii "pajlada", author := ascii "saiv"
      message := ascii "a] b: c"
      wholeSecond := by decide, channelClean := by decide, authorClean := by decide
      messageClean := by decide },
    { time := 1549629296000000000, channel := ascii "pajlada", author := ascii "forsen", message := []
      wholeSecond := by decide, channelClean := by decide, authorClean := by decide
      messageClean := by decide } ]

/-- A date parser that knows one instant. -/
def sampleParser : DateParser where
  timePoint _ text :=
    if text = ascii "2019-02-08 12:34:56" ∨ text = ascii "2019-02-08 12:34:56 UTC" then
      some 1549629296000000000
    else none
  yearMonth _ _ := none
  year _ _ := none

theorem parsers_recover_sample :
    Recovers (gempirLogParser sampleParser)
        (render (gempirText Civil.gregorian) sampleEntries) sampleEntries ∧
      Recovers (overrustleLogParser sampleParser)
        (render (overrustleText Civil.gregorian) sampleEntries) sampleEntries := by
  apply parsers_recover
  · intro entry member
    simp only [sampleEntries, List.mem_cons, List.not_mem_nil, or_false] at member
    rcases member with rfl | rfl <;> decide
  · intro entry member
    simp only [sampleEntries, List.mem_cons, List.not_mem_nil, or_false] at member
    rcases member with rfl | rfl <;> decide

end LogParsing

end SaivBot
