import SaivBot.Message.Parsing
import SaivBot.Logs.TimeDetail
import SaivBot.Program

/-! The two log parsers and the lines they report.

Both scan the data one newline-terminated line at a time and cut each line with
the same tools; they differ in the separators. A line they cannot read is skipped.
-/

set_option autoImplicit false

namespace SaivBot
open StringView

/-- `Log::LineView`: a line of a log, its pieces being views into the log's data. -/
structure LineView where
  lineView : View
  timeView : View
  time : TimePoint
  nameView : View
  messageView : View
  deriving DecidableEq

/-- A message somebody wrote in a channel, as a log service keeps it. -/
structure ChatLine where
  time : TimePoint
  channel : Bytes
  author : Bytes
  message : Bytes
  deriving DecidableEq

/-- What a parser is expected to recover. -/
def ChatLine.content (line : ChatLine) : TimePoint × Bytes × Bytes := (line.time, line.author, line.message)

def LineView.content (data : Bytes) (line : LineView) : TimePoint × Bytes × Bytes :=
  (line.time, line.nameView.text data, line.messageView.text data)

namespace LogParsing

def isNewline (c : Byte) : Bool := c == Byte.newline
def isColon (c : Byte) : Bool := c == Byte.colon

/-- The loop of both parsers. Every iteration removes a line, so the length of the data is enough
fuel; running out of it and finding the data empty are the same. -/
def scanLines (parseLine : View → View → Except ViewFault (Option LineView)) (data : Bytes) :
    Nat → View → Except ViewFault (List LineView)
  | 0, _ => return []
  | fuel + 1, dataView =>
    if dataView.size = 0 then return []
    else
      match findChar isNewline (dataView.text data) with
      | none => return []
      | some crPos => do
        let lineView ← dataView.substr 0 (some (crPos + 1))
        let allView ← dataView.substr 0 (some crPos)
        let entry ← parseLine lineView allView
        -- A line that could not be read is passed like any other.
        let dataView ← dataView.removePrefix (crPos + 1)
        let lines ← scanLines parseLine data fuel dataView
        return entry.toList ++ lines

/-- What the parsers share: the service's failure text is refused, anything else is scanned. -/
def parseLog (failure : Bytes) (parseLine : Bytes → View → View → Except ViewFault (Option LineView))
    (data : Bytes) : Except ViewFault (Bool × List LineView) := do
  if data = failure then return (false, [])
  else
    let lines ← scanLines (parseLine data) data data.length (View.whole data)
    return (true, lines)

/-- `[time] #channel author: message`. -/
def gempirLine (date : DateParser) (data : Bytes) (lineView allView : View) :
    Except ViewFault (Option LineView) :=
  match findText (ascii "] ") (allView.text data) with
  | none => return none
  | some space => do
    let timeView ← allView.substr 1 (countBefore space)
    let allView ← allView.removePrefix (space + 2)
    match findChar IRCMessage.isSpace (allView.text data) with
    | none => return none
    | some space => do
      let _channelView ← allView.substr 0 (some space)
      let allView ← allView.removePrefix (space + 1)
      match findChar isColon (allView.text data) with
      | none => return none
      | some space => do
        let nameView ← allView.substr 0 (some space)
        -- The colon and the space that is expected behind it.
        let messageView ← allView.removePrefix (space + 2)
        match TimeDetail.parseGempirTimeString date (timeView.text data) with
        | none => return none
        | some time => return some { lineView, timeView, time, nameView, messageView }

/-- `[time] author: message`. -/
def overrustleLine (date : DateParser) (data : Bytes) (lineView allView : View) :
    Except ViewFault (Option LineView) :=
  match findText (ascii "] ") (allView.text data) with
  | none => return none
  | some space => do
    let timeView ← allView.substr 1 (countBefore space)
    let allView ← allView.removePrefix (space + 2)
    match findChar IRCMessage.isSpace (allView.text data) with
    | none => return none
    | some space => do
      -- One byte less than the word: its colon.
      let nameView ← allView.substr 0 (countBefore space)
      let messageView ← allView.removePrefix (space + 1)
      match TimeDetail.parseOverrustleTimeString date (timeView.text data) with
      | none => return none
      | some time => return some { lineView, timeView, time, nameView, messageView }

def gempirLogParser (date : DateParser) : Bytes → Except ViewFault (Bool × List LineView) :=
  parseLog (ascii "\x7b\"message\":\"Failure reading log\"\x7d") (gempirLine date)

def overrustleLogParser (date : DateParser) : Bytes → Except ViewFault (Bool × List LineView) :=
  parseLog (ascii "didn't find any logs for this user") (overrustleLine date)

/-! What the parsers do with a line: cut a piece off at a separator, go on behind it, and read the time. -/

/-- One cut: the piece in front of the place, and what lies `width` bytes behind it. -/
def cutAt (view : View) (found : Option Nat) (pos : Nat) (count : Nat → Option Nat) (width : Nat)
    (rest : View → View → Except ViewFault (Option LineView)) : Except ViewFault (Option LineView) :=
  match found with
  | none => return none
  | some place => do
    let piece ← view.substr pos (count place)
    let behind ← view.removePrefix (place + width)
    rest piece behind

def dated (time : Option TimePoint) (entry : TimePoint → LineView) : Except ViewFault (Option LineView) :=
  match time with
  | none => return none
  | some time => return some (entry time)

theorem gempirLine_eq (date : DateParser) (data : Bytes) (lineView allView : View) :
    gempirLine date data lineView allView =
      cutAt allView (findText (ascii "] ") (allView.text data)) 1 countBefore 2 fun timeView allView =>
        cutAt allView (findChar IRCMessage.isSpace (allView.text data)) 0 some 1 fun _ allView =>
          cutAt allView (findChar isColon (allView.text data)) 0 some 2 fun nameView messageView =>
            dated (TimeDetail.parseGempirTimeString date (timeView.text data))
              fun time => { lineView, timeView, time, nameView, messageView } := rfl

theorem overrustleLine_eq (date : DateParser) (data : Bytes) (lineView allView : View) :
    overrustleLine date data lineView allView =
      cutAt allView (findText (ascii "] ") (allView.text data)) 1 countBefore 2 fun timeView allView =>
        cutAt allView (findChar IRCMessage.isSpace (allView.text data)) 0 countBefore 1 fun nameView messageView =>
          dated (TimeDetail.parseOverrustleTimeString date (timeView.text data))
            fun time => { lineView, timeView, time, nameView, messageView } := rfl

section

variable {view : View} {found : Option Nat} {pos width : Nat} {count : Nat → Option Nat}
  {rest : View → View → Except ViewFault (Option LineView)}

theorem cutAt_some {place : Nat} (start : pos ≤ view.size) (room : place + width ≤ view.size) :
    cutAt view (some place) pos count width rest = rest (view.slice pos (count place)) (view.drop (place + width)) := by
  simp only [cutAt, View.substr_of_le start, View.removePrefix_of_le room, bind, Except.bind]

/-- Behind a cut, both pieces lie in the data. -/
theorem cutAt_eq_some {data : Bytes} {line : LineView} (inside : view.Inside data)
    (read : cutAt view found pos count width rest = .ok (some line)) :
    ∃ piece behind, piece.Inside data ∧ behind.Inside data ∧ rest piece behind = .ok (some line) := by
  cases found with
  | none => cases read
  | some place =>
    obtain ⟨piece, cut, read⟩ := Program.except_bind_eq_ok.mp read
    obtain ⟨behind, passed, read⟩ := Program.except_bind_eq_ok.mp read
    exact ⟨piece, behind, View.inside_of_substr inside cut, View.inside_of_removePrefix inside passed, read⟩

theorem dated_eq_some {time : Option TimePoint} {entry : TimePoint → LineView} {line : LineView}
    (read : dated time entry = .ok (some line)) : ∃ point, time = some point ∧ line = entry point := by
  cases time with
  | none => cases read
  | some point =>
    cases read
    exact ⟨point, rfl, rfl⟩

end

/-! One round of the scan. -/

theorem misses_newline {line : Bytes} (clean : Byte.newline ∉ line) : ∀ c ∈ line, isNewline c = false := by
  intro c member
  simp only [isNewline, beq_eq_false_iff_ne]
  exact fun same => clean (same ▸ member)

theorem findNewline_none {text : Bytes} (clean : Byte.newline ∉ text) : findChar isNewline text = none :=
  findChar_eq_none.mpr (misses_newline clean)

theorem findNewline_append {line : Bytes} (clean : Byte.newline ∉ line) (rest : Bytes) :
    findChar isNewline (line ++ Byte.newline :: rest) = some line.length :=
  findChar_append (misses_newline clean) rfl rest

theorem scanLines_last {parseLine : View → View → Except ViewFault (Option LineView)} {data : Bytes} {view : View}
    (absent : Byte.newline ∉ view.text data) (fuel : Nat) : scanLines parseLine data fuel view = .ok [] := by
  cases fuel with
  | zero => rfl
  | succ fuel =>
    rw [scanLines, findNewline_none absent]
    exact ite_self _

theorem scanLines_line {parseLine : View → View → Except ViewFault (Option LineView)} {data : Bytes} {view : View}
    (inside : view.Inside data) {line rest : Bytes} (shape : view.text data = line ++ Byte.newline :: rest)
    (clean : Byte.newline ∉ line) (fuel : Nat) :
    scanLines parseLine data (fuel + 1) view = do
      let entry ← parseLine (view.slice 0 (some (line.length + 1))) (view.slice 0 (some line.length))
      let lines ← scanLines parseLine data fuel (view.drop (line.length + 1))
      return entry.toList ++ lines := by
  have room := View.length_text inside
  rw [shape, List.length_append, List.length_cons] at room
  have some_left : view.size ≠ 0 := by omega
  rw [scanLines, if_neg some_left, shape, findNewline_append clean]
  simp only [View.substr_of_le (Nat.zero_le _), View.removePrefix_of_le (show line.length + 1 ≤ view.size by omega)]
  rfl

end LogParsing

end SaivBot
