import SaivBot.Logs.Parsing

/-! `Log::Line`: a line of a log that owns its text.

A copy puts the text at an address of its own, and each view at its distance from
the first byte. It reports the same pieces where the views lie in the line.
-/

set_option autoImplicit false

namespace SaivBot
open StringView

structure LogLine where
  /-- Where the text lies. -/
  address : Nat
  line : Bytes
  timeView : View
  time : TimePoint
  nameView : View
  messageView : View
  deriving DecidableEq

namespace LogLine

def fieldText (line : LogLine) (view : View) : Bytes := (view.rebase line.address 0).text line.line

def getTimeView (line : LogLine) : Bytes := line.fieldText line.timeView
def getNameView (line : LogLine) : Bytes := line.fieldText line.nameView
def getMessageView (line : LogLine) : Bytes := line.fieldText line.messageView

/-- What it reports: the time, its text, the name and the message. -/
def report (line : LogLine) : TimePoint × Bytes × Bytes × Bytes :=
  (line.time, line.getTimeView, line.getNameView, line.getMessageView)

def copyLineViewImpl (address : Nat) (data : Bytes) (source : LineView) : LogLine :=
  let copyView := fun view : View => view.rebase source.lineView.start address
  { address
    line := source.lineView.text data
    timeView := copyView source.timeView
    time := source.time
    nameView := copyView source.nameView
    messageView := copyView source.messageView }

def copyLineImpl (address : Nat) (source : LogLine) : LogLine :=
  let copyView := fun view : View => view.rebase source.address address
  { address
    line := source.line
    timeView := copyView source.timeView
    time := source.time
    nameView := copyView source.nameView
    messageView := copyView source.messageView }

end LogLine

namespace LineView

def report (data : Bytes) (line : LineView) : TimePoint × Bytes × Bytes × Bytes :=
  (line.time, line.timeView.text data, line.nameView.text data, line.messageView.text data)

/-- Time, name and message are pieces of the line, in this order and without overlap. -/
structure Placed (data : Bytes) (line : LineView) : Prop where
  inside : line.lineView.Inside data
  first : line.lineView.start ≤ line.timeView.start
  name : line.timeView.stop ≤ line.nameView.start
  message : line.nameView.stop ≤ line.messageView.start
  last : line.messageView.stop ≤ line.lineView.stop

/-- The lines made from a view of one: built from it, or copied from such a line. -/
inductive CopyOf (data : Bytes) (source : LineView) : LogLine → Prop where
  | built (address : Nat) : CopyOf data source (LogLine.copyLineViewImpl address data source)
  | copied (address : Nat) {line : LogLine} : CopyOf data source line →
      CopyOf data source (LogLine.copyLineImpl address line)

variable {data : Bytes} {source : LineView} {line : LogLine}

/-- Every copy has the text of the line and the views at their distances from it. -/
theorem CopyOf.layout (copy : CopyOf data source line) :
    line.line = source.lineView.text data ∧ line.time = source.time ∧
      line.timeView = source.timeView.rebase source.lineView.start line.address ∧
      line.nameView = source.nameView.rebase source.lineView.start line.address ∧
      line.messageView = source.messageView.rebase source.lineView.start line.address := by
  induction copy with
  | built address => exact ⟨rfl, rfl, rfl, rfl, rfl⟩
  | copied address _ ih =>
    obtain ⟨text, time, timeView, nameView, messageView⟩ := ih
    refine ⟨text, time, ?_, ?_, ?_⟩
    · simp only [LogLine.copyLineImpl, timeView, View.rebase_rebase]
    · simp only [LogLine.copyLineImpl, nameView, View.rebase_rebase]
    · simp only [LogLine.copyLineImpl, messageView, View.rebase_rebase]

theorem Placed.report_eq (placed : Placed data source) (copy : CopyOf data source line) :
    line.report = source.report data := by
  obtain ⟨text, time, timeView, nameView, messageView⟩ := copy.layout
  obtain ⟨-, first, name, message, last⟩ := placed
  simp only [View.stop] at name message last
  have field (view : View) (lower : source.lineView.start ≤ view.start)
      (upper : view.stop ≤ source.lineView.stop) :
      line.fieldText (view.rebase source.lineView.start line.address) = view.text data := by
    rw [LogLine.fieldText, View.rebase_rebase, text]
    exact View.text_within lower upper
  simp only [LogLine.report, report, LogLine.getTimeView, LogLine.getNameView, LogLine.getMessageView, time,
    timeView, nameView, messageView]
  rw [field _ first (by simp only [View.stop]; omega), field _ (by omega) (by simp only [View.stop]; omega),
    field _ (by omega) last]

end LineView

end SaivBot
