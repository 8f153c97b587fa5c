import SaivBot.Message.Parsing

/-! Messages that have been moved.

The defaulted constructor moves the text and takes the views over as they are. A short
text lies in the string object itself, so that its views stay behind.
-/

set_option autoImplicit false

namespace SaivBot
open StringView

/-- The length up to which a `std::string` keeps its text in itself. -/
def smallStringCapacity : Nat := 15

namespace IRCMessage

variable (msg : IRCMessage)

def views : List View :=
  msg.nickView.toList ++ msg.userView.toList ++ msg.hostView.toList ++ msg.commandView.toList ++ msg.paramsVec ++
    msg.bodyView.toList

/-- After a move the views show what they have shown: the text is where it was, or they are all empty. -/
def Survives : Prop := smallStringCapacity < msg.data.length ∨ ∀ view ∈ msg.views, view.size = 0

instance : Decidable msg.Survives := inferInstanceAs (Decidable (_ ∨ _))

end IRCMessage

/-- A message behind a move. Its views lie in its text, or where that has been. -/
inductive MovedMessage where
  | whole (msg : IRCMessage)
  | dangling (msg : IRCMessage)
  deriving DecidableEq

/-- `IRCMessage(IRCMessage && source) = default`. -/
def IRCMessage.move (msg : IRCMessage) : MovedMessage := if msg.Survives then .whole msg else .dangling msg

/-- The message as its views show it. To read behind a view that dangles is undefined; `stale` stands for whatever lies
there then. -/
def MovedMessage.shown (stale : IRCMessage → Bytes) : MovedMessage → IRCMessage
  | .whole msg => msg
  | .dangling msg => { msg with data := stale msg }

variable {msg : IRCMessage}

theorem IRCMessage.move_of_survives (survives : msg.Survives) : msg.move = .whole msg := if_pos survives

theorem IRCMessage.move_eq_whole_iff : msg.move = .whole msg ↔ msg.Survives := by
  unfold IRCMessage.move
  split
  · next survives => simp [survives]
  · next short => simp [short]

/-- Messages are kept as they are exactly if each survives the move. -/
theorem map_move_eq_iff {messages : List IRCMessage} :
    messages.map IRCMessage.move = messages.map .whole ↔ ∀ msg ∈ messages, msg.Survives := by
  rw [List.map_inj_left]
  exact forall₂_congr fun _ _ => IRCMessage.move_eq_whole_iff

theorem IRCMessage.shown_move (stale : IRCMessage → Bytes) (survives : msg.Survives) : msg.move.shown stale = msg := by
  rw [move_of_survives survives]
  rfl

/-- A message that shows anything survives by its length. -/
theorem IRCMessage.survives_iff_long {view : View} (there : view ∈ msg.views) (nonempty : view.size ≠ 0) :
    msg.Survives ↔ smallStringCapacity < msg.data.length :=
  ⟨fun survives => survives.resolve_right fun empty => nonempty (empty view there), .inl⟩

end SaivBot
