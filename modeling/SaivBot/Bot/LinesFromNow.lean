import SaivBot.Bot.Channels

/-! `IRCMessageBuffer`: the last messages, and the last of these.

A function that is handed in reads the buffer and works beside it. The lines are
copied from the newest backwards and turned around.
-/

set_option autoImplicit false

namespace SaivBot
open Program

namespace IRCMessageBuffer

variable {σ : Type}

/-- A buffer, and what its callers have beside it. -/
abbrev BufferM (σ : Type) := EStateM Abort (IRCMessageBuffer × σ)

/-- The buffer is read only. -/
def outside (func : EStateM Abort σ Unit) : BufferM σ Unit := fun both =>
  match func both.2 with
  | .ok () s => .ok () (both.1, s)
  | .error abort s => .error abort (both.1, s)

def pushMessage (msg : IRCMessage) : BufferM σ Unit := modify fun both => (both.1.push msg, both.2)

def accessData (func : List MovedMessage → EStateM Abort σ Unit) : BufferM σ Unit := do
  let (buffer, _) ← get
  outside (func buffer.queue)

/-- `for (i = 0; i < line_count; ++i)`, with the turns that are left. -/
def copyLines (queue : List MovedMessage) : Nat → Nat → List MovedMessage
  | 0, _ => []
  | turns + 1, i =>
    match queue.reverse[i]? with
    | some ircMsg => ircMsg :: copyLines queue turns (i + 1)
    -- `queue.size() > i` fails, and the loop is left.
    | none => []

def accessLinesFromNow (reserves : Nat → Bool) (lineCount : Nat)
    (func : List MovedMessage → EStateM Abort σ Unit) : BufferM σ Unit :=
  if lineCount = 0 then return ()
  else accessData fun queue =>
    if reserves lineCount then func (copyLines queue lineCount 0).reverse
    else throw (.raise .lengthError)

theorem copyLines_eq (queue : List MovedMessage) (turns i : Nat) :
    copyLines queue turns i = (queue.reverse.drop i).take turns := by
  induction turns generalizing i with
  | zero => simp [copyLines]
  | succ turns ih =>
    unfold copyLines
    cases found : queue.reverse[i]? with
    | none =>
      have past : queue.reverse.length ≤ i := List.getElem?_eq_none_iff.mp found
      rw [List.drop_eq_nil_of_le past, List.take_nil]
    | some ircMsg =>
      obtain ⟨inside, rfl⟩ := List.getElem?_eq_some_iff.mp found
      rw [ih, List.drop_eq_getElem_cons inside, List.take_succ_cons]

/-- What `clipCommandFunc` is handed are the lines of the loop. -/
theorem linesFromNow_eq (buffer : IRCMessageBuffer) (lineCount : Nat) :
    buffer.linesFromNow lineCount = (copyLines buffer.queue lineCount 0).reverse := by
  rw [copyLines_eq, List.drop_zero]
  rfl

theorem rtake_min {α : Type} (l : List α) (n : Nat) : l.rtake (min n l.length) = l.rtake n := by
  simp only [List.rtake]
  congr 1
  omega

theorem rtake_rtake {α : Type} (l : List α) (m n : Nat) : (l.rtake n).rtake m = l.rtake (min m n) := by
  simp only [List.rtake, List.length_drop, List.drop_drop]
  congr 1
  omega

/-! Pushes in a row. -/

theorem capacity_push (buffer : IRCMessageBuffer) (msg : IRCMessage) : (buffer.push msg).capacity = buffer.capacity :=
  rfl

/-- Induction on the messages; the invariant is what the buffer holds of those pushed before. -/
theorem pushes_ok (messages : List IRCMessage) {before : List IRCMessage} {buffer : IRCMessageBuffer}
    (holds : buffer.queue = (before.rtake buffer.capacity).map IRCMessage.move) (s : σ) :
    ∃ buffer', (messages.forM pushMessage : BufferM σ Unit) (buffer, s) = .ok () (buffer', s) ∧
      buffer'.queue = ((before ++ messages).rtake buffer.capacity).map IRCMessage.move := by
  induction messages generalizing before buffer with
  | nil => exact ⟨buffer, rfl, by rw [List.append_nil, holds]⟩
  | cons msg messages ih =>
    have pushed : (buffer.push msg).queue =
        ((before ++ [msg]).rtake (buffer.push msg).capacity).map IRCMessage.move := by
      rw [queue_push, holds, capacity_push, map_rtake, map_rtake, rtake_append_singleton, List.map_append]
      rfl
    obtain ⟨buffer', ran, queue⟩ := ih pushed
    refine ⟨buffer', ?_, ?_⟩
    · change (messages.forM pushMessage : BufferM σ Unit) (buffer.push msg, s) = _
      exact ran
    · rw [queue, List.append_assoc]
      rfl

theorem final_outside (func : EStateM Abort σ Unit) (buffer : IRCMessageBuffer) (s : σ) :
    (final (outside func (buffer, s))).1 = buffer := by
  unfold outside
  split <;> rfl

/-- The buffer holds the last messages pushed, `kept` in this way. A function is handed the last of these, once, and
leaves the buffer as it is. -/
structure HoldsLast (σ : Type) (kept : IRCMessage → MovedMessage) (capacity : Nat) (messages : List IRCMessage)
    (buffer : IRCMessageBuffer) : Prop where
  queue : buffer.queue = (messages.rtake (min capacity messages.length)).map kept
  lines : ∀ (reserves : Nat → Bool) (lineCount : Nat) (func : List MovedMessage → EStateM Abort σ Unit) (s : σ),
    0 < lineCount → reserves lineCount = true →
      accessLinesFromNow reserves lineCount func (buffer, s) =
          outside (func ((messages.rtake (min lineCount (min capacity messages.length))).map kept)) (buffer, s) ∧
        (final (accessLinesFromNow reserves lineCount func (buffer, s))).1 = buffer

/-- The lines follow from what the buffer holds. -/
theorem holdsLast_of_queue {kept : IRCMessage → MovedMessage} {capacity : Nat} {messages : List IRCMessage}
    {buffer : IRCMessageBuffer} (queue : buffer.queue = (messages.rtake (min capacity messages.length)).map kept) :
    HoldsLast σ kept capacity messages buffer := by
  refine ⟨queue, fun reserves lineCount func s positive reserved => ?_⟩
  have lines : accessLinesFromNow reserves lineCount func (buffer, s) =
      outside (func ((messages.rtake (min lineCount (min capacity messages.length))).map kept)) (buffer, s) := by
    rw [accessLinesFromNow, if_neg (Nat.ne_of_gt positive), ← rtake_rtake, map_rtake, ← queue,
      List.rtake_eq_reverse_take_reverse]
    simp only [reserved, ↓reduceIte, copyLines_eq, List.drop_zero]
    rfl
  exact ⟨lines, by rw [lines]; exact final_outside _ _ _⟩

/-- They are held as they are exactly if each survives the move. -/
theorem holdsLast_whole_iff {capacity : Nat} {messages : List IRCMessage} {buffer : IRCMessageBuffer}
    (held : buffer.queue = (messages.rtake (min capacity messages.length)).map IRCMessage.move) :
    HoldsLast σ .whole capacity messages buffer ↔
      ∀ msg ∈ messages.rtake (min capacity messages.length), msg.Survives := by
  rw [← map_move_eq_iff, ← held]
  exact ⟨HoldsLast.queue, holdsLast_of_queue⟩

/-- A buffer that is constructed and pushed onto. -/
theorem pushes_empty (capacity : Nat) (messages : List IRCMessage) (s : σ) :
    ∃ buffer : IRCMessageBuffer,
      (messages.forM pushMessage : BufferM σ Unit) (.empty capacity, s) = .ok () (buffer, s) ∧
      buffer.queue = (messages.rtake (min capacity messages.length)).map IRCMessage.move := by
  have nothing : (empty capacity).queue =
      (([] : List IRCMessage).rtake (empty capacity).capacity).map IRCMessage.move := by simp [empty]
  obtain ⟨buffer, ran, queue⟩ := pushes_ok messages nothing s
  refine ⟨buffer, ran, ?_⟩
  rw [rtake_min, queue]
  rfl

/-- What is pushed is held and handed out exactly if none of the messages to be held lies in a string that moves with
its text. -/
theorem holdsLast_iff (capacity : Nat) (messages : List IRCMessage) (s : σ) :
    ∃ buffer : IRCMessageBuffer,
      (messages.forM pushMessage : BufferM σ Unit) (.empty capacity, s) = .ok () (buffer, s) ∧
      (HoldsLast σ .whole capacity messages buffer ↔
        ∀ msg ∈ messages.rtake (min capacity messages.length), msg.Survives) := by
  obtain ⟨buffer, ran, held⟩ := pushes_empty capacity messages s
  exact ⟨buffer, ran, holdsLast_whole_iff held⟩

/-- Room for two of three messages, one of which is asked for; the function notes what it is given. -/
theorem holdsLast_iff_sample : ∃ buffer : IRCMessageBuffer,
    ([ownJoinMessage, ownJoinMessage, evilMessage].forM pushMessage : BufferM (List (List MovedMessage)) Unit)
      (.empty 2, []) = .ok () (buffer, []) ∧
    buffer.queue = [.whole ownJoinMessage, .whole evilMessage] ∧
    accessLinesFromNow (fun _ => true) 1 (fun lines => modify (· ++ [lines])) (buffer, []) =
      .ok () (buffer, [[.whole evilMessage]]) := by
  obtain ⟨buffer, pushed, whole⟩ :=
    holdsLast_iff 2 [ownJoinMessage, ownJoinMessage, evilMessage] ([] : List (List MovedMessage))
  have holds := whole.mpr (by decide)
  refine ⟨buffer, pushed, holds.queue, ?_⟩
  rw [(holds.lines (fun _ => true) 1 (fun lines => modify (· ++ [lines])) [] (by decide) rfl).1]
  rfl

/-- "PRIVMSG #a :hi" is pushed. -/
theorem short_message_dangles : ¬ ∀ (capacity : Nat) (messages : List IRCMessage) (buffer : IRCMessageBuffer),
    0 < capacity → (∀ msg ∈ messages, IRCMessage.ofLine msg.time msg.data = .ok msg) →
      (messages.forM pushMessage : BufferM Unit Unit) (.empty capacity, ()) = .ok () (buffer, ()) →
        HoldsLast Unit .whole capacity messages buffer := by
  intro all
  obtain ⟨buffer, pushed, held⟩ := pushes_empty 1 [hiMessage] ()
  have read : IRCMessage.ofLine hiMessage.time hiMessage.data = .ok hiMessage := by decide
  have holds := all 1 [hiMessage] buffer Nat.one_pos (by simpa using read) pushed
  have survives : hiMessage.Survives := (holdsLast_whole_iff held).mp holds hiMessage (by decide)
  revert survives
  decide

end IRCMessageBuffer

end SaivBot
