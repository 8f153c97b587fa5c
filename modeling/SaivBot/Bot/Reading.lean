import SaivBot.Bot.Frame
import SaivBot.Connection.ReadBuffer
import SaivBot.Transition

/-! The handlers of the read strand and the order in which they can run.

A chunk arrives for a read that is pending. An exception ends the handler where
it was thrown; `workFunc` catches it and the strand goes on from that state.
-/

set_option autoImplicit false

namespace SaivBot
open Program BotState

namespace ReadStrand

variable (env : Environment)

/-- `m_msg_pre_buffer.emplace_back`: the constructor parses the line. -/
def emplaceMessage (line : Bytes) : BotM Unit := do
  let bot ← get
  let msg ← lift ((IRCMessage.ofLine (env.now bot) line).mapError Abort.ofView)
  modify fun bot => { bot with msgPreBuffer := bot.msgPreBuffer ++ [msg] }

/-- One iteration of `parseBuffer`. -/
def parseLine : BotM Bool := do
  let bot ← get
  match StringView.findChar ReadBuffer.isLineBreak bot.buffer with
  | none => return false
  | some n =>
    if n + crlf.length ≤ bot.buffer.length then
      -- The line is gone from the buffer before its message is made.
      modify fun bot => { bot with buffer := bot.buffer.drop (n + crlf.length) }
      emplaceMessage env (bot.buffer.take n)
      return true
    else throw (.fault .eraseRange)

def parseBuffer : BotM Unit := do
  loop (parseLine env) ((← get).buffer.length + 1)

def asyncReadSome : BotM Unit := modify fun bot => { bot with pendingReads := bot.pendingReads + 1 }

/-- `m_buffer.append`. -/
def appended (chunk : Bytes) (bot : BotState) : BotState := { bot with buffer := bot.buffer ++ chunk }

/-- `onRead` of a read without an error. -/
def onRead (chunk : Bytes) : BotM Unit := do
  modify (appended chunk)
  parseBuffer env
  consumeMsgBuffer env (commandContainers env)
  -- Reached only if no line and no message has thrown.
  if !(← get).suspendRead then asyncReadSome else return ()

/-- `insert_msg_handler`. -/
def insertMessage (str : Bytes) : BotM Unit := do
  emplaceMessage env str
  consumeMsgBuffer env (commandContainers env)

/-- `onHandshake` without an error, as far as the read strand goes. -/
def onHandshake : BotM Unit := do
  modify fun bot => { bot with suspendRead := false }
  let bot ← get
  sendJOIN (formatIRCChannelName bot.nick)
  sendPRIVMSG (formatIRCChannelName bot.nick) (ascii "monkaMEGA")
  bot.channels.keys.forM sendJOIN
  modify fun bot => { bot with timeStarted := env.now bot }
  asyncReadSome

inductive Event where
  | read (chunk : Bytes)
  | readError
  | insertMessage (str : Bytes)
  | handshake

/-- The read whose handler runs is pending no longer. -/
def completeRead (bot : BotState) : BotState := { bot with pendingReads := bot.pendingReads - 1 }

inductive Step : BotState → Event → BotState → Prop where
  | read {bot : BotState} {chunk : Bytes} : 0 < bot.pendingReads →
      Step bot (.read chunk) (final (onRead env chunk (completeRead bot)))
  /-- `onRead` of a read with an error throws at once. -/
  | readError {bot : BotState} : 0 < bot.pendingReads → Step bot .readError (completeRead bot)
  | insertMessage {bot : BotState} {str : Bytes} {before after : List Posted} :
      bot.posted = before ++ .insertMessage str :: after →
      Step bot (.insertMessage str) (final (insertMessage env str { bot with posted := before ++ after }))
  | handshake {bot : BotState} : Step bot .handshake (final (onHandshake env bot))

/-- As the constructor leaves it. -/
structure Constructed (bot : BotState) : Prop where
  buffer : bot.buffer = []
  msgPreBuffer : bot.msgPreBuffer = []
  suspendRead : bot.suspendRead = true
  pendingReads : bot.pendingReads = 0
  posted : bot.posted = []

/-! The loop on the bot cuts the lines that the loop on the text cuts. -/

variable {env} {bot : BotState}

theorem emplaceMessage_ok (env : Environment) {line : Bytes} (nonempty : line ≠ []) (bot : BotState) :
    ∃ msg, msg.data = line ∧
      emplaceMessage env line bot = .ok () { bot with msgPreBuffer := bot.msgPreBuffer ++ [msg] } := by
  obtain ⟨msg, arguments, parsed, readOff⟩ := IRCMessage.ofLine_total nonempty (env.now bot)
  refine ⟨msg, readOff.data, ?_⟩
  rw [emplaceMessage, get_bind, parsed]
  rfl

theorem parseLine_clean (clean : ReadBuffer.NoLineBreak bot.buffer) : parseLine env bot = .ok false bot := by
  rw [parseLine, get_bind, StringView.findChar_eq_none.mpr ((ReadBuffer.noLineBreak_iff _).mp clean)]
  rfl

theorem parseLine_more (env : Environment) {line : Bytes} {c d : Byte} {tail : Bytes} (clean : ReadBuffer.NoLineBreak line)
    (hit : ReadBuffer.isLineBreak c = true) (nonempty : line ≠ []) (text : bot.buffer = line ++ c :: d :: tail) :
    ∃ msg, msg.data = line ∧
      parseLine env bot = .ok true { bot with buffer := tail, msgPreBuffer := bot.msgPreBuffer ++ [msg] } := by
  obtain ⟨msg, data, emplaced⟩ := emplaceMessage_ok env nonempty { bot with buffer := tail }
  refine ⟨msg, data, ?_⟩
  have found : StringView.findChar ReadBuffer.isLineBreak bot.buffer = some line.length := by
    rw [text]
    exact StringView.findChar_append ((ReadBuffer.noLineBreak_iff line).mp clean) hit (d :: tail)
  have long : line.length + crlf.length ≤ bot.buffer.length := by simp [text, crlf]
  have cut : bot.buffer.take line.length = line := by rw [text, List.take_left]
  have behind : bot.buffer.drop (line.length + crlf.length) = tail := by
    rw [text]
    simp [crlf, List.drop_append]
  rw [parseLine, get_bind, found]
  dsimp only
  rw [if_pos long, modify_bind, cut, behind, bind_ok emplaced]
  rfl

/-- Induction along the text, as the loop goes through it. -/
theorem parseBuffer_loop {fuel : Nat} {lines : List Bytes} {rest : Bytes} (enough : bot.buffer.length ≤ fuel)
    (parsed : ReadBuffer.parseLines fuel bot.buffer = .ok (lines, rest)) (nonempty : ∀ line ∈ lines, line ≠ []) :
    ∃ msgs : List IRCMessage, msgs.map (·.data) = lines ∧
      loop (parseLine env) (fuel + 1) bot =
        .ok () { bot with buffer := rest, msgPreBuffer := bot.msgPreBuffer ++ msgs } := by
  generalize text : bot.buffer = buffer at *
  induction ReadBuffer.shape buffer generalizing fuel lines bot with
  | clean clean =>
    subst text
    rw [ReadBuffer.parseLines_clean clean] at parsed
    cases parsed
    refine ⟨[], rfl, ?_⟩
    rw [loop_stop (parseLine_clean clean), List.append_nil]
  | last clean hit => exact absurd parsed (ReadBuffer.parseLines_last_ne clean hit enough _)
  | @more line c d tail clean hit _ ih =>
    obtain ⟨less, others, rfl, enough, inner, rfl⟩ := ReadBuffer.parseLines_more_ok clean hit enough parsed
    obtain ⟨msg, data, cut⟩ := parseLine_more env clean hit (nonempty line (by simp)) text
    obtain ⟨msgs, datas, looped⟩ := @ih
      { bot with buffer := tail, msgPreBuffer := bot.msgPreBuffer ++ [msg] } _ _
      (fun line member => nonempty line (List.mem_cons_of_mem _ member)) rfl enough inner
    refine ⟨msg :: msgs, by rw [List.map_cons, data, datas], ?_⟩
    rw [loop_again cut, looped, List.append_assoc]
    rfl

theorem parseBuffer_lines {lines : List Bytes} {rest : Bytes}
    (parsed : ReadBuffer.parseBuffer bot.buffer = .ok (lines, rest)) (nonempty : ∀ line ∈ lines, line ≠ []) :
    ∃ msgs : List IRCMessage, msgs.map (·.data) = lines ∧
      parseBuffer env bot = .ok () { bot with buffer := rest, msgPreBuffer := bot.msgPreBuffer ++ msgs } :=
  parseBuffer_loop (Nat.le_refl _) parsed nonempty

end ReadStrand

end SaivBot
