import SaivBot.Bot.Carryover
import SaivBot.Message.Copying
import SaivBot.Message.LineBreaks

/-! What the server asks for on every connection: a PONG for a PING, and a new connection for a RECONNECT.

Each is done once for each line that asks for it, in whatever chunks its lines arrive
that cut no line end, and whatever the other messages throw: a line is counted when it
is cut off, as long as its message waits, and as the work that is posted when the
message goes.
-/

set_option autoImplicit false

namespace SaivBot
open Program BotState Transition ReadBuffer DelimitedLines

/-- The first word of a line, or the one behind its origin. -/
def lineCommand (line : Bytes) : Bytes :=
  (if StartsColon line then behindSpace line else line).takeWhile (· ≠ Byte.space)

theorem CommandShape.command_eq {text command arguments : Bytes} (shape : CommandShape text command arguments) :
    text.takeWhile (· ≠ Byte.space) = command := by
  cases shape with
  | lone clean => exact takeWhile_clean clean
  | spaced split clean =>
    rw [split]
    exact takeWhile_word clean _

/-- The parser's command is the one of the text. -/
theorem LineShape.lineCommand_eq {line nick command arguments : Bytes} (shape : LineShape line nick command arguments) :
    lineCommand line = command := by
  unfold lineCommand
  cases shape with
  | plain plain shape =>
    rw [if_neg plain]
    exact shape.command_eq
  | origin split clean _ shape =>
    have cleanOrigin := List.not_mem_cons_of_ne_of_not_mem (by decide : Byte.space ≠ Byte.colon) clean
    rw [if_pos ⟨_, split⟩, split, behindSpace_word cleanOrigin]
    exact shape.command_eq
  | originOnly split clean =>
    have cleanOrigin := List.not_mem_cons_of_ne_of_not_mem (by decide : Byte.space ≠ Byte.colon) clean
    rw [if_pos ⟨_, split⟩, split, behindSpace_word cleanOrigin]
    rfl
  | lone split clean =>
    have cleanLine := List.not_mem_cons_of_ne_of_not_mem (by decide : Byte.space ≠ Byte.colon) clean
    rw [if_pos ⟨_, split⟩, split, behindSpace_clean cleanLine]
    exact takeWhile_clean cleanLine

theorem lineCommand_ofLine {time : TimePoint} {line : Bytes} {msg : IRCMessage}
    (made : IRCMessage.ofLine time line = .ok msg) : msg.getCommand = lineCommand line := by
  by_cases nonempty : line = []
  · subst nonempty
    cases made
  · obtain ⟨other, arguments, parsed, readOff⟩ := IRCMessage.ofLine_total nonempty time
    obtain rfl := Except.ok.inj (made.symm.trans parsed)
    exact readOff.shape.lineCommand_eq.symm

namespace ReadStrand

variable (env : Environment) (command : Bytes) (answer : Posted → Bool)

def calls (line : Bytes) : Bool := lineCommand line == command

/-- The answers that are posted, and the messages that still wait for one. -/
def owed (bot : BotState) : Nat :=
  bot.posted.countP answer + bot.msgPreBuffer.countP fun msg => msg.getCommand == command

/-- A message of this command is answered with one piece of work, and nothing else is. -/
structure Answers : Prop where
  processed : ∀ (msg : IRCMessage) (bot : BotState),
    (final (processMessage env (commandContainers env) msg bot)).posted.countP answer =
      bot.posted.countP answer + if msg.getCommand == command then 1 else 0
  returns : ∀ (msg : IRCMessage) (bot : BotState), msg.getCommand = command →
    Returns (processMessage env (commandContainers env) msg) bot
  named : command ≠ []
  joining : ∀ channel, answer (.sendIRC (joinLine channel)) = false
  greeting : ∀ channel text, answer (.sendIRC (privmsg channel text)) = false
  inserting : ∀ str, answer (.insertMessage str) = false

variable {env command answer} {bot bot' : BotState}

section

variable (answers : Answers env command answer)

include answers

/-- A message goes with its answer, or stays with what it asks for. -/
theorem Answers.front : Preserves (owed command answer) (consumeFront env (commandContainers env)) := by
  intro bot
  cases queue : bot.msgPreBuffer with
  | nil => rw [consumeFront_nil queue, final]
  | cons msg rest =>
    rw [consumeFront_cons queue]
    have posted := answers.processed msg bot
    have kept := reading_processMessage env msg bot
    cases processed : processMessage env (commandContainers env) msg bot with
    | error e middle =>
      rw [processed] at posted kept
      rw [bind_error processed]
      -- What throws is no message of this command, and it stays in front.
      have other : msg.getCommand ≠ command := by
        intro same
        obtain ⟨_, _, returned⟩ := answers.returns msg bot same
        rw [returned] at processed
        cases processed
      simp only [final, reading, Prod.mk.injEq] at posted kept ⊢
      simpa [owed, kept.2.1, other] using posted
    | ok _ middle =>
      rw [processed] at posted kept
      rw [bind_ok processed]
      simp only [final, reading, Prod.mk.injEq] at posted kept
      change owed command answer { middle with msgPreBuffer := middle.msgPreBuffer.tail } = _
      simp only [owed, posted, kept.2.1, queue, List.tail_cons, List.countP_cons]
      omega

theorem Answers.consume :
    Preserves (owed command answer) (consumeMsgBuffer env (commandContainers env)) := by
  apply preserves_bind preserves_get
  intro bot
  exact preserves_loop answers.front _

theorem Answers.handshake : Preserves (owed command answer) (onHandshake env) := by
  have posting {line : Bytes} (other : answer (.sendIRC line) = false) :
      Preserves (owed command answer) (postSendIRC line) :=
    preserves_modify fun bot => by simp [owed, posting, other]
  apply preserves_bind
  · exact preserves_modify fun _ => rfl
  intro _
  apply preserves_bind preserves_get
  intro bot
  apply preserves_bind (posting (answers.joining _))
  intro _
  apply preserves_bind (posting (answers.greeting _ _))
  intro _
  apply preserves_bind
  · exact preserves_forM fun channel => posting (answers.joining channel)
  intro _
  apply preserves_bind
  · exact preserves_modify fun _ => rfl
  · exact fun _ => preserves_modify fun _ => rfl

/-- A line that is made into a message brings what it asks for. -/
theorem Answers.emplace (line : Bytes) (bot : BotState) :
    owed command answer (final (emplaceMessage env line bot)) =
      owed command answer bot + if calls command line then 1 else 0 := by
  by_cases nonempty : line = []
  · subst nonempty
    -- An empty line is no message, and it calls no command.
    have nothing : calls command [] = false := by simpa [calls, lineCommand, StartsColon] using answers.named.symm
    rw [nothing]
    rfl
  · obtain ⟨msg, arguments, parsed, readOff⟩ := IRCMessage.ofLine_total nonempty (env.now bot)
    have called : msg.getCommand = lineCommand line := lineCommand_ofLine parsed
    have emplaced : final (emplaceMessage env line bot) =
        { bot with msgPreBuffer := bot.msgPreBuffer ++ [msg] } := by
      rw [emplaceMessage, get_bind, parsed]
      rfl
    rw [emplaced]
    simp [owed, calls, called, List.countP_append, List.countP_singleton, Nat.add_assoc]

end

/-! The messages that are cut off are those of their lines. -/

/-- Messages have come, and nothing else that is counted. -/
def Brought (bot bot' : BotState) : Prop :=
  ∃ msgs, bot'.msgPreBuffer = bot.msgPreBuffer ++ msgs ∧ bot'.posted = bot.posted ∧
    ∀ msg ∈ msgs, msg.getCommand = lineCommand msg.data

instance : IsPreorder BotState Brought where
  refl bot := ⟨[], by simp⟩
  trans := by
    rintro bot middle bot' ⟨msgs, queue, posted, each⟩ ⟨msgs', queue', posted', each'⟩
    refine ⟨msgs ++ msgs', by rw [queue', queue, List.append_assoc], posted'.trans posted, ?_⟩
    exact List.forall_mem_append.mpr ⟨each, each'⟩

theorem leads_brought (bot : BotState) : Leads Brought (parseLine env) bot := by
  apply leads_get_bind
  split
  · exact leads_pure _ bot
  · next n found =>
    apply leads_ite _ fun _ => leads_throw _ bot
    intro _
    apply leads_modify_bind ⟨[], by simp⟩
    refine leads_bind (leads_get_bind (leads_lift_bind fun msg made => ?_)) fun _ bot' _ => leads_pure _ bot'
    have parsed := mapError_eq_ok.mp made
    exact ⟨[msg], rfl, rfl, by simp [lineCommand_ofLine parsed, IRCMessage.data_ofLine parsed]⟩

theorem owed_parseBuffer (command : Bytes) (answer : Posted → Bool) (bot : BotState) :
    owed command answer (final (parseBuffer env bot)) = owed command answer bot +
      (((final (parseBuffer env bot)).msgPreBuffer.drop bot.msgPreBuffer.length).map (·.data)).countP (calls command) := by
  have brought : Leads Brought (parseBuffer env) bot := leads_get_bind (leads_loop leads_brought _ bot)
  obtain ⟨msgs, queue, posted, each⟩ := brought
  have counted : msgs.countP (fun msg => msg.getCommand == command) = (msgs.map (·.data)).countP (calls command) := by
    rw [List.countP_map]
    exact List.countP_congr fun msg member => by simp [calls, each msg member]
  rw [queue, List.drop_left, ← counted]
  simp only [owed, queue, posted, List.countP_append, Nat.add_assoc]

theorem Answers.read (answers : Answers env command answer) (chunk : Bytes) (bot : BotState) :
    owed command answer (final (onRead env chunk bot)) =
      owed command answer bot + (pushedLines env chunk bot).countP (calls command) := by
  have rest : Preserves (owed command answer) (do
      consumeMsgBuffer env (commandContainers env)
      if !(← get).suspendRead then asyncReadSome else return ()) := by
    apply preserves_bind answers.consume
    intro _
    apply preserves_bind preserves_get
    intro bot
    exact preserves_ite (preserves_modify fun _ => rfl) (preserves_pure _)
  calc owed command answer (final (onRead env chunk bot))
    _ = owed command answer (final (parseBuffer env (appended chunk bot))) :=
      view_final_bind (fun _ => rest) (appended chunk bot)
    _ = _ := owed_parseBuffer command answer (appended chunk bot)

theorem Answers.insert (answers : Answers env command answer) (str : Bytes) (bot : BotState) :
    owed command answer (final (insertMessage env str bot)) =
      owed command answer bot + if calls command str then 1 else 0 :=
  (view_final_bind (fun _ => answers.consume) bot).trans (answers.emplace str bot)

/-! Runs, with all that has come. -/

/-- The bot, the chunks of all its connections, and the texts put in by command. -/
structure Mail where
  bot : BotState
  chunks : List Bytes
  inserted : List Bytes

variable (env) in
/-- The steps of the read strand. A line end that a chunk cuts, and an empty line, would end the run in a fault. -/
inductive MailStep : Mail → Event → Mail → Prop where
  | read {mail : Mail} {chunk : Bytes} {bot' : BotState} : Step env mail.bot (.read chunk) bot' →
      WholePairs chunk → (∀ line ∈ (splitLines (mail.bot.buffer ++ chunk)).1, line ≠ []) →
      MailStep mail (.read chunk) { mail with bot := bot', chunks := mail.chunks ++ [chunk] }
  | readError {mail : Mail} {bot' : BotState} : Step env mail.bot .readError bot' →
      MailStep mail .readError { mail with bot := bot' }
  | insertMessage {mail : Mail} {str : Bytes} {bot' : BotState} : Step env mail.bot (.insertMessage str) bot' →
      MailStep mail (.insertMessage str) { mail with bot := bot', inserted := mail.inserted ++ [str] }
  | handshake {mail : Mail} {bot' : BotState} : Step env mail.bot .handshake bot' →
      MailStep mail .handshake { mail with bot := bot' }

/-- The lines of all chunks have been cut off, and what they ask for is owed or done. -/
structure Settled (command : Bytes) (answer : Posted → Bool) (mail : Mail) : Prop where
  whole : ∀ chunk ∈ mail.chunks, WholePairs chunk
  counted : ∃ lines, ReadBuffer.onReads ([], []) mail.chunks = .ok (lines, mail.bot.buffer) ∧
    owed command answer mail.bot = (lines ++ mail.inserted).countP (calls command)

/-- Whole lines are parsed. -/
theorem returns_parseBuffer {chunk : Bytes} (clean : NoLineBreak bot.buffer) (whole : WholePairs chunk)
    (nonempty : ∀ line ∈ (splitLines (bot.buffer ++ chunk)).1, line ≠ []) :
    Returns (parseBuffer env) (appended chunk bot) := by
  have paired : WholePairs (appended chunk bot).buffer := clean.paired_append whole
  obtain ⟨msgs, -, parsed⟩ := parseBuffer_lines (parseLines_paired paired (Nat.le_refl _)) nonempty
  exact ⟨(), _, parsed⟩

theorem Answers.step (answers : Answers env command answer) {mail mail' : Mail} {event : Event}
    (step : MailStep env mail event mail') (settled : Settled command answer mail) : Settled command answer mail' := by
  obtain ⟨earlier, lines, cut, same⟩ := settled
  cases step with
  | @read chunk bot' step whole nonempty =>
    cases step with
    | read pending =>
      have clean : NoLineBreak mail.bot.buffer := (onReads_clean_result (by simp) clean_nil cut).2
      have returns : Returns (parseBuffer env) (appended chunk (completeRead mail.bot)) :=
        returns_parseBuffer clean whole nonempty
      have counted := answers.read chunk (completeRead mail.bot)
      refine ⟨List.forall_mem_append.mpr ⟨earlier, List.forall_mem_singleton.mpr whole⟩,
        lines ++ pushedLines env chunk (completeRead mail.bot), ?_, ?_⟩
      · rw [ReadBuffer.onReads, List.foldlM_append, ← ReadBuffer.onReads, cut, buffer_onRead]
        exact (bind_pure _).trans (onRead_of_returns returns lines)
      · change owed command answer (final (onRead env chunk (completeRead mail.bot))) = _
        have before : owed command answer (completeRead mail.bot) = owed command answer mail.bot := rfl
        rw [counted, before, same]
        simp only [List.countP_append]
        omega
  | readError step =>
    cases step with
    | readError pending => exact ⟨earlier, lines, cut, same⟩
  | @insertMessage str bot' step =>
    cases step with
    | @insertMessage _ before after posted =>
      have kept : Preserves BotState.buffer (insertMessage env str) := buffer_insertMessage str
      refine ⟨earlier, lines, by rw [cut, kept], ?_⟩
      -- The text was posted as work that answers nothing.
      have taken : owed command answer { mail.bot with posted := before ++ after } = owed command answer mail.bot := by
        simp [owed, posted, answers.inserting]
      change owed command answer (final (insertMessage env str { mail.bot with posted := before ++ after })) = _
      rw [answers.insert, taken, same]
      simp only [List.countP_append, List.countP_singleton, Nat.add_assoc]
  | handshake step =>
    cases step with
    | handshake =>
      have kept : Preserves BotState.buffer (onHandshake env) := buffer_onHandshake
      exact ⟨earlier, lines, by rw [cut, kept], (answers.handshake mail.bot).trans same⟩

theorem Answers.run (answers : Answers env command answer) {start : BotState} {mail : Mail}
    (constructed : Constructed start) (reached : Reaches (MailStep env) ⟨start, [], []⟩ mail) :
    owed command answer mail.bot =
        ((splitLines mail.chunks.flatten).1 ++ mail.inserted).countP (calls command) ∧
      mail.bot.buffer = (splitLines mail.chunks.flatten).2 := by
  have initial : Settled command answer ⟨start, [], []⟩ := by
    refine ⟨by simp, [], ?_, ?_⟩
    · rw [constructed.buffer]
      rfl
    · simp [owed, constructed.posted, constructed.msgPreBuffer]
  obtain ⟨whole, lines, cut, same⟩ := reached.invariant initial fun settled step => answers.step step settled
  have split : (lines, mail.bot.buffer) = splitLines mail.chunks.flatten := by
    have read := cut.symm.trans (onReads_paired whole clean_nil)
    simpa using Except.ok.inj read
  rw [← split]
  exact ⟨same, rfl⟩

/-! The two requests of the server. -/

def isPong : Posted → Bool
  | .sendIRC line => line == ascii "PONG"
  | _ => false

theorem isPong_privmsg (channel text : Bytes) : isPong (.sendIRC (privmsg channel text)) = false := by
  have opening : ascii "PRIVMSG " = 80 :: 82 :: ascii "IVMSG " := by decide
  have pong : ascii "PONG" = 80 :: 79 :: ascii "NG" := by decide
  simp [isPong, privmsg, opening, pong]

theorem isPong_joinLine (channel : Bytes) : isPong (.sendIRC (joinLine channel)) = false := by
  have opening : ascii "JOIN " = 74 :: ascii "OIN " := by decide
  have pong : ascii "PONG" = 80 :: 79 :: ascii "NG" := by decide
  simp [isPong, joinLine, opening, pong]

theorem isPong_partLine (channel : Bytes) : isPong (.sendIRC (partLine channel)) = false := by
  have opening : ascii "PART " = 80 :: 65 :: ascii "RT " := by decide
  have pong : ascii "PONG" = 80 :: 79 :: ascii "NG" := by decide
  simp [isPong, partLine, opening, pong]

theorem isPong_replyLine {msg : IRCMessage} {reply line : Bytes} (made : msg.replyLine reply = .ok line) :
    isPong (.sendIRC line) = false := by
  obtain ⟨channel, text, rfl⟩ := IRCMessage.replyLine_privmsg made
  exact isPong_privmsg channel text

/-- No command and no other message answers like a PING. -/
theorem isPong_of_causes {msg : IRCMessage} {work : Posted} (other : msg.getCommand ≠ ascii "PING")
    (causes : Causes env msg bot work) : isPong work = false := by
  cases causes with
  | raffle | changed => exact isPong_privmsg _ _
  | pong ping => exact absurd ping other
  | suspendWrite => rfl
  | command _ _ _ posts =>
    cases posts with
    | help | invalidService | clipInvalid | joinGreeting | uptime | say | sayRest => exact isPong_privmsg _ _
    | joinChannel => exact isPong_joinLine _
    | part => exact isPong_partLine _
    | invalidPeriod _ _ made | ping made | commands made | flags made => exact isPong_replyLine made
    | shutdown | query | clip | insertMessage => rfl

theorem answers_ping : Answers env (ascii "PING") isPong where
  processed msg bot := by
    by_cases ping : msg.getCommand = ascii "PING"
    · rw [processMessage, if_neg (by rw [ping]; decide), if_pos ping, ping]
      change (bot.posted ++ [Posted.sendIRC (ascii "PONG")]).countP isPong = _
      rw [List.countP_append]
      rfl
    · have absorbs : Absorbs env msg bot (Alike fun bot => bot.posted.countP isPong) :=
        { posting := fun bot' work causes => by simp [Alike, BotState.posting, isPong_of_causes ping causes]
          configFile := fun _ _ => rfl
          whitelist := fun _ _ _ _ => rfl
          channels := fun _ _ _ => rfl
          suspendRead := fun _ _ => rfl }
      have kept : (final (processMessage env (commandContainers env) msg bot)).posted.countP isPong =
          bot.posted.countP isPong := leads_processMessage absorbs
      simpa [ping] using kept
  returns msg bot ping := by
    rw [processMessage, if_neg (by rw [ping]; decide), if_pos ping]
    exact returns_post _ bot
  named := by decide
  joining := isPong_joinLine
  greeting := isPong_privmsg
  inserting _ := rfl

theorem answers_reconnect : Answers env (ascii "RECONNECT") Posted.isSuspendWrite where
  processed msg bot := by
    have counted := congrArg Prod.snd (suspensions_processMessage env msg bot)
    by_cases reconnect : msg.getCommand = ascii "RECONNECT" <;> simpa [suspensions, reconnect] using counted
  returns msg bot reconnect := by
    rw [processMessage, if_neg (by rw [reconnect]; decide), if_neg (by rw [reconnect]; decide), if_pos reconnect]
    exact (returns_modify_bind _ _ bot).mpr (returns_post _ _)
  named := by decide
  joining _ := rfl
  greeting _ _ := rfl
  inserting _ := rfl

/-- In every run each line that is a PING is answered by one PONG, and each RECONNECT by one suspension of the
send strand, unless its message still waits; and nothing else is. -/
theorem answered_once {start : BotState} {mail : Mail} (constructed : Constructed start)
    (reached : Reaches (MailStep env) ⟨start, [], []⟩ mail) :
    ∃ lines, splitLines mail.chunks.flatten = (lines, mail.bot.buffer) ∧
      (mail.bot.posted.countP isPong + mail.bot.msgPreBuffer.countP fun msg => msg.getCommand == ascii "PING") =
        (lines ++ mail.inserted).countP (fun line => lineCommand line == ascii "PING") ∧
      (mail.bot.posted.countP Posted.isSuspendWrite +
          mail.bot.msgPreBuffer.countP fun msg => msg.getCommand == ascii "RECONNECT") =
        (lines ++ mail.inserted).countP fun line => lineCommand line == ascii "RECONNECT" := by
  obtain ⟨pings, rest⟩ := answers_ping.run constructed reached
  obtain ⟨reconnects, -⟩ := answers_reconnect.run constructed reached
  exact ⟨_, Prod.ext rfl rest.symm, pings, reconnects⟩

/-- A PING and a RECONNECT that come in one chunk. -/
def sampleMail : Mail := ⟨beforeReconnect (ascii "PING\r\nRECONNECT\r\n"), [ascii "PING\r\nRECONNECT\r\n"], []⟩

theorem reaches_sampleMail : Reaches (MailStep sampleEnvironment) ⟨sampleBot, [], []⟩ sampleMail := by
  have whole : WholePairs (ascii "PING\r\nRECONNECT\r\n") :=
    @wholePairs_line (ascii "PING") _ (by decide) (@wholePairs_line (ascii "RECONNECT") [] (by decide) .nil)
  have read : MailStep sampleEnvironment ⟨sampleConnected, [], []⟩ (.read (ascii "PING\r\nRECONNECT\r\n")) sampleMail :=
    .read (.read (by decide)) whole (by decide +kernel)
  exact .tail (.single ⟨_, .handshake .handshake⟩) ⟨_, read⟩

theorem answered_once_sample :
    ∃ lines, splitLines sampleMail.chunks.flatten = (lines, sampleMail.bot.buffer) ∧
      (sampleMail.bot.posted.countP isPong +
          sampleMail.bot.msgPreBuffer.countP fun msg => msg.getCommand == ascii "PING") =
        lines.countP (fun line => lineCommand line == ascii "PING") ∧
      (sampleMail.bot.posted.countP Posted.isSuspendWrite +
          sampleMail.bot.msgPreBuffer.countP fun msg => msg.getCommand == ascii "RECONNECT") =
        lines.countP fun line => lineCommand line == ascii "RECONNECT" := by
  obtain ⟨lines, cut, pings, reconnects⟩ := answered_once constructed_sampleBot reaches_sampleMail
  rw [show sampleMail.inserted = [] from rfl, List.append_nil] at pings reconnects
  exact ⟨lines, cut, pings, reconnects⟩

end ReadStrand
end SaivBot
