import SaivBot.Agreement
import SaivBot.Bot.Effects
import SaivBot.Bot.Reading

/-! What the handlers do not look at.

Two bots that share all that the handlers look at process a message in the same way.
-/

set_option autoImplicit false

namespace SaivBot
open Program BotState

/-- Related bots share all that handlers look at, and stay related by all that handlers do. A command that shows
the kept messages or the starting time has to be allowed to. -/
structure Shares (env : Environment) (allowed : Commands → Prop) (R : BotState → BotState → Prop) : Prop where
  nick : ∀ {bot bot'}, R bot bot' → bot.nick = bot'.nick
  modlist : ∀ {bot bot'}, R bot bot' → bot.modlist = bot'.modlist
  whitelist : ∀ {bot bot'}, R bot bot' → bot.whitelist = bot'.whitelist
  known : ∀ {bot bot'}, R bot bot' → ∀ channel, channel ∈ bot.channels ↔ channel ∈ bot'.channels
  clipping : ∀ {bot bot'} {channel : Bytes} {buffer buffer' : IRCMessageBuffer} (lineCount : Nat) (msg : IRCMessage),
    allowed .clipCommand → R bot bot' → bot.channels.lookup channel = some buffer →
    bot'.channels.lookup channel = some buffer' →
    R (bot.posting (.upload (clipText env ((buffer.linesFromNow lineCount).map (·.shown (env.stale bot)))) msg))
      (bot'.posting (.upload (clipText env ((buffer'.linesFromNow lineCount).map (·.shown (env.stale bot')))) msg))
  timeStarted : ∀ {bot bot'}, R bot bot' → allowed .uptimeCommand → bot.timeStarted = bot'.timeStarted
  now : ∀ {bot bot'}, R bot bot' → env.now bot = env.now bot'
  opensConfig : ∀ {bot bot'}, R bot bot' → env.opensConfig bot = env.opensConfig bot'
  dumps : ∀ {bot bot'}, R bot bot' → (env.dump bot.config).2 = (env.dump bot'.config).2
  posting : ∀ {bot bot'} (work : Posted), R bot bot' → R (bot.posting work) (bot'.posting work)
  promoting : ∀ {bot bot'} (users : Finset Bytes), R bot bot' →
    R { bot with whitelist := users } { bot' with whitelist := users }
  saving : ∀ {bot bot'}, R bot bot' →
    R { bot with configFile := (env.dump bot.config).1 } { bot' with configFile := (env.dump bot'.config).1 }
  suspending : ∀ {bot bot'}, R bot bot' → R { bot with suspendRead := true } { bot' with suspendRead := true }
  buffering : ∀ {bot bot'} (channel : Bytes) (msg : IRCMessage), R bot bot' →
    R (bot.buffering channel msg) (bot'.buffering channel msg)
  joining : ∀ {bot bot'} (channel : Bytes), R bot bot' →
    R { bot with channels := bot.channels.insert channel (.empty messageBufferSize) }
      { bot' with channels := bot'.channels.insert channel (.empty messageBufferSize) }
  parting : ∀ {bot bot'} (channel : Bytes), R bot bot' →
    R { bot with channels := bot.channels.erase channel } { bot' with channels := bot'.channels.erase channel }

namespace Shares

variable {env : Environment} {allowed : Commands → Prop} {R : BotState → BotState → Prop} (shares : Shares env allowed R)
  {bot bot' : BotState} (msg : IRCMessage) (inputLine : Bytes)

include shares

theorem moderator (related : R bot bot') (user : Bytes) : bot.isModerator user = bot'.isModerator user := by
  rw [isModerator, isModerator, shares.modlist related]

theorem whitelisted (related : R bot bot') (user : Bytes) : bot.isWhitelisted user = bot'.isWhitelisted user := by
  rw [isWhitelisted, isWhitelisted, shares.whitelist related]

theorem lookup_none (related : R bot bot') (channel : Bytes) :
    bot.channels.lookup channel = none ↔ bot'.channels.lookup channel = none := by
  rw [AList.lookup_eq_none, AList.lookup_eq_none, shares.known related]

theorem agree_post (related : R bot bot') (work : Posted) : Agree R (post work) (post work) bot bot' :=
  agree_modify (shares.posting work related)

/-- What only a moderator may do. -/
theorem agree_moderated (related : R bot bot') {user : Bytes} {body body' : BotState → BotM Unit}
    (each : Agree R (body bot) (body' bot') bot bot') :
    Agree R (get >>= fun bot => if bot.isModerator user then body bot else pure ())
      (get >>= fun bot => if bot.isModerator user then body' bot else pure ()) bot bot' := by
  apply agree_get_bind
  rw [shares.moderator related]
  exact agree_ite Iff.rfl (fun _ => each) fun _ => agree_pure _ related

theorem agree_trusted (related : R bot bot') {user : Bytes} {body body' : BotState → BotM Unit}
    (each : Agree R (body bot) (body' bot') bot bot') :
    Agree R (get >>= fun bot => if bot.isWhitelisted user then body bot else pure ())
      (get >>= fun bot => if bot.isWhitelisted user then body' bot else pure ()) bot bot' := by
  apply agree_get_bind
  rw [shares.whitelisted related]
  exact agree_ite Iff.rfl (fun _ => each) fun _ => agree_pure _ related

/-- A line to the channel of the message. -/
theorem agree_sendBack (related : R bot bot') (text : Bytes) :
    Agree R (lift msg.firstParam >>= fun channel => sendPRIVMSG channel text)
      (lift msg.firstParam >>= fun channel => sendPRIVMSG channel text) bot bot' :=
  agree_lift_bind related fun _ _ => shares.agree_post related _

theorem agree_reply (related : R bot bot') (reply : Bytes) :
    Agree R (replyToIRCMessage msg reply) (replyToIRCMessage msg reply) bot bot' :=
  agree_lift_bind related fun _ _ => shares.agree_post related _

/-- The file may differ, but not whether it is written. -/
theorem agree_saveConfig (related : R bot bot') : Agree R (saveConfig env) (saveConfig env) bot bot' := by
  apply agree_get_bind
  apply agree_ite (by rw [shares.opensConfig related])
  · intro _
    apply agree_modify_bind
    have saved := shares.saving related
    exact agree_ite (by rw [shares.dumps related]) (fun _ => agree_pure _ saved) fun _ => agree_throw _ saved
  · exact fun _ => agree_throw _ related

/-! The commands. -/

theorem agree_help (related : R bot bot') :
    Agree R (helpCommandFunc env msg inputLine) (helpCommandFunc env msg inputLine) bot bot' := by
  apply shares.agree_trusted related
  dsimp only
  split
  · exact agree_pure _ related
  · split
    · exact agree_pure _ related
    · exact shares.agree_sendBack msg related _

theorem agree_startQuery (related : R bot bot') (kind : QueryKind) (plan : QueryPlan) :
    Agree R (startQuery env kind msg plan) (startQuery env kind msg plan) bot bot' := by
  unfold startQuery
  split
  · exact agree_throw _ related
  · exact agree_ite Iff.rfl (fun _ => agree_throw _ related) fun _ => shares.agree_post related _

theorem agree_query (related : R bot bot') (command : Commands) (kind : QueryKind) :
    Agree R (queryCommandFunc env command kind msg inputLine) (queryCommandFunc env command kind msg inputLine)
      bot bot' := by
  apply shares.agree_trusted related
  dsimp only
  rw [shares.now related]
  split
  · exact agree_pure _ related
  · apply agree_lift_bind related
    intro channels _
    split
    · exact shares.agree_reply msg related _
    · split
      · exact shares.agree_sendBack msg related _
      · exact shares.agree_startQuery msg related kind _

theorem agree_clip (related : R bot bot') (may : allowed .clipCommand) :
    Agree R (clipCommandFunc env msg inputLine) (clipCommandFunc env msg inputLine) bot bot' := by
  apply shares.agree_trusted related
  apply agree_lift_bind related
  intro channel _
  have same := shares.lookup_none related channel
  -- Both follow the channel or neither does, but the messages kept may differ.
  cases known : bot.channels.lookup channel with
  | none =>
    rw [same.mp known]
    exact agree_pure _ related
  | some buffer =>
    cases known' : bot'.channels.lookup channel with
    | none =>
      rw [same.mpr known'] at known
      cases known
    | some buffer' =>
      dsimp only
      split
      · apply agree_ite Iff.rfl _ fun _ => agree_pure _ related
        intro _
        apply agree_ite Iff.rfl _ fun _ => agree_throw _ related
        exact fun _ => agree_modify (shares.clipping _ msg may related known known')
      · exact shares.agree_post related _

theorem agree_whitelist (related : R bot bot') (change : WhitelistChange) :
    Agree R (whitelistCommandFunc env change msg inputLine) (whitelistCommandFunc env change msg inputLine) bot bot' := by
  apply shares.agree_moderated related
  dsimp only
  split
  · exact agree_pure _ related
  · next word _ =>
    rw [shares.whitelist related]
    apply agree_ite Iff.rfl _ fun _ => agree_pure _ related
    intro _
    have changed : R { bot with whitelist := change.change (toLowerCaseString word) bot.whitelist }
        { bot' with whitelist := change.change (toLowerCaseString word) bot'.whitelist } := by
      rw [shares.whitelist related]
      exact shares.promoting _ related
    apply agree_modify_bind
    apply agree_lift_bind changed
    intro channel _
    exact agree_bind (shares.agree_post changed _) fun _ _ _ _ related => shares.agree_saveConfig related

theorem agree_join (related : R bot bot') :
    Agree R (joinCommandFunc env msg inputLine) (joinCommandFunc env msg inputLine) bot bot' := by
  apply shares.agree_moderated related
  dsimp only
  split
  · exact agree_pure _ related
  · exact agree_bind (shares.agree_post related _) fun _ _ _ _ related => shares.agree_post related _

theorem agree_part (related : R bot bot') :
    Agree R (partCommandFunc env msg inputLine) (partCommandFunc env msg inputLine) bot bot' := by
  apply shares.agree_moderated related
  dsimp only
  split
  · exact agree_pure _ related
  · exact shares.agree_post related _

theorem agree_uptime (related : R bot bot') (may : allowed .uptimeCommand) :
    Agree R (uptimeCommandFunc env msg inputLine) (uptimeCommandFunc env msg inputLine) bot bot' := by
  apply shares.agree_trusted related
  rw [shares.now related, shares.timeStarted related may]
  exact shares.agree_sendBack msg related _

theorem agree_say (related : R bot bot') :
    Agree R (sayCommandFunc env msg inputLine) (sayCommandFunc env msg inputLine) bot bot' := by
  apply shares.agree_moderated related
  dsimp only
  split
  · apply agree_lift_bind related
    intro channel _
    refine agree_forM (fun _ bot bot' related => ?_) related
    split
    · exact agree_throw _ related
    · exact shares.agree_post related _
  · split
    · exact shares.agree_sendBack msg related _
    · exact agree_pure _ related

theorem agree_insertMessage (related : R bot bot') :
    Agree R (testInsertmessageCommandFunc env msg inputLine) (testInsertmessageCommandFunc env msg inputLine) bot bot' := by
  apply shares.agree_moderated related
  dsimp only
  split
  · exact shares.agree_post related _
  · exact agree_pure _ related

/-- One case for each command. -/
theorem agree_commandFunc (related : R bot bot') {command : Commands} (may : allowed command) :
    Agree R (commandFunc env command msg inputLine) (commandFunc env command msg inputLine) bot bot' := by
  cases command with
  | shutdown => exact shares.agree_moderated related (shares.agree_post related _)
  | helpCommand => exact shares.agree_help msg inputLine related
  | countCommand => exact shares.agree_query msg inputLine related .countCommand .count
  | findCommand => exact shares.agree_query msg inputLine related .findCommand .find
  | clipCommand => exact shares.agree_clip msg inputLine related may
  | promoteCommand => exact shares.agree_whitelist msg inputLine related promotion
  | demoteCommand => exact shares.agree_whitelist msg inputLine related demotion
  | joinCommand => exact shares.agree_join msg inputLine related
  | partCommand => exact shares.agree_part msg inputLine related
  | uptimeCommand => exact shares.agree_uptime msg inputLine related may
  | sayCommand => exact shares.agree_say msg inputLine related
  | pingCommand | commandsCommand | flagsCommand => exact shares.agree_reply msg related _
  | testInsertmessageCommand => exact shares.agree_insertMessage msg inputLine related

/-! The messages. -/

variable {msg}

theorem agree_parseFreeMessage (related : R bot bot') :
    Agree R (parseFreeMessage msg) (parseFreeMessage msg) bot bot' := by
  unfold parseFreeMessage
  split
  · exact shares.agree_sendBack msg related _
  · exact agree_pure _ related

theorem agree_runCommand (related : R bot bot')
    (may : ∀ command inputLine, calledCommand env bot.nick msg.getBody = some (command, inputLine) → allowed command) :
    Agree R (runCommand env.optionParser (commandContainers env) msg)
      (runCommand env.optionParser (commandContainers env) msg) bot bot' := by
  unfold Agree
  rw [runCommand_eq, runCommand_eq, ← shares.nick related]
  cases called : calledCommand env bot.nick msg.getBody with
  | none => exact agree_pure _ related
  | some call => exact shares.agree_commandFunc msg call.2 related (may call.1 call.2 called)

theorem agree_bufferMessage (related : R bot bot') : Agree R (bufferMessage msg) (bufferMessage msg) bot bot' :=
  agree_lift_bind related fun channel _ => agree_modify (shares.buffering channel msg related)

theorem agree_ownJoin (related : R bot bot') : Agree R (ownJoin env msg) (ownJoin env msg) bot bot' := by
  apply agree_lift_bind related
  intro channel _
  apply agree_get_bind
  have same := shares.lookup_none related channel
  cases known : bot.channels.lookup channel with
  | none =>
    rw [same.mp known]
    exact agree_modify_bind (shares.agree_saveConfig (shares.joining channel related))
  | some buffer =>
    cases known' : bot'.channels.lookup channel with
    | none =>
      rw [same.mpr known'] at known
      cases known
    | some buffer' => exact agree_pure _ related

theorem agree_ownPart (related : R bot bot') : Agree R (ownPart env msg) (ownPart env msg) bot bot' := by
  apply agree_lift_bind related
  intro channel _
  apply agree_get_bind
  have same := shares.lookup_none related channel
  cases known : bot.channels.lookup channel with
  | none =>
    rw [same.mp known]
    exact agree_pure _ related
  | some buffer =>
    cases known' : bot'.channels.lookup channel with
    | none =>
      rw [same.mpr known'] at known
      cases known
    | some buffer' => exact agree_modify_bind (shares.agree_saveConfig (shares.parting channel related))

/-- Two bots that share what the handlers look at process a message in the same way. -/
theorem agree_processMessage (related : R bot bot')
    (may : ∀ command inputLine, calledCommand env bot.nick msg.getBody = some (command, inputLine) → allowed command) :
    Agree R (processMessage env (commandContainers env) msg) (processMessage env (commandContainers env) msg) bot bot' := by
  unfold processMessage
  apply agree_ite Iff.rfl
  · intro _
    apply agree_bind (shares.agree_parseFreeMessage related)
    intro _ heard heard' free related
    -- The free text has left the nick alone, so the same command is called.
    rw [← (heard_frame free).1] at may
    exact agree_bind (shares.agree_runCommand related may) fun _ _ _ _ related => shares.agree_bufferMessage related
  intro _
  apply agree_ite Iff.rfl
  · exact fun _ => shares.agree_post related _
  intro _
  apply agree_ite Iff.rfl
  · exact fun _ => agree_modify_bind (shares.agree_post (shares.suspending related) _)
  intro _
  apply agree_get_bind
  apply agree_ite (by rw [shares.nick related])
  · intro _
    apply agree_ite Iff.rfl (fun _ => shares.agree_ownJoin related)
    intro _
    exact agree_ite Iff.rfl (fun _ => shares.agree_ownPart related) fun _ => agree_pure _ related
  · exact fun _ => agree_pure _ related

end Shares

/-! The read strand. -/

namespace ReadStrand

/-- Related bots share all that the read strand works on, too. -/
structure SharesStrand (env : Environment) (R : BotState → BotState → Prop) : Prop
    extends Shares env (fun _ => True) R where
  channels : ∀ {bot bot'}, R bot bot' → bot.channels = bot'.channels
  buffer : ∀ {bot bot'}, R bot bot' → bot.buffer = bot'.buffer
  msgPreBuffer : ∀ {bot bot'}, R bot bot' → bot.msgPreBuffer = bot'.msgPreBuffer
  suspendRead : ∀ {bot bot'}, R bot bot' → bot.suspendRead = bot'.suspendRead
  pendingReads : ∀ {bot bot'}, R bot bot' → bot.pendingReads = bot'.pendingReads
  posted : ∀ {bot bot'}, R bot bot' → bot.posted = bot'.posted
  filling : ∀ {bot bot'} (buffer : Bytes), R bot bot' → R { bot with buffer := buffer } { bot' with buffer := buffer }
  queueing : ∀ {bot bot'} (messages : List IRCMessage), R bot bot' →
    R { bot with msgPreBuffer := messages } { bot' with msgPreBuffer := messages }
  reading : ∀ {bot bot'} (pending : Nat), R bot bot' →
    R { bot with pendingReads := pending } { bot' with pendingReads := pending }
  resuming : ∀ {bot bot'}, R bot bot' → R { bot with suspendRead := false } { bot' with suspendRead := false }
  starting : ∀ {bot bot'} (time : TimePoint), R bot bot' →
    R { bot with timeStarted := time } { bot' with timeStarted := time }
  taking : ∀ {bot bot'} (posted : List Posted), R bot bot' →
    R { bot with posted := posted } { bot' with posted := posted }

namespace SharesStrand

variable {env : Environment} {R : BotState → BotState → Prop} (shares : SharesStrand env R) {bot bot' : BotState}

include shares

theorem agree_emplaceMessage (related : R bot bot') (line : Bytes) :
    Agree R (emplaceMessage env line) (emplaceMessage env line) bot bot' := by
  apply agree_get_bind
  rw [shares.now related]
  apply agree_lift_bind related
  intro msg _
  apply agree_modify
  rw [shares.msgPreBuffer related]
  exact shares.queueing _ related

theorem agree_parseLine (related : R bot bot') : Agree R (parseLine env) (parseLine env) bot bot' := by
  apply agree_get_bind
  rw [shares.buffer related]
  split
  · exact agree_pure _ related
  · next n _ =>
    apply agree_ite Iff.rfl _ fun _ => agree_throw _ related
    intro _
    have cut := shares.filling (bot'.buffer.drop (n + crlf.length)) related
    have same : { bot with buffer := bot.buffer.drop (n + crlf.length) } =
        { bot with buffer := bot'.buffer.drop (n + crlf.length) } := by rw [shares.buffer related]
    apply agree_modify_bind
    rw [same]
    exact agree_bind (shares.agree_emplaceMessage cut _) fun _ _ _ _ related => agree_pure _ related

theorem agree_parseBuffer (related : R bot bot') : Agree R (parseBuffer env) (parseBuffer env) bot bot' := by
  apply agree_get_bind
  rw [shares.buffer related]
  exact agree_loop (fun _ _ related => shares.agree_parseLine related) _ related

theorem agree_consumeFront (related : R bot bot') :
    Agree R (consumeFront env (commandContainers env)) (consumeFront env (commandContainers env)) bot bot' := by
  apply agree_get_bind
  rw [shares.msgPreBuffer related]
  split
  · exact agree_pure _ related
  · apply agree_bind (shares.agree_processMessage related fun _ _ _ => trivial)
    intro _ bot bot' _ related
    apply agree_modify_bind
    rw [shares.msgPreBuffer related]
    exact agree_pure _ (shares.queueing _ related)

theorem agree_consumeMsgBuffer (related : R bot bot') :
    Agree R (consumeMsgBuffer env (commandContainers env)) (consumeMsgBuffer env (commandContainers env)) bot bot' := by
  apply agree_get_bind
  rw [shares.msgPreBuffer related]
  exact agree_loop (fun _ _ related => shares.agree_consumeFront related) _ related

theorem agree_asyncReadSome (related : R bot bot') : Agree R asyncReadSome asyncReadSome bot bot' := by
  apply agree_modify
  rw [shares.pendingReads related]
  exact shares.reading _ related

theorem agree_onRead (related : R bot bot') (chunk : Bytes) :
    Agree R (onRead env chunk) (onRead env chunk) bot bot' := by
  have appends : R (appended chunk bot) (appended chunk bot') := by
    unfold appended
    rw [shares.buffer related]
    exact shares.filling _ related
  apply agree_modify_bind
  apply agree_bind (shares.agree_parseBuffer appends)
  intro _ _ _ _ related
  apply agree_bind (shares.agree_consumeMsgBuffer related)
  intro _ _ _ _ related
  apply agree_get_bind
  rw [shares.suspendRead related]
  exact agree_ite Iff.rfl (fun _ => shares.agree_asyncReadSome related) fun _ => agree_pure _ related

theorem agree_insertMessage (related : R bot bot') (str : Bytes) :
    Agree R (insertMessage env str) (insertMessage env str) bot bot' :=
  agree_bind (shares.agree_emplaceMessage related str) fun _ _ _ _ related => shares.agree_consumeMsgBuffer related

theorem agree_onHandshake (related : R bot bot') : Agree R (onHandshake env) (onHandshake env) bot bot' := by
  have nick := shares.nick related
  have channels := shares.channels related
  have joins : ∀ nick', bot.nick = nick' → Agree R (sendJOIN (formatIRCChannelName bot.nick))
      (sendJOIN (formatIRCChannelName nick')) { bot with suspendRead := false } { bot' with suspendRead := false } := by
    rintro _ rfl
    exact shares.agree_post (shares.resuming related) _
  apply agree_modify_bind
  apply agree_get_bind
  apply agree_bind (joins bot'.nick nick)
  intro _ _ _ _ related
  dsimp only
  rw [nick, channels]
  apply agree_bind (shares.agree_post related _)
  intro _ _ _ _ related
  apply agree_bind (agree_forM (fun channel _ _ related => shares.agree_post related (.sendIRC (joinLine channel))) related)
  intro _ _ _ _ related
  apply agree_modify_bind
  rw [shares.now related]
  exact shares.agree_asyncReadSome (shares.starting _ related)

/-- What the one bot does, the other does too. One case for each handler. -/
theorem step (related : R bot bot') {event : Event} {next : BotState} (step : Step env bot event next) :
    ∃ next', Step env bot' event next' ∧ R next next' := by
  have completes : R (completeRead bot) (completeRead bot') := by
    unfold completeRead
    rw [shares.pendingReads related]
    exact shares.reading _ related
  cases step with
  | @read chunk pending =>
    rw [shares.pendingReads related] at pending
    exact ⟨_, .read pending, (shares.agree_onRead completes chunk).final⟩
  | readError pending =>
    rw [shares.pendingReads related] at pending
    exact ⟨_, .readError pending, completes⟩
  | @insertMessage str before after posted =>
    rw [shares.posted related] at posted
    exact ⟨_, .insertMessage posted, (shares.agree_insertMessage (shares.taking _ related) str).final⟩
  | handshake => exact ⟨_, .handshake, (shares.agree_onHandshake related).final⟩

end SharesStrand

end ReadStrand

end SaivBot
