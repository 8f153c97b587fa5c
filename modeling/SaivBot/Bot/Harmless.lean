import SaivBot.Bot.Dispatch

/-! Which messages are processed to the end.

A handler is left early by a pattern that does not compile, by memory that is not
there, by a configuration file that cannot be written, or by undefined behaviour.
Each condition here looks at the message, the options found in it and the state
before the handler runs; the theorems say that it is the exact one.
-/

set_option autoImplicit false

namespace SaivBot
open Program BotState

variable (env : Environment)

/-! The conditions. -/

/-- A query that starts names its channels or stands in a channel, and its pattern compiles. -/
def HarmlessQuery (command : Commands) (request : Request) (inputLine : Bytes) (bot : BotState) : Prop :=
  let set := env.optionParser.parse (queryOptions command) inputLine
  bot.isWhitelisted request.ircMsg.getNick = true → ∀ searchStr, searchTarget set = some searchStr →
    (set.texts 2 = none → set.text 3 = none → request.channel ≠ []) ∧
    ((queryPeriod env (env.now bot) set).isSome → (queryService set).isSome → set.flag 10 = true →
      env.regexAccepts searchStr = true)

/-- A clip of a known channel finds memory for its lines. -/
def HarmlessClip (request : Request) (inputLine : Bytes) (bot : BotState) : Prop :=
  let set := env.optionParser.parse [⟨ascii "-lines_from_now", [.number]⟩] inputLine
  bot.isWhitelisted request.ircMsg.getNick = true → (bot.channels.lookup request.channel).isSome →
    ∀ lineCount, set.number 0 = some lineCount → 0 < lineCount → env.reserves lineCount = true

/-- A change of the whitelist can be saved. -/
def HarmlessWhitelist (change : WhitelistChange) (request : Request) (inputLine : Bytes) (bot : BotState) :
    Prop :=
  let set := env.optionParser.parse [⟨change.command.text.command, [.word]⟩] inputLine
  bot.isModerator request.ircMsg.getNick = true → ∀ word, set.text 0 = some word →
    change.applies (toLowerCaseString word) bot.whitelist = true →
      Saves env (BotState.posting { bot with whitelist := change.change (toLowerCaseString word) bot.whitelist }
        (.sendIRC (privmsg request.channel (toLowerCaseString word ++ change.answer))))

/-- Nothing is said in a channel of its own choosing. -/
def HarmlessSay (request : Request) (inputLine : Bytes) (bot : BotState) : Prop :=
  let set := env.optionParser.parse
    [⟨Commands.sayCommand.text.command, [.string]⟩, ⟨ascii "-channel", [.word]⟩, ⟨ascii "-echo", [.number]⟩]
    inputLine
  bot.isModerator request.ircMsg.getNick = true → (set.text 0).isSome →
    set.text 1 = none ∨ set.number 2 = some 0

def HarmlessCommand (request : Request) (inputLine : Bytes) (bot : BotState) : Commands → Prop
  | .countCommand => HarmlessQuery env .countCommand request inputLine bot
  | .findCommand => HarmlessQuery env .findCommand request inputLine bot
  | .clipCommand => HarmlessClip env request inputLine bot
  | .promoteCommand => HarmlessWhitelist env promotion request inputLine bot
  | .demoteCommand => HarmlessWhitelist env demotion request inputLine bot
  | .sayCommand => HarmlessSay env request inputLine bot
  | _ => True

/-- The command the body of a message calls, with the line it is called with. -/
def calledCommand (nick body : Bytes) : Option (Commands × Bytes) :=
  match env.optionParser.extractFirstWordDestructive body with
  | none => none
  | some (firstWord, localView) =>
    if caselessCompare firstWord nick = true ∧ (env.optionParser.extractFirstWord localView).1 ≠ [] then
      (Commands.all.find? fun command =>
        caselessCompare command.text.command (env.optionParser.extractFirstWord localView).1).map (·, localView)
    else none

/-- The state in which the command of a message runs: a raffle has been joined before. -/
def BotState.heard (request : Request) (bot : BotState) : BotState :=
  match StringView.findText (ascii "A multi-raffle has begun") request.ircMsg.getBody with
  | some _ => bot.posting (.sendIRC (privmsg request.channel (ascii "!join")))
  | none => bot

/-- The message names the channel where the dispatcher looks for it, the command it calls is harmless,
and the channels it changes can be saved. -/
structure Harmless (msg : IRCMessage) (bot : BotState) : Prop where
  privmsg : msg.getCommand = ascii "PRIVMSG" → ∃ request : Request, request.ircMsg = msg ∧
    ∀ command inputLine, calledCommand env bot.nick msg.getBody = some (command, inputLine) →
      HarmlessCommand env request inputLine (bot.heard request) command
  join : msg.getCommand = ascii "JOIN" → caselessCompare msg.getNick bot.nick = true →
    ∃ channel, msg.getParams.head? = some channel ∧ (bot.channels.lookup channel = none →
      Saves env
        { bot with channels := bot.channels.insert channel (IRCMessageBuffer.empty messageBufferSize) })
  part : msg.getCommand = ascii "PART" → caselessCompare msg.getNick bot.nick = true →
    ∃ channel, msg.getParams.head? = some channel ∧ ((bot.channels.lookup channel).isSome →
      Saves env { bot with channels := bot.channels.erase channel })

/-! Each handler returns under its condition, and only then. -/

variable (request : Request) (inputLine : Bytes) (bot : BotState)

theorem returns_firstParam_bind {β : Type} (f : Bytes → BotM β) :
    Returns (lift request.ircMsg.firstParam >>= f) bot ↔ Returns (f request.channel) bot := by
  rw [request.firstParam]
  exact returns_bind_of_ok rfl

theorem returns_replyToIRCMessage (reply : Bytes) : Returns (replyToIRCMessage request.ircMsg reply) bot := by
  unfold replyToIRCMessage
  rw [request.replyLine]
  exact returns_post _ bot

theorem queryChannels_ok_iff (set : OptionSet) :
    (∃ channels, queryChannels request.ircMsg set = .ok channels) ↔
      (set.texts 2 = none → set.text 3 = none → request.channel ≠ []) := by
  unfold queryChannels
  rw [request.firstParam]
  cases set.texts 2 with
  | some channels => simp
  | none =>
    cases set.text 3 with
    | some channel => simp
    | none =>
      cases request.channel with
      | nil => simp [bind, Except.bind]
      | cons c rest =>
        by_cases hash : c = Byte.hash
        · simp [bind, Except.bind, hash, pure, Except.pure]
        · simp [bind, Except.bind, hash, pure, Except.pure]

theorem returns_startQuery_iff (kind : QueryKind) (msg : IRCMessage) (plan : QueryPlan) :
    Returns (startQuery env kind msg plan) bot ↔
      (plan.regex = true → env.regexAccepts plan.searchStr = true) := by
  obtain ⟨log, filled⟩ := LogRequest.fillLogRequestTargetFields_some env.calendar env.dateParser
    plan.service plan.allUsers plan.period plan.channels plan.users
  unfold startQuery
  rw [filled]
  by_cases malformed : plan.regex = true ∧ env.regexAccepts plan.searchStr = false
  · simp [malformed]
  · simp only [malformed, ↓reduceIte, returns_post, true_iff]
    intro regex
    cases accepts : env.regexAccepts plan.searchStr with
    | true => rfl
    | false => exact absurd ⟨regex, accepts⟩ malformed

theorem returns_queryCommandFunc_iff (command : Commands) (kind : QueryKind) :
    Returns (queryCommandFunc env command kind request.ircMsg inputLine) bot ↔
      HarmlessQuery env command request inputLine bot := by
  unfold queryCommandFunc HarmlessQuery
  rw [returns_get_bind]
  generalize env.optionParser.parse (queryOptions command) inputLine = set
  by_cases whitelisted : bot.isWhitelisted request.ircMsg.getNick = true
  · simp only [whitelisted, ↓reduceIte, true_implies]
    cases searchTarget set with
    | none => simp
    | some searchStr =>
      simp only [Option.some.injEq, forall_eq', ← queryChannels_ok_iff]
      apply returns_lift_bind_const
      intro channels
      cases queryPeriod env (env.now bot) set with
      | none => simp [returns_replyToIRCMessage]
      | some period =>
        cases queryService set with
        | none => simp [returns_firstParam_bind, sendPRIVMSG, postSendIRC]
        | some service => simp [returns_startQuery_iff]
  · simp [whitelisted]

theorem returns_clipCommandFunc_iff :
    Returns (clipCommandFunc env request.ircMsg inputLine) bot ↔ HarmlessClip env request inputLine bot := by
  unfold clipCommandFunc HarmlessClip
  rw [returns_get_bind]
  generalize env.optionParser.parse _ inputLine = set
  by_cases whitelisted : bot.isWhitelisted request.ircMsg.getNick = true
  · simp only [whitelisted, ↓reduceIte, returns_firstParam_bind, true_implies]
    cases bot.channels.lookup request.channel with
    | none => simp
    | some buffer =>
      cases set.number 0 with
      | none => simp [sendPRIVMSG, postSendIRC]
      | some lineCount =>
        by_cases positive : 0 < lineCount
        · cases reserved : env.reserves lineCount <;> simp [positive, reserved]
        · simp [positive]
  · simp [whitelisted]

theorem returns_whitelistCommandFunc_iff (change : WhitelistChange) :
    Returns (whitelistCommandFunc env change request.ircMsg inputLine) bot ↔
      HarmlessWhitelist env change request inputLine bot := by
  unfold whitelistCommandFunc HarmlessWhitelist
  rw [returns_get_bind]
  generalize env.optionParser.parse _ inputLine = set
  by_cases moderator : bot.isModerator request.ircMsg.getNick = true
  · simp only [moderator, ↓reduceIte, true_implies]
    cases set.text 0 with
    | none => simp
    | some word =>
      by_cases applies : change.applies (toLowerCaseString word) bot.whitelist = true
      · simp [applies, returns_firstParam_bind, sendPRIVMSG, postSendIRC, returns_saveConfig_iff]
      · simp [applies]
  · simp [moderator]

theorem returns_sayCommandFunc_iff :
    Returns (sayCommandFunc env request.ircMsg inputLine) bot ↔ HarmlessSay env request inputLine bot := by
  unfold sayCommandFunc HarmlessSay
  rw [returns_get_bind]
  generalize env.optionParser.parse _ inputLine = set
  by_cases moderator : bot.isModerator request.ircMsg.getNick = true
  · simp only [moderator, ↓reduceIte, true_implies]
    cases set.text 0 with
    | none =>
      cases env.optionParser.extractFirstWordDestructive inputLine with
      | none => simp
      | some split => simp [returns_firstParam_bind, sendPRIVMSG, postSendIRC]
    | some str =>
      rw [returns_firstParam_bind]
      cases set.text 1 with
      | none =>
        simp only [true_or, implies_true, iff_true]
        exact returns_forM (fun _ _ => returns_post _ _) bot
      | some channel =>
        -- With a channel of its own every turn throws, so the echo has to be zero.
        simp only [returns_forM_throw, List.range_eq_nil]
        cases set.number 2 with
        | none => simp
        | some echo => by_cases many : echo > 5 <;> simp [many]; omega
  · simp [moderator]

theorem returns_commandFunc_iff (command : Commands) :
    Returns (commandFunc env command request.ircMsg inputLine) bot ↔
      HarmlessCommand env request inputLine bot command := by
  cases command with
  | countCommand => exact returns_queryCommandFunc_iff env request inputLine bot _ _
  | findCommand => exact returns_queryCommandFunc_iff env request inputLine bot _ _
  | clipCommand => exact returns_clipCommandFunc_iff env request inputLine bot
  | promoteCommand => exact returns_whitelistCommandFunc_iff env request inputLine bot promotion
  | demoteCommand => exact returns_whitelistCommandFunc_iff env request inputLine bot demotion
  | sayCommand => exact returns_sayCommandFunc_iff env request inputLine bot
  | pingCommand | commandsCommand | flagsCommand =>
    simp only [HarmlessCommand, iff_true]
    exact returns_replyToIRCMessage request bot _
  | shutdown =>
    simp only [HarmlessCommand, iff_true, commandFunc, shutdownCommandFunc, returns_get_bind]
    split <;> simp [doShutdown]
  | helpCommand =>
    simp only [HarmlessCommand, iff_true, commandFunc, helpCommandFunc, returns_get_bind]
    split
    · split
      · simp
      · split
        · simp
        · simp [returns_firstParam_bind, sendPRIVMSG, postSendIRC]
    · simp
  | joinCommand =>
    simp only [HarmlessCommand, iff_true, commandFunc, joinCommandFunc, returns_get_bind]
    split
    · split <;> simp [sendJOIN, sendPRIVMSG, postSendIRC]
    · simp
  | partCommand =>
    simp only [HarmlessCommand, iff_true, commandFunc, partCommandFunc, returns_get_bind]
    split
    · split <;> simp [sendPART, postSendIRC]
    · simp
  | uptimeCommand =>
    simp only [HarmlessCommand, iff_true, commandFunc, uptimeCommandFunc, returns_get_bind]
    split <;> simp [returns_firstParam_bind, sendPRIVMSG, postSendIRC]
  | testInsertmessageCommand =>
    simp only [HarmlessCommand, iff_true, commandFunc, testInsertmessageCommandFunc, returns_get_bind]
    split
    · split <;> simp
    · simp

/-! The same for a whole message. -/

theorem parseFreeMessage_eq : parseFreeMessage request.ircMsg bot = .ok () (bot.heard request) := by
  unfold parseFreeMessage BotState.heard
  rw [request.firstParam]
  cases StringView.findText (ascii "A multi-raffle has begun") request.ircMsg.getBody with
  | none => rfl
  | some pos => rfl

theorem nick_heard : (bot.heard request).nick = bot.nick := by
  unfold BotState.heard
  split
  · rfl
  · rfl

theorem find_container (word : Bytes) :
    (commandContainers env).find? (fun cc => caselessCompare cc.command word) =
      (Commands.all.find? fun command => caselessCompare command.text.command word).map fun command =>
        { command.text with func := commandFunc env command } := List.find?_map

/-- The dispatcher runs the command that is called, and nothing else. -/
theorem runCommand_eq (msg : IRCMessage) :
    runCommand env.optionParser (commandContainers env) msg bot =
      match calledCommand env bot.nick msg.getBody with
      | none => .ok () bot
      | some (command, inputLine) => commandFunc env command msg inputLine bot := by
  unfold runCommand calledCommand
  cases env.optionParser.extractFirstWordDestructive msg.getBody with
  | none => rfl
  | some split =>
    obtain ⟨firstWord, localView⟩ := split
    simp only [get_bind, find_container]
    generalize (env.optionParser.extractFirstWord localView).1 = secondWord
    by_cases own : caselessCompare firstWord bot.nick = true
    · by_cases named : secondWord ≠ []
      · rw [if_pos own, if_pos named, if_pos ⟨own, named⟩]
        cases Commands.all.find? fun command => caselessCompare command.text.command secondWord with
        | none => rfl
        | some command => rfl
      · rw [if_pos own, if_neg named, if_neg fun both => named both.2]
        rfl
    · rw [if_neg own, if_neg fun both => own both.1]
      rfl

theorem returns_runCommand_iff :
    Returns (runCommand env.optionParser (commandContainers env) request.ircMsg) bot ↔
      ∀ command inputLine, calledCommand env bot.nick request.ircMsg.getBody = some (command, inputLine) →
        HarmlessCommand env request inputLine bot command := by
  simp only [Returns, runCommand_eq]
  cases calledCommand env bot.nick request.ircMsg.getBody with
  | none => simp
  | some called =>
    simp only [Option.some.injEq, ← returns_commandFunc_iff, Returns]
    constructor
    · rintro returns _ _ rfl
      exact returns
    · exact fun returns => returns called.1 called.2 rfl

/-- A message with a parameter is a request once it is a PRIVMSG. -/
theorem firstParam_ok_iff (msg : IRCMessage) (channel : Bytes) :
    msg.firstParam = .ok channel ↔ msg.getParams.head? = some channel := by
  unfold IRCMessage.firstParam
  cases msg.getParams with
  | nil => simp
  | cons param params => simp

theorem returns_privmsg_iff {msg : IRCMessage} (privmsg : msg.getCommand = ascii "PRIVMSG") :
    Returns (do
        parseFreeMessage msg
        runCommand env.optionParser (commandContainers env) msg
        bufferMessage msg) bot ↔
      ∃ request : Request, request.ircMsg = msg ∧
        ∀ command inputLine, calledCommand env bot.nick msg.getBody = some (command, inputLine) →
          HarmlessCommand env request inputLine (bot.heard request) command := by
  constructor
  · intro returns
    obtain ⟨_, _, -, returns'⟩ := returns_bind_iff.mp returns
    obtain ⟨_, middle, -, buffers⟩ := returns_bind_iff.mp returns'
    obtain ⟨channel, named, -⟩ := (returns_lift_bind _ _ middle).mp buffers
    let request : Request := ⟨msg, channel, privmsg, (firstParam_ok_iff msg channel).mp named⟩
    -- The command runs in the state that the free text has left.
    refine ⟨request, rfl, ?_⟩
    rw [returns_bind_of_ok (parseFreeMessage_eq request bot)] at returns
    obtain ⟨_, _, ran, -⟩ := returns_bind_iff.mp returns
    rw [← nick_heard request bot]
    exact (returns_runCommand_iff env request (bot.heard request)).mp ⟨_, _, ran⟩
  · rintro ⟨request, rfl, harmless⟩
    rw [returns_bind_of_ok (parseFreeMessage_eq request bot)]
    rw [← nick_heard request bot] at harmless
    obtain ⟨_, middle, ran⟩ := (returns_runCommand_iff env request (bot.heard request)).mpr harmless
    rw [returns_bind_of_ok ran, bufferMessage, returns_firstParam_bind]
    exact returns_modify _ middle

theorem returns_ownJoin_iff (msg : IRCMessage) :
    Returns (ownJoin env msg) bot ↔ ∃ channel, msg.getParams.head? = some channel ∧
      (bot.channels.lookup channel = none → Saves env
        { bot with channels := bot.channels.insert channel (IRCMessageBuffer.empty messageBufferSize) }) := by
  simp only [ownJoin, returns_lift_bind, returns_get_bind, firstParam_ok_iff]
  refine exists_congr fun channel => and_congr_right fun _ => ?_
  cases bot.channels.lookup channel with
  | none => simp [returns_saveConfig_iff]
  | some buffer => simp

theorem returns_ownPart_iff (msg : IRCMessage) :
    Returns (ownPart env msg) bot ↔ ∃ channel, msg.getParams.head? = some channel ∧
      ((bot.channels.lookup channel).isSome → Saves env { bot with channels := bot.channels.erase channel }) := by
  simp only [ownPart, returns_lift_bind, returns_get_bind, firstParam_ok_iff]
  refine exists_congr fun channel => and_congr_right fun _ => ?_
  cases bot.channels.lookup channel with
  | none => simp
  | some buffer => simp [returns_saveConfig_iff]

/-- One case for each branch of the dispatcher; the commands exclude each other. -/
theorem returns_processMessage_iff (msg : IRCMessage) :
    Returns (processMessage env (commandContainers env) msg) bot ↔ Harmless env msg bot := by
  unfold processMessage
  by_cases privmsg : msg.getCommand = ascii "PRIVMSG"
  · rw [if_pos privmsg, returns_privmsg_iff env bot privmsg]
    constructor
    · intro harmless
      exact ⟨fun _ => harmless, fun join => absurd (privmsg.symm.trans join) (by decide),
        fun part => absurd (privmsg.symm.trans part) (by decide)⟩
    · intro harmless
      exact harmless.privmsg privmsg
  rw [if_neg privmsg]
  by_cases ping : msg.getCommand = ascii "PING"
  · rw [if_pos ping]
    refine iff_of_true (returns_post _ bot) ⟨fun other => absurd other privmsg, ?_, ?_⟩
    · exact fun join => absurd (ping.symm.trans join) (by decide)
    · exact fun part => absurd (ping.symm.trans part) (by decide)
  rw [if_neg ping]
  by_cases reconnect : msg.getCommand = ascii "RECONNECT"
  · rw [if_pos reconnect, postDoRECONNECT, returns_modify_bind]
    refine iff_of_true (returns_post _ _) ⟨fun other => absurd other privmsg, ?_, ?_⟩
    · exact fun join => absurd (reconnect.symm.trans join) (by decide)
    · exact fun part => absurd (reconnect.symm.trans part) (by decide)
  rw [if_neg reconnect, returns_get_bind]
  by_cases own : caselessCompare msg.getNick bot.nick = true
  · rw [if_pos own]
    by_cases join : msg.getCommand = ascii "JOIN"
    · rw [if_pos join, returns_ownJoin_iff]
      constructor
      · intro harmless
        exact ⟨fun other => absurd other privmsg, fun _ _ => harmless,
          fun part => absurd (join.symm.trans part) (by decide)⟩
      · intro harmless
        exact harmless.join join own
    rw [if_neg join]
    by_cases part : msg.getCommand = ascii "PART"
    · rw [if_pos part, returns_ownPart_iff]
      constructor
      · intro harmless
        exact ⟨fun other => absurd other privmsg, fun other => absurd other join, fun _ _ => harmless⟩
      · intro harmless
        exact harmless.part part own
    rw [if_neg part]
    exact iff_of_true (returns_pure _ bot)
      ⟨fun other => absurd other privmsg, fun other => absurd other join, fun other => absurd other part⟩
  · rw [if_neg own]
    exact iff_of_true (returns_pure _ bot)
      ⟨fun other => absurd other privmsg, fun _ same => absurd same own, fun _ same => absurd same own⟩

end SaivBot
