import SaivBot.Bot.Commands

/-! What each command can do.

Two of them change the whitelist and save it. The others change nothing but the work
they post; `Posts` lists that work, with what has been checked before.
-/

set_option autoImplicit false

namespace SaivBot
open Program BotState

/-- The second bot is the first with more work posted, all of it allowed. -/
def Grows (allowed : Posted → Prop) (bot bot' : BotState) : Prop :=
  ∃ new, bot' = { bot with posted := bot.posted ++ new } ∧ ∀ work ∈ new, allowed work

instance (allowed : Posted → Prop) : IsPreorder BotState (Grows allowed) where
  refl bot := ⟨[], by simp, by simp⟩
  trans := by
    rintro bot _ _ ⟨first, rfl, allowed⟩ ⟨second, rfl, allowed'⟩
    refine ⟨first ++ second, by simp, fun work member => ?_⟩
    rcases List.mem_append.mp member with old | new
    · exact allowed work old
    · exact allowed' work new

theorem grows_posting {allowed : Posted → Prop} {work : Posted} (fine : allowed work) (bot : BotState) :
    Grows allowed bot (bot.posting work) := ⟨[work], rfl, by simpa using fine⟩

theorem leads_post {allowed : Posted → Prop} {work : Posted} (fine : allowed work) (bot : BotState) :
    Leads (Grows allowed) (post work) bot := grows_posting fine bot

variable (env : Environment) (bot : BotState) (msg : IRCMessage) (inputLine : Bytes)

/-- The work a command can post, run by this message in this state. -/
inductive Posts : Commands → Posted → Prop where
  | shutdown : bot.isModerator msg.getNick = true → Posts .shutdown .shutdown
  | help {channel : Bytes} {con : CommandText} : bot.isWhitelisted msg.getNick = true →
      con ∈ Commands.all.map Commands.text → msg.firstParam = .ok channel →
      Posts .helpCommand (.sendIRC (privmsg channel
        (msg.getNick ++ ascii ", " ++ con.description ++ ascii " Usage: " ++ con.command ++ ascii " " ++
          con.arguments)))
  | invalidPeriod {command : Commands} {line : Bytes} : command = .countCommand ∨ command = .findCommand →
      bot.isWhitelisted msg.getNick = true →
      msg.replyLine (msg.getNick ++ ascii ", invalid period NaM") = .ok line → Posts command (.sendIRC line)
  | invalidService {command : Commands} {channel : Bytes} : command = .countCommand ∨ command = .findCommand →
      bot.isWhitelisted msg.getNick = true → msg.firstParam = .ok channel →
      Posts command (.sendIRC (privmsg channel (msg.getNick ++ ascii ", invalid service NaM")))
  | query {command : Commands} {kind : QueryKind} {plan : QueryPlan} {request : LogRequest} :
      command = .countCommand ∨ command = .findCommand → bot.isWhitelisted msg.getNick = true →
      LogRequest.fillLogRequestTargetFields env.calendar env.dateParser plan.service plan.allUsers plan.period
        plan.channels plan.users = some request →
      Posts command (.download kind plan msg request)
  | clip {channel : Bytes} {buffer : IRCMessageBuffer} (lineCount : Nat) (stale : IRCMessage → Bytes) :
      bot.isWhitelisted msg.getNick = true → msg.firstParam = .ok channel →
      bot.channels.lookup channel = some buffer →
      Posts .clipCommand
        (.upload (clipText env ((buffer.linesFromNow lineCount).map (·.shown stale))) msg)
  | clipInvalid {channel : Bytes} : bot.isWhitelisted msg.getNick = true → msg.firstParam = .ok channel →
      Posts .clipCommand (.sendIRC (privmsg channel (msg.getNick ++ ascii ", " ++ ascii "Invalid params NaM")))
  | joinChannel {word : Bytes} : bot.isModerator msg.getNick = true →
      (env.optionParser.parse [⟨Commands.joinCommand.text.command, [.word]⟩] inputLine).text 0 = some word →
      Posts .joinCommand (.sendIRC (joinLine (toLowerCaseString (ascii "#" ++ word))))
  | joinGreeting {word : Bytes} : bot.isModerator msg.getNick = true →
      (env.optionParser.parse [⟨Commands.joinCommand.text.command, [.word]⟩] inputLine).text 0 = some word →
      Posts .joinCommand
        (.sendIRC (privmsg (toLowerCaseString (ascii "#" ++ word)) (ascii "monkaMEGA")))
  | part {word : Bytes} : bot.isModerator msg.getNick = true →
      (env.optionParser.parse [⟨Commands.partCommand.text.command, [.word]⟩] inputLine).text 0 = some word →
      Posts .partCommand (.sendIRC (partLine (formatIRCChannelName word)))
  | uptime {channel : Bytes} (seconds : Int) : bot.isWhitelisted msg.getNick = true →
      msg.firstParam = .ok channel →
      Posts .uptimeCommand (.sendIRC (privmsg channel (msg.getNick ++ ascii ", " ++ env.showSeconds seconds)))
  | say {channel str : Bytes} : bot.isModerator msg.getNick = true → msg.firstParam = .ok channel →
      (env.optionParser.parse
        [⟨Commands.sayCommand.text.command, [.string]⟩, ⟨ascii "-channel", [.word]⟩, ⟨ascii "-echo", [.number]⟩]
        inputLine).text 0 = some str →
      Posts .sayCommand (.sendIRC (privmsg channel str))
  | sayRest {channel word rest : Bytes} : bot.isModerator msg.getNick = true → msg.firstParam = .ok channel →
      env.optionParser.extractFirstWordDestructive inputLine = some (word, rest) →
      Posts .sayCommand (.sendIRC (privmsg channel rest))
  | ping {line : Bytes} :
      msg.replyLine (msg.getNick ++ ascii ", " ++ (ascii "PONG NaM " ++ [0xE2, 0x80, 0xBC])) = .ok line →
      Posts .pingCommand (.sendIRC line)
  | commands {line : Bytes} :
      msg.replyLine (msg.getNick ++ ascii ", " ++ ascii "https://github.com/SaivNator/SaivBot#commands") = .ok line →
      Posts .commandsCommand (.sendIRC line)
  | flags {line : Bytes} :
      msg.replyLine (msg.getNick ++ ascii ", " ++ ascii "https://github.com/SaivNator/SaivBot#flags") = .ok line →
      Posts .flagsCommand (.sendIRC line)
  | insertMessage {str : Bytes} : bot.isModerator msg.getUser = true →
      (env.optionParser.parse [⟨Commands.testInsertmessageCommand.text.command, [.string]⟩] inputLine).text 0 =
        some str →
      Posts .testInsertmessageCommand (.insertMessage str)

/-! The handlers, one after the other. -/

variable {env bot msg inputLine} {allowed : Posted → Prop}

/-- A line to the channel the message came from. -/
theorem leads_sendBack {text : Bytes}
    (fine : ∀ channel, msg.firstParam = .ok channel → allowed (.sendIRC (privmsg channel text))) :
    Leads (Grows allowed) (do
      let channel ← lift msg.firstParam
      sendPRIVMSG channel text) bot :=
  leads_lift_bind fun channel named => leads_post (fine channel named) bot

theorem leads_replyToIRCMessage {reply : Bytes}
    (fine : ∀ line, msg.replyLine reply = .ok line → allowed (.sendIRC line)) :
    Leads (Grows allowed) (replyToIRCMessage msg reply) bot :=
  leads_lift_bind fun line made => leads_post (fine line made) bot

theorem leads_helpCommandFunc :
    Leads (Grows (Posts env bot msg inputLine .helpCommand)) (helpCommandFunc env msg inputLine) bot := by
  apply leads_guarded
  intro whitelisted
  dsimp only
  split
  · exact leads_pure _ bot
  · split
    · exact leads_pure _ bot
    · next found =>
      apply leads_sendBack
      exact fun channel named => .help whitelisted (List.mem_of_find?_eq_some found) named

theorem leads_queryCommandFunc {command : Commands} (kind : QueryKind)
    (query : command = .countCommand ∨ command = .findCommand) :
    Leads (Grows (Posts env bot msg inputLine command)) (queryCommandFunc env command kind msg inputLine) bot := by
  apply leads_guarded
  intro whitelisted
  dsimp only
  split
  · exact leads_pure _ bot
  · apply leads_lift_bind
    intro channels _
    split
    · exact leads_replyToIRCMessage fun line made => .invalidPeriod query whitelisted made
    · split
      · exact leads_sendBack fun channel named => .invalidService query whitelisted named
      · unfold startQuery
        split
        · exact leads_throw _ bot
        · next filled =>
          apply leads_ite
          · exact fun _ => leads_throw _ bot
          · exact fun _ => leads_post (.query query whitelisted filled) bot

theorem leads_clipCommandFunc :
    Leads (Grows (Posts env bot msg inputLine .clipCommand)) (clipCommandFunc env msg inputLine) bot := by
  apply leads_guarded
  intro whitelisted
  apply leads_lift_bind
  intro channel named
  split
  · exact leads_pure _ bot
  · next buffer known =>
    split
    · next lineCount _ =>
      apply leads_ite _ fun _ => leads_pure _ bot
      intro _
      apply leads_ite _ fun _ => leads_throw _ bot
      exact fun _ => leads_post (.clip lineCount _ whitelisted named known) bot
    · exact leads_post (.clipInvalid whitelisted named) bot

theorem leads_joinCommandFunc :
    Leads (Grows (Posts env bot msg inputLine .joinCommand)) (joinCommandFunc env msg inputLine) bot := by
  apply leads_guarded
  intro moderator
  dsimp only
  split
  · exact leads_pure _ bot
  · next word read =>
    apply leads_bind (leads_post (.joinChannel moderator read) bot)
    exact fun _ bot' _ => leads_post (.joinGreeting moderator read) bot'

theorem leads_partCommandFunc :
    Leads (Grows (Posts env bot msg inputLine .partCommand)) (partCommandFunc env msg inputLine) bot := by
  apply leads_guarded
  intro moderator
  dsimp only
  split
  · exact leads_pure _ bot
  · next word read => exact leads_post (.part moderator read) bot

theorem leads_sayCommandFunc :
    Leads (Grows (Posts env bot msg inputLine .sayCommand)) (sayCommandFunc env msg inputLine) bot := by
  apply leads_guarded
  intro moderator
  dsimp only
  split
  · next str read =>
    apply leads_lift_bind
    intro channel named
    apply leads_forM
    intro _ bot'
    split
    · exact leads_throw _ bot'
    · exact leads_post (.say moderator named read) bot'
  · split
    · next word rest extracted => exact leads_sendBack fun channel named => .sayRest moderator named extracted
    · exact leads_pure _ bot

theorem leads_testInsertmessageCommandFunc :
    Leads (Grows (Posts env bot msg inputLine .testInsertmessageCommand))
      (testInsertmessageCommandFunc env msg inputLine) bot := by
  apply leads_guarded
  intro moderator
  dsimp only
  split
  · next str read => exact leads_post (.insertMessage moderator read) bot
  · exact leads_pure _ bot

/-- Every command but the two only posts work. -/
theorem leads_commandFunc {command : Commands} (other : command ≠ .promoteCommand ∧ command ≠ .demoteCommand) :
    Leads (Grows (Posts env bot msg inputLine command)) (commandFunc env command msg inputLine) bot := by
  cases command with
  | shutdown => exact leads_guarded fun moderator => leads_post (.shutdown moderator) bot
  | helpCommand => exact leads_helpCommandFunc
  | countCommand => exact leads_queryCommandFunc .count (.inl rfl)
  | findCommand => exact leads_queryCommandFunc .find (.inr rfl)
  | clipCommand => exact leads_clipCommandFunc
  | promoteCommand => exact absurd rfl other.1
  | demoteCommand => exact absurd rfl other.2
  | joinCommand => exact leads_joinCommandFunc
  | partCommand => exact leads_partCommandFunc
  | uptimeCommand =>
    exact leads_guarded fun whitelisted => leads_sendBack fun channel named => .uptime _ whitelisted named
  | sayCommand => exact leads_sayCommandFunc
  | pingCommand => exact leads_replyToIRCMessage fun line made => .ping made
  | commandsCommand => exact leads_replyToIRCMessage fun line made => .commands made
  | flagsCommand => exact leads_replyToIRCMessage fun line made => .flags made
  | testInsertmessageCommand => exact leads_testInsertmessageCommandFunc

/-! The two commands that change the whitelist. -/

/-- The user a change is asked for by a moderator. -/
def changedUser (env : Environment) (bot : BotState) (msg : IRCMessage) (inputLine : Bytes)
    (change : WhitelistChange) : Option Bytes :=
  if bot.isModerator msg.getNick then
    ((env.optionParser.parse [⟨change.command.text.command, [.word]⟩] inputLine).text 0).map toLowerCaseString
  else none

/-- Where a change does not apply nothing happens. Otherwise the whitelist changes, and the answer and the
save follow if the message names a channel. -/
theorem whitelistCommandFunc_cases (change : WhitelistChange) :
    (whitelistCommandFunc env change msg inputLine bot = .ok () bot ∧
        ∀ user, changedUser env bot msg inputLine change = some user → change.applies user bot.whitelist = false) ∨
      ∃ user, changedUser env bot msg inputLine change = some user ∧ change.applies user bot.whitelist = true ∧
        ((∃ abort, whitelistCommandFunc env change msg inputLine bot =
              .error abort { bot with whitelist := change.change user bot.whitelist } ∧
            msg.firstParam = .error abort) ∨
          ∃ channel, msg.firstParam = .ok channel ∧ whitelistCommandFunc env change msg inputLine bot =
            saveConfig env (BotState.posting { bot with whitelist := change.change user bot.whitelist }
              (.sendIRC (privmsg channel (user ++ change.answer))))) := by
  unfold whitelistCommandFunc changedUser
  rw [get_bind]
  by_cases moderator : bot.isModerator msg.getNick = true
  · simp only [moderator, ↓reduceIte]
    cases (env.optionParser.parse [⟨change.command.text.command, [.word]⟩] inputLine).text 0 with
    | none => exact .inl ⟨rfl, nofun⟩
    | some word =>
      by_cases applies : change.applies (toLowerCaseString word) bot.whitelist = true
      · refine .inr ⟨_, rfl, applies, ?_⟩
        simp only [applies, ↓reduceIte, modify_bind]
        cases msg.firstParam with
        | error abort => exact .inl ⟨abort, rfl, rfl⟩
        | ok channel => exact .inr ⟨channel, rfl, rfl⟩
      · simp only [applies, Bool.false_eq_true, ↓reduceIte]
        refine .inl ⟨rfl, ?_⟩
        rintro user ⟨⟩
        simpa using applies
  · simp only [moderator, Bool.false_eq_true, ↓reduceIte]
    exact .inl ⟨rfl, nofun⟩

end SaivBot
