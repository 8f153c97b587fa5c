import SaivBot.Bot.Authority
import SaivBot.Bot.Restarting

/-! What the messages of strangers change.

Everybody may talk in a channel the bot follows. What somebody says who is on none of
its lists is kept for a clip and may be answered with small talk. A bot that never heard
it is configured in the same way and does the same work for everybody else.
-/

set_option autoImplicit false

namespace SaivBot
open Program BotState Transition

/-- A message of neither the server nor the bot, and of nobody on the lists. -/
structure Stranger (bot : BotState) (msg : IRCMessage) : Prop where
  ping : msg.getCommand ≠ ascii "PING"
  reconnect : msg.getCommand ≠ ascii "RECONNECT"
  other : caselessCompare msg.getNick bot.nick = false
  moderator : bot.isModerator msg.getNick = false
  user : bot.isModerator msg.getUser = false
  whitelisted : bot.isWhitelisted msg.getNick = false

/-- What anybody can make the bot say: it joins a raffle, and answers three of the commands. -/
def smallTalk (nick : Bytes) : List Bytes :=
  [ascii "!join",
    nick ++ ascii ", " ++ (ascii "PONG NaM " ++ [0xE2, 0x80, 0xBC]),
    nick ++ ascii ", " ++ ascii "https://github.com/SaivNator/SaivBot#commands",
    nick ++ ascii ", " ++ ascii "https://github.com/SaivNator/SaivBot#flags"]

/-- Small talk in the channel of the message. -/
def Chatter (msg : IRCMessage) (work : Posted) : Prop :=
  ∃ channel, msg.firstParam = .ok channel ∧ ∃ text ∈ smallTalk msg.getNick, work = .sendIRC (privmsg channel text)

/-- The work posted is small talk. -/
structure Chats (msg : IRCMessage) (bot bot' : BotState) : Prop where
  timeStarted : bot'.timeStarted = bot.timeStarted
  suspendRead : bot'.suspendRead = bot.suspendRead
  posted : ∃ new, bot'.posted = bot.posted ++ new ∧ ∀ work ∈ new, Chatter msg work

instance (msg : IRCMessage) : IsPreorder BotState (Chats msg) where
  refl bot := ⟨rfl, rfl, [], by simp, by simp⟩
  trans := by
    rintro _ _ _ ⟨started, suspend, first, old, fine⟩ ⟨started', suspend', second, new, fine'⟩
    refine ⟨started'.trans started, suspend'.trans suspend, first ++ second, ?_, ?_⟩
    · rw [new, old, List.append_assoc]
    · intro work member
      rcases List.mem_append.mp member with old | new
      · exact fine work old
      · exact fine' work new

variable {env : Environment} {msg : IRCMessage} {bot bot' : BotState} {work : Posted}

theorem Stranger.asks_nothing (stranger : Stranger bot msg) {change : WhitelistChange} {user : Bytes} :
    asked env msg bot ≠ some (change, user) := by
  intro asks
  have moderator := moderator_of_asked asks
  rw [stranger.moderator] at moderator
  cases moderator

theorem chatter_reply (privmsg : msg.getCommand = ascii "PRIVMSG") {text line : Bytes}
    (small : text ∈ smallTalk msg.getNick) (made : msg.replyLine text = .ok line) : Chatter msg (.sendIRC line) := by
  rw [IRCMessage.replyLine, if_pos privmsg] at made
  cases named : msg.firstParam with
  | error abort =>
    rw [named] at made
    cases made
  | ok channel =>
    rw [named] at made
    cases made
    exact ⟨channel, named, text, small, rfl⟩

/-- The three commands that ask for nobody's rights answer with small talk. -/
theorem chatter_of_causes (stranger : Stranger bot msg) (causes : Causes env msg bot work) : Chatter msg work := by
  cases causes with
  | raffle _ named => exact ⟨_, named, _, List.mem_cons_self, rfl⟩
  | command privmsg _ _ posts =>
    cases posts with
    | shutdown moderator | joinChannel moderator _ | joinGreeting moderator _ | part moderator _
      | say moderator _ _ | sayRest moderator _ _ =>
      rw [stranger.moderator] at moderator
      cases moderator
    | help whitelisted _ _ | invalidPeriod _ whitelisted _ | invalidService _ whitelisted _ | query _ whitelisted _
      | clip _ _ whitelisted _ _ | clipInvalid whitelisted _ | uptime _ whitelisted _ =>
      rw [stranger.whitelisted] at whitelisted
      cases whitelisted
    | insertMessage user _ =>
      rw [stranger.user] at user
      cases user
    | ping made | commands made | flags made => exact chatter_reply privmsg (by simp [smallTalk]) made
  | changed asks _ => exact absurd asks stranger.asks_nothing
  | pong ping => exact absurd ping stranger.ping
  | suspendWrite reconnect => exact absurd reconnect stranger.reconnect

theorem absorbs_chats (stranger : Stranger bot msg) : AbsorbsCommand env msg bot (Chats msg) where
  posting _ work causes := by
    refine ⟨rfl, rfl, [work], rfl, fun other member => ?_⟩
    rw [List.mem_singleton.mp member]
    exact chatter_of_causes stranger causes
  configFile _ _ := ⟨rfl, rfl, [], by simp, by simp⟩
  whitelist _ _ _ asks := absurd asks stranger.asks_nothing

theorem chats_buffering (bot : BotState) (channel : Bytes) : Chats msg bot (bot.buffering channel msg) := by
  obtain ⟨channels, after, -⟩ := exists_buffering bot channel msg
  rw [after]
  exact ⟨rfl, rfl, [], by simp, by simp⟩

/-- However its processing ends, a stranger's message does no other work. -/
theorem leads_chats (stranger : Stranger bot msg) :
    Leads (Chats msg) (processMessage env (commandContainers env) msg) bot := by
  by_cases privmsg : msg.getCommand = ascii "PRIVMSG"
  · rw [processMessage_privmsg privmsg]
    apply leads_bind (leads_speech (absorbs_chats stranger) privmsg)
    intro _ bot' _
    apply leads_lift_bind
    exact fun channel _ => chats_buffering bot' channel
  -- A JOIN or PART of somebody else, or a numeric of the server.
  · rw [processMessage, if_neg privmsg, if_neg stranger.ping, if_neg stranger.reconnect]
    apply leads_get_bind
    rw [if_neg (by simp [stranger.other])]
    exact leads_pure _ bot

/-- Nothing a stranger writes leads to a save. -/
theorem stored_stranger {tolerated : Exception → Bool} {after : BotState} (stranger : Stranger bot msg)
    (ran : processed env tolerated bot msg = some after) : Alike stored bot after := by
  have left : Leaves (fun abort => ∃ fault, abort = .fault fault) (Alike stored bot)
      (processMessage env (commandContainers env) msg) bot := by
    have alike {s s' : BotState} (same : Alike stored bot s) (next : Alike stored s s') : Alike stored bot s' :=
      IsTrans.trans _ _ _ same next
    refine leaves_processMessage_of (Std.Refl.refl bot) ?_ (fun fault => ⟨fault, rfl⟩) alike
    intro called saves
    -- Each of the three ways to a save needs a moderator or the bot itself.
    cases saves with
    | whitelist _ asks _ _ => exact absurd asks stranger.asks_nothing
    | join joins _ | part joins _ =>
      obtain ⟨-, own, -⟩ := joins
      rw [stranger.other] at own
      cases own
  unfold Leaves at left
  unfold processed at ran
  generalize processMessage env (commandContainers env) msg bot = outcome at left ran
  cases outcome with
  | ok _ reached =>
    cases ran
    exact left
  | error abort reached =>
    cases abort with
    | fault fault => cases ran
    | raise exception =>
      simp only [Option.ite_none_right_eq_some, Option.some.injEq] at ran
      obtain ⟨-, rfl⟩ := ran
      rcases left with ⟨fault, wrong⟩ | same
      · cases wrong
      · exact same

/-! The bot that has heard the strangers beside one that has not. -/

/-- The work without the text that a clip uploads. -/
def Posted.untold : Posted → Posted
  | .upload _ msg => .upload [] msg
  | work => work

/-- The first list has more work in between. -/
inductive Amid (aside : Posted → Prop) : List Posted → List Posted → Prop where
  | nil : Amid aside [] []
  | both {posted posted' : List Posted} {work work' : Posted} : Amid aside posted posted' → work.untold = work'.untold →
      Amid aside (posted ++ [work]) (posted' ++ [work'])
  | aside {posted posted' : List Posted} {work : Posted} : Amid aside posted posted' → aside work →
      Amid aside (posted ++ [work]) posted'

variable {aside : Posted → Prop}

theorem Amid.refl (posted : List Posted) : Amid aside posted posted := by
  induction posted using List.reverseRecOn with
  | nil => exact .nil
  | append_singleton posted work ih => exact .both ih rfl

theorem Amid.append {posted posted' new : List Posted} (amid : Amid aside posted posted')
    (each : ∀ work ∈ new, aside work) : Amid aside (posted ++ new) posted' := by
  induction new using List.reverseRecOn with
  | nil =>
    rw [List.append_nil]
    exact amid
  | append_singleton new work ih =>
    rw [← List.append_assoc]
    exact .aside (ih fun other member => each other (List.mem_append_left _ member)) (each work (by simp))

/-- All that the two may differ in is what they keep, and the work in between. -/
structure Unheeded (aside : Posted → Prop) (bot bot' : BotState) : Prop where
  config : bot.config = bot'.config
  configFile : bot.configFile = bot'.configFile
  timeStarted : bot.timeStarted = bot'.timeStarted
  suspendRead : bot.suspendRead = bot'.suspendRead
  posted : Amid aside bot.posted bot'.posted

theorem Unheeded.refl (bot : BotState) : Unheeded aside bot bot := ⟨rfl, rfl, rfl, rfl, .refl _⟩

theorem Unheeded.chats {after : BotState} (unheeded : Unheeded aside bot bot') (chats : Chats msg bot after)
    (same : Alike stored bot after) (each : ∀ work, Chatter msg work → aside work) : Unheeded aside after bot' := by
  have config : after.config = bot.config := congrArg Prod.fst same
  have configFile : after.configFile = bot.configFile := congrArg Prod.snd same
  obtain ⟨new, posted, small⟩ := chats.posted
  refine ⟨config.trans unheeded.config, configFile.trans unheeded.configFile,
    chats.timeStarted.trans unheeded.timeStarted, chats.suspendRead.trans unheeded.suspendRead, ?_⟩
  rw [posted]
  exact unheeded.posted.append fun work member => each work (small work member)

/-- No command looks at more, and a clip uploads a text. -/
theorem shares_unheeded (forgetful : env.Forgetful) : Shares env (fun _ => True) (Unheeded aside) where
  nick unheeded := congrArg Config.nick unheeded.config
  modlist unheeded := congrArg Config.modlist unheeded.config
  whitelist unheeded := congrArg Config.whitelist unheeded.config
  known unheeded := known_of_config unheeded.config
  clipping _ _ _ unheeded _ _ := { unheeded with posted := .both unheeded.posted rfl }
  timeStarted unheeded _ := unheeded.timeStarted
  now unheeded := forgetful.now unheeded.config
  opensConfig unheeded := forgetful.opensConfig unheeded.config
  dumps unheeded := by rw [unheeded.config]
  posting _ unheeded := { unheeded with posted := .both unheeded.posted rfl }
  promoting users unheeded :=
    { unheeded with config := congrArg (fun config : Config => { config with whitelist := users }) unheeded.config }
  saving unheeded := { unheeded with configFile := congrArg (fun config => (env.dump config).1) unheeded.config }
  suspending unheeded := { unheeded with suspendRead := rfl }
  buffering {bot bot'} channel msg unheeded := by
    obtain ⟨channels, after, same⟩ := exists_buffering bot channel msg
    obtain ⟨channels', after', same'⟩ := exists_buffering bot' channel msg
    rw [after, after']
    exact { unheeded with config := same.trans (unheeded.config.trans same'.symm) }
  joining channel unheeded := { unheeded with config := config_joining unheeded.config channel _ }
  parting channel unheeded := { unheeded with config := config_parting unheeded.config channel }

/-- The messages that are struck are those of strangers to the bot they reach. -/
structure Moment.Estranged (strange : IRCMessage → Bool) (bot : BotState) (moment : Moment) : Prop where
  forgetful : moment.env.Forgetful
  stranger : strange moment.msg = true → Stranger bot moment.msg

/-- Strike the messages of strangers from a run: the bot ends with the same configuration and file, and has posted
the same work but for the texts of clips and the small talk with the strangers. -/
theorem strangers_unheeded (tolerated : Exception → Bool) (strange : IRCMessage → Bool) (start bot : BotState)
    (moments : List Moment)
    (along : Along (Moment.processed tolerated) (Moment.Estranged strange) start moments)
    (ran : run (Moment.processed tolerated) start moments = some bot) :
    ∃ bot', run (Moment.processed tolerated) start (moments.filter fun moment => !strange moment.msg) = some bot' ∧
      Unheeded (fun work => ∃ moment ∈ moments, strange moment.msg = true ∧ Chatter moment.msg work) bot bot' := by
  refine run_struck (R := Unheeded _) ?_ ?_ (.refl start) along ran
  · intro moment member struck before other after estranged unheeded step
    have leads := @leads_chats moment.env _ _ (estranged.stranger struck)
    unfold Leads at leads
    rw [← final_of_processed step] at leads
    have same := stored_stranger (estranged.stranger struck) step
    exact unheeded.chats leads same fun work chatter => ⟨moment, member, struck, chatter⟩
  · intro moment _ _ before other estranged unheeded
    exact (shares_unheeded estranged.forgetful).rel_processed unheeded (fun _ _ _ => trivial) tolerated

/-! Somebody pings the bot, and so does the server. -/

def chattingEnvironment : Environment := { savingEnvironment with optionParser := ReadStrand.wordParser }

def pingCommandMessage : IRCMessage :=
  { evilMessage with data := ascii ":evil!mod@host PRIVMSG #c :saiv ping", bodyView := some ⟨27, 9⟩ }

def isEvil (msg : IRCMessage) : Bool := decide (msg.getNick = ascii "evil")

theorem strangers_unheeded_sample : ∃ bot bot',
    run (Moment.processed savesWork) (loaded homeFile homeText)
      [⟨chattingEnvironment, pingCommandMessage⟩, ⟨chattingEnvironment, pingMessage⟩] = some bot ∧
    bot.posted.length = 2 ∧
    run (Moment.processed savesWork) (loaded homeFile homeText) [⟨chattingEnvironment, pingMessage⟩] = some bot' ∧
    bot'.posted = [.sendIRC (ascii "PONG")] ∧
    Unheeded (fun work => ∃ moment ∈
      [Moment.mk chattingEnvironment pingCommandMessage, ⟨chattingEnvironment, pingMessage⟩],
        isEvil moment.msg = true ∧ Chatter moment.msg work) bot bot' := by
  have forgetful : chattingEnvironment.Forgetful := ⟨fun _ => rfl, fun _ => rfl⟩
  have stranger : Stranger (loaded homeFile homeText) pingCommandMessage := by constructor <;> decide
  have along : Along (Moment.processed savesWork) (Moment.Estranged isEvil) (loaded homeFile homeText)
      [⟨chattingEnvironment, pingCommandMessage⟩, ⟨chattingEnvironment, pingMessage⟩] := by
    refine ⟨⟨forgetful, fun _ => stranger⟩, fun _ _ => ⟨⟨forgetful, fun evil => ?_⟩, fun _ _ => trivial⟩⟩
    have server : isEvil pingMessage = false := by decide
    rw [server] at evil
    cases evil
  obtain ⟨bot, ran, answered⟩ : ∃ bot, run (Moment.processed savesWork) (loaded homeFile homeText)
      [⟨chattingEnvironment, pingCommandMessage⟩, ⟨chattingEnvironment, pingMessage⟩] = some bot ∧ bot.posted.length = 2 :=
    ⟨_, rfl, rfl⟩
  obtain ⟨bot', without, unheeded⟩ := strangers_unheeded savesWork isEvil _ bot _ along ran
  refine ⟨bot, bot', ran, answered, without, ?_, unheeded⟩
  cases without
  rfl

end SaivBot
