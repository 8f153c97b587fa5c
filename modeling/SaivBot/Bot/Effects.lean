import SaivBot.Bot.Harmless
import SaivBot.Bot.Posting

/-! What each message can do.

`Causes` lists the work it can post. A relation that absorbs this work and the few
fields a message may set holds between the bot before and after, however its
processing ends.
-/

set_option autoImplicit false

namespace SaivBot
open Program BotState

variable (env : Environment) (msg : IRCMessage) (bot : BotState)

/-- The change of the whitelist that a moderator asks for with this message, and for whom. -/
def asked : Option (WhitelistChange × Bytes) :=
  if msg.getCommand = ascii "PRIVMSG" then
    match calledCommand env bot.nick msg.getBody with
    | some (.promoteCommand, inputLine) => (changedUser env bot msg inputLine promotion).map (promotion, ·)
    | some (.demoteCommand, inputLine) => (changedUser env bot msg inputLine demotion).map (demotion, ·)
    | _ => none
  else none

/-- The work this message can cause in this state. -/
inductive Causes : Posted → Prop where
  | raffle {channel : Bytes} : msg.getCommand = ascii "PRIVMSG" → msg.firstParam = .ok channel →
      Causes (.sendIRC (privmsg channel (ascii "!join")))
  | command {command : Commands} {inputLine : Bytes} {work : Posted} : msg.getCommand = ascii "PRIVMSG" →
      Returns (parseFreeMessage msg) bot → calledCommand env bot.nick msg.getBody = some (command, inputLine) →
      Posts env bot msg inputLine command work → Causes work
  | changed {change : WhitelistChange} {user channel : Bytes} : asked env msg bot = some (change, user) →
      msg.firstParam = .ok channel → Causes (.sendIRC (privmsg channel (user ++ change.answer)))
  | pong : msg.getCommand = ascii "PING" → Causes (.sendIRC (ascii "PONG"))
  | suspendWrite : msg.getCommand = ascii "RECONNECT" → Causes .suspendWrite

/-- The relation holds across everything the free text and the command of this message can do. -/
structure AbsorbsCommand (R : BotState → BotState → Prop) : Prop where
  posting : ∀ (bot' : BotState) {work : Posted}, Causes env msg bot work → R bot' (bot'.posting work)
  configFile : ∀ (bot' : BotState) (text : Bytes), R bot' { bot' with configFile := text }
  whitelist : ∀ (bot' : BotState) {change : WhitelistChange} {user : Bytes},
    asked env msg bot = some (change, user) → R bot' { bot' with whitelist := change.change user bot'.whitelist }

/-- The relation holds across everything this message can do. -/
structure Absorbs (R : BotState → BotState → Prop) : Prop extends AbsorbsCommand env msg bot R where
  channels : ∀ (bot' : BotState) (channels : AList fun _ : Bytes => IRCMessageBuffer),
    (∀ channel ∈ channels, channel ∈ bot'.channels ∨ msg.firstParam = .ok channel) →
    R bot' { bot' with channels := channels }
  suspendRead : ∀ bot' : BotState, msg.getCommand = ascii "RECONNECT" → R bot' { bot' with suspendRead := true }

variable {env msg bot} {R : BotState → BotState → Prop} [IsPreorder BotState R]

/-- Work that has been posted does not change what can be posted. -/
theorem posts_posted {posted : List Posted} {inputLine : Bytes} {command : Commands} {work : Posted}
    (posts : Posts env { bot with posted := posted } msg inputLine command work) :
    Posts env bot msg inputLine command work := by
  cases posts with
  | shutdown moderator => exact .shutdown moderator
  | help whitelisted member named => exact .help whitelisted member named
  | invalidPeriod query whitelisted made => exact .invalidPeriod query whitelisted made
  | invalidService query whitelisted named => exact .invalidService query whitelisted named
  | query query whitelisted filled => exact .query query whitelisted filled
  | clip lineCount stale whitelisted named known => exact .clip lineCount stale whitelisted named known
  | clipInvalid whitelisted named => exact .clipInvalid whitelisted named
  | joinChannel moderator read => exact .joinChannel moderator read
  | joinGreeting moderator read => exact .joinGreeting moderator read
  | part moderator read => exact .part moderator read
  | uptime seconds whitelisted named => exact .uptime seconds whitelisted named
  | say moderator named read => exact .say moderator named read
  | sayRest moderator named extracted => exact .sayRest moderator named extracted
  | ping made => exact .ping made
  | commands made => exact .commands made
  | flags made => exact .flags made
  | insertMessage user read => exact .insertMessage user read

/-- Posting work one after the other. -/
theorem Grows.absorbed {allowed : Posted → Prop} {bot' bot'' : BotState}
    (absorbed : ∀ bot' {work}, allowed work → R bot' (bot'.posting work)) (grows : Grows allowed bot' bot'') :
    R bot' bot'' := by
  obtain ⟨new, rfl, fine⟩ := grows
  induction new generalizing bot' with
  | nil =>
    rw [List.append_nil]
    exact Std.Refl.refl bot'
  | cons work new ih =>
    have first := absorbed bot' (fine work (by simp))
    have others : R (bot'.posting work) { bot'.posting work with posted := (bot'.posting work).posted ++ new } :=
      ih fun other member => fine other (by simp [member])
    have same : { bot' with posted := bot'.posted ++ work :: new } =
        { bot'.posting work with posted := (bot'.posting work).posted ++ new } := by
      simp [BotState.posting]
    rw [same]
    exact IsTrans.trans _ _ _ first others

theorem asked_eq_some {change : WhitelistChange} {user : Bytes} :
    asked env msg bot = some (change, user) ↔
      msg.getCommand = ascii "PRIVMSG" ∧ (change = promotion ∨ change = demotion) ∧
        ∃ inputLine, calledCommand env bot.nick msg.getBody = some (change.command, inputLine) ∧
          changedUser env bot msg inputLine change = some user := by
  constructor
  · intro asks
    unfold asked at asks
    split at asks
    · next privmsg =>
      refine ⟨privmsg, ?_⟩
      split at asks
      · next inputLine called =>
        obtain ⟨_, changed, ⟨⟩⟩ := Option.map_eq_some_iff.mp asks
        exact ⟨.inl rfl, inputLine, called, changed⟩
      · next inputLine called =>
        obtain ⟨_, changed, ⟨⟩⟩ := Option.map_eq_some_iff.mp asks
        exact ⟨.inr rfl, inputLine, called, changed⟩
      · cases asks
    · cases asks
  · rintro ⟨privmsg, rfl | rfl, inputLine, called, changed⟩
    · have command : promotion.command = .promoteCommand := rfl
      rw [command] at called
      simp [asked, privmsg, called, changed]
    · have command : demotion.command = .demoteCommand := rfl
      rw [command] at called
      simp [asked, privmsg, called, changed]

/-- Only a moderator's message asks for a change. -/
theorem moderator_of_asked {change : WhitelistChange} {user : Bytes} (asks : asked env msg bot = some (change, user)) :
    bot.isModerator msg.getNick = true := by
  obtain ⟨-, -, inputLine, -, changed⟩ := asked_eq_some.mp asks
  by_contra refused
  simp [changedUser, refused] at changed

/-! What the free text does. -/

theorem leads_parseFreeMessage_grows :
    Leads (Grows fun work => ∃ channel, work = .sendIRC (privmsg channel (ascii "!join")))
      (parseFreeMessage msg) bot := by
  unfold parseFreeMessage
  split
  · exact leads_sendBack fun channel _ => ⟨channel, rfl⟩
  · exact leads_pure _ bot

/-- What the free text leaves alone. -/
theorem heard_frame {heard : BotState} (free : parseFreeMessage msg bot = .ok () heard) :
    heard.nick = bot.nick ∧ (∀ user, heard.isModerator user = bot.isModerator user) ∧
      ∀ user, heard.isWhitelisted user = bot.isWhitelisted user := by
  obtain ⟨new, rfl, -⟩ := leads_parseFreeMessage_grows.ok free
  exact ⟨rfl, fun _ => rfl, fun _ => rfl⟩

/-- The free text only needs a channel where there is a raffle. -/
theorem returns_parseFreeMessage_iff :
    Returns (parseFreeMessage msg) bot ↔
      ((StringView.findText (ascii "A multi-raffle has begun") msg.getBody).isSome →
        ∃ channel, msg.firstParam = .ok channel) := by
  unfold parseFreeMessage
  cases StringView.findText (ascii "A multi-raffle has begun") msg.getBody with
  | none => simp
  | some pos => simp [returns_lift_bind, sendPRIVMSG, postSendIRC]

/-! The parts of a message. -/

section

variable (absorbs : AbsorbsCommand env msg bot R)

include absorbs

theorem leads_saveConfig (bot' : BotState) : Leads R (saveConfig env) bot' := by
  unfold saveConfig
  apply leads_get_bind
  apply leads_ite _ fun _ => leads_throw _ bot'
  intro _
  apply leads_modify_bind (absorbs.configFile bot' _)
  exact leads_ite (fun _ => leads_pure _ _) fun _ => leads_throw _ _

theorem leads_parseFreeMessage (privmsg : msg.getCommand = ascii "PRIVMSG") : Leads R (parseFreeMessage msg) bot := by
  unfold parseFreeMessage
  split
  · apply leads_lift_bind
    exact fun channel named => absorbs.posting bot (.raffle privmsg named)
  · exact leads_pure _ bot

/-- The command runs in the state that the free text has left, which differs by the work posted. -/
theorem leads_runCommand (privmsg : msg.getCommand = ascii "PRIVMSG") (heard : Returns (parseFreeMessage msg) bot)
    (posted : List Posted) :
    Leads R (runCommand env.optionParser (commandContainers env) msg) { bot with posted := posted } := by
  unfold Leads
  rw [runCommand_eq]
  cases called : calledCommand env bot.nick msg.getBody with
  | none => exact Std.Refl.refl _
  | some call =>
    obtain ⟨command, inputLine⟩ := call
    have changes (change : WhitelistChange)
        (asks : ∀ user, changedUser env bot msg inputLine change = some user → asked env msg bot = some (change, user)) :
        Leads R (whitelistCommandFunc env change msg inputLine) { bot with posted := posted } := by
      unfold Leads
      rcases whitelistCommandFunc_cases change with
        ⟨ran, -⟩ | ⟨user, names, -, ⟨abort, ran, -⟩ | ⟨channel, named, ran⟩⟩
      · rw [ran]
        exact Std.Refl.refl _
      · rw [ran]
        exact absorbs.whitelist _ (asks user names)
      · rw [ran]
        refine IsTrans.trans _ _ _ (absorbs.whitelist _ (asks user names)) ?_
        refine IsTrans.trans _ _ _ (absorbs.posting _ (.changed (asks user names) named)) ?_
        exact leads_saveConfig absorbs _
    by_cases promotes : command = .promoteCommand
    · subst promotes
      exact changes promotion fun user names => asked_eq_some.mpr ⟨privmsg, .inl rfl, inputLine, called, names⟩
    by_cases demotes : command = .demoteCommand
    · subst demotes
      exact changes demotion fun user names => asked_eq_some.mpr ⟨privmsg, .inr rfl, inputLine, called, names⟩
    refine Grows.absorbed (R := R) ?_ (leads_commandFunc ⟨promotes, demotes⟩)
    exact fun bot' _ posts => absorbs.posting bot' (.command privmsg heard called (posts_posted posts))

/-- All that a PRIVMSG does before it is kept. -/
theorem leads_speech (privmsg : msg.getCommand = ascii "PRIVMSG") :
    Leads R (parseFreeMessage msg >>= fun _ => runCommand env.optionParser (commandContainers env) msg) bot := by
  apply leads_bind (leads_parseFreeMessage absorbs privmsg)
  intro _ heard returned
  obtain ⟨posted, rfl, -⟩ := leads_parseFreeMessage_grows.ok returned
  exact leads_runCommand absorbs privmsg ⟨_, _, returned⟩ _

end

/-- A PRIVMSG is kept at last. -/
theorem processMessage_privmsg (privmsg : msg.getCommand = ascii "PRIVMSG") :
    processMessage env (commandContainers env) msg =
      (parseFreeMessage msg >>= fun _ => runCommand env.optionParser (commandContainers env) msg) >>= fun _ =>
        bufferMessage msg := by
  rw [processMessage, if_pos privmsg, bind_assoc]

section

variable (absorbs : Absorbs env msg bot R)

include absorbs

theorem leads_bufferMessage (bot' : BotState) : Leads R (bufferMessage msg) bot' := by
  apply leads_lift_bind
  intro channel _
  change R bot' (bot'.buffering channel msg)
  cases known : bot'.channels.lookup channel with
  | none =>
    rw [BotState.buffering_none known]
    exact Std.Refl.refl bot'
  | some buffer =>
    rw [BotState.buffering_some known]
    apply absorbs.channels
    intro other member
    -- The buffer was there before.
    rcases (AList.mem_insert _).mp member with rfl | before
    · exact .inl (AList.lookup_isSome.mp (by rw [known]; rfl))
    · exact .inl before

theorem leads_ownJoin (bot' : BotState) : Leads R (ownJoin env msg) bot' := by
  apply leads_lift_bind
  intro channel named
  apply leads_get_bind
  split
  · exact leads_pure _ bot'
  · refine leads_modify_bind (absorbs.channels bot' _ fun other member => ?_) (leads_saveConfig absorbs.toAbsorbsCommand _)
    rcases (AList.mem_insert _).mp member with rfl | before
    · exact .inr named
    · exact .inl before

theorem leads_ownPart (bot' : BotState) : Leads R (ownPart env msg) bot' := by
  apply leads_lift_bind
  intro channel _
  apply leads_get_bind
  split
  · exact leads_pure _ bot'
  · refine leads_modify_bind (absorbs.channels bot' _ fun other member => ?_) (leads_saveConfig absorbs.toAbsorbsCommand _)
    exact .inl (AList.mem_erase.mp member).2

theorem leads_processMessage : Leads R (processMessage env (commandContainers env) msg) bot := by
  by_cases privmsg : msg.getCommand = ascii "PRIVMSG"
  · rw [processMessage_privmsg privmsg]
    apply leads_bind (leads_speech absorbs.toAbsorbsCommand privmsg)
    exact fun _ bot' _ => leads_bufferMessage absorbs bot'
  rw [processMessage, if_neg privmsg]
  apply leads_ite
  · exact fun ping => absorbs.posting bot (.pong ping)
  intro _
  apply leads_ite
  · intro reconnect
    exact leads_modify_bind (absorbs.suspendRead bot reconnect) (absorbs.posting _ (.suspendWrite reconnect))
  intro _
  apply leads_get_bind
  apply leads_ite _ fun _ => leads_pure _ bot
  intro _
  apply leads_ite fun _ => leads_ownJoin absorbs bot
  exact fun _ => leads_ite (fun _ => leads_ownPart absorbs bot) fun _ => leads_pure _ bot

end

end SaivBot
