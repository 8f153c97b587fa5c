import SaivBot.Bot.Channels

/-! The configuration file and the bot that is running.

Only a change of the whitelist and the bot's own JOIN and PART touch what the file
holds, and each of them ends in a save. Everything else leaves both alone.
-/

set_option autoImplicit false

namespace SaivBot
open Program BotState Transition

/-- The file is read as what the bot has in memory, so a bot that starts now has the same. -/
structure Persisted (decode : Bytes → Option ConfigFile) (bot : BotState) : Prop where
  decodes : ∃ file, decode bot.configFile = some file ∧ file.config = bot.config
  restarts : ∃ restarted, loadConfig decode (some bot.configFile) = some restarted ∧ restarted.config = bot.config

variable {decode : Bytes → Option ConfigFile} {env : Environment} {msg : IRCMessage} {bot bot' : BotState}

theorem persisted_of_decodes (decodes : ∃ file, decode bot.configFile = some file ∧ file.config = bot.config) :
    Persisted decode bot := by
  refine ⟨decodes, ?_⟩
  obtain ⟨file, read, same⟩ := decodes
  refine ⟨loaded file bot.configFile, ?_, (config_loaded file _).trans same⟩
  simp [loadConfig, read]

/-- What the file holds, and the file. -/
def stored (bot : BotState) : Config × Bytes := (bot.config, bot.configFile)

theorem Persisted.alike (persisted : Persisted decode bot) (same : Alike stored bot bot') : Persisted decode bot' := by
  have config : bot'.config = bot.config := congrArg Prod.fst same
  have text : bot'.configFile = bot.configFile := congrArg Prod.snd same
  apply persisted_of_decodes
  rw [config, text]
  exact persisted.decodes

/-! A handler that does not save changes nothing that is saved. -/

theorem Grows.stored {allowed : Posted → Prop} (grows : Grows allowed bot bot') : Alike stored bot bot' := by
  obtain ⟨new, rfl, -⟩ := grows
  rfl

theorem config_channels {channels : AList fun _ : Bytes => IRCMessageBuffer}
    (same : ∀ channel, channel ∈ channels ↔ channel ∈ bot.channels) :
    BotState.config { bot with channels := channels } = bot.config := by
  have keys : channels.keys.toFinset = bot.channels.keys.toFinset := by
    ext channel
    rw [List.mem_toFinset, List.mem_toFinset]
    exact same channel
  simp only [BotState.config, keys]

/-- A message goes into a buffer that is there. -/
theorem leads_bufferMessage_stored : Leads (Alike stored) (bufferMessage msg) bot := by
  apply leads_lift_bind
  intro channel _
  change Alike stored bot (bot.buffering channel msg)
  cases known : bot.channels.lookup channel with
  | none =>
    rw [BotState.buffering_none known]
    rfl
  | some buffer =>
    rw [BotState.buffering_some known]
    have there : channel ∈ bot.channels := AList.lookup_isSome.mp (by rw [known]; rfl)
    refine Prod.ext (config_channels fun other => ?_) rfl
    rw [AList.mem_insert]
    exact ⟨fun member => member.elim (fun same => same ▸ there) id, .inr⟩

/-! The handlers that save. -/

/-- The states in which the handler of a message calls `saveConfig`: the whitelist or the channels have been
changed, and nothing has been written. -/
inductive SavesIn (env : Environment) (msg : IRCMessage) (bot : BotState) : BotState → Prop where
  | whitelist {heard : BotState} {change : WhitelistChange} {user channel : Bytes} :
      parseFreeMessage msg bot = .ok () heard → asked env msg bot = some (change, user) →
      change.applies user heard.whitelist = true → msg.firstParam = .ok channel →
      SavesIn env msg bot (BotState.posting { heard with whitelist := change.change user heard.whitelist }
        (.sendIRC (privmsg channel (user ++ change.answer))))
  | join {channel : Bytes} : Joins bot.nick channel msg → bot.channels.lookup channel = none →
      SavesIn env msg bot
        { bot with channels := bot.channels.insert channel (IRCMessageBuffer.empty messageBufferSize) }
  | part {channel : Bytes} {buffer : IRCMessageBuffer} : Parts bot.nick channel msg →
      bot.channels.lookup channel = some buffer →
      SavesIn env msg bot { bot with channels := bot.channels.erase channel }

section

variable {excused : Abort → Prop} {P : BotState → Prop} (holds : P bot)
  (saves : ∀ called, SavesIn env msg bot called → Leaves excused P (saveConfig env) called)

include holds saves

theorem leaves_ownJoin_of (joins : msg.getCommand = ascii "JOIN")
    (own : caselessCompare msg.getNick bot.nick = true) : Leaves excused P (ownJoin env msg) bot := by
  apply leaves_lift_bind holds
  intro channel named
  unfold Leaves
  rw [get_bind]
  cases known : bot.channels.lookup channel with
  | some buffer => exact holds
  | none => exact saves _ (.join ⟨joins, own, named⟩ known)

theorem leaves_ownPart_of (parts : msg.getCommand = ascii "PART")
    (own : caselessCompare msg.getNick bot.nick = true) : Leaves excused P (ownPart env msg) bot := by
  apply leaves_lift_bind holds
  intro channel named
  unfold Leaves
  rw [get_bind]
  cases known : bot.channels.lookup channel with
  | none => exact holds
  | some buffer => exact saves _ (.part ⟨parts, own, named⟩ known)

variable (faults : ∀ fault, excused (.fault fault)) (alike : ∀ {s s'}, P s → Alike stored s s' → P s')

include faults alike

/-- A command that changes the whitelist calls `saveConfig` last; every other one changes nothing stored. -/
theorem leaves_runCommand_of {heard : BotState} (privmsg : msg.getCommand = ascii "PRIVMSG")
    (free : parseFreeMessage msg bot = .ok () heard) :
    Leaves excused P (runCommand env.optionParser (commandContainers env) msg) heard := by
  have before : P heard := alike holds (leads_parseFreeMessage_grows.ok free).stored
  unfold Leaves
  rw [runCommand_eq]
  cases called : calledCommand env heard.nick msg.getBody with
  | none => exact before
  | some call =>
    obtain ⟨command, inputLine⟩ := call
    have changes (change : WhitelistChange) (which : change = promotion ∨ change = demotion)
        (calls : command = change.command) :
        Leaves excused P (whitelistCommandFunc env change msg inputLine) heard := by
      unfold Leaves
      rcases whitelistCommandFunc_cases change with
        ⟨ran, -⟩ | ⟨user, names, applies, ⟨abort, ran, noParams⟩ | ⟨channel, named, ran⟩⟩
      · rw [ran]
        exact before
      · -- The whitelist has changed and there is no channel to answer in.
        rw [ran]
        unfold IRCMessage.firstParam at noParams
        split at noParams
        · cases noParams
          exact .inl (faults _)
        · cases noParams
      · have asks : asked env msg bot = some (change, user) := by
          obtain ⟨new, rfl, -⟩ := leads_parseFreeMessage_grows.ok free
          exact asked_eq_some.mpr ⟨privmsg, which, inputLine, calls ▸ called, names⟩
        rw [ran]
        exact saves _ (.whitelist free asks applies named)
    by_cases promotes : command = .promoteCommand
    · subst promotes
      exact changes promotion (.inl rfl) rfl
    by_cases demotes : command = .demoteCommand
    · subst demotes
      exact changes demotion (.inr rfl) rfl
    exact leaves_of_leads (leads_commandFunc ⟨promotes, demotes⟩) fun _ grows => alike before grows.stored

/-- What only depends on what is stored, and what every save of a message leaves, is left by the message. -/
theorem leaves_processMessage_of : Leaves excused P (processMessage env (commandContainers env) msg) bot := by
  unfold processMessage
  apply leaves_ite
  · intro privmsg
    apply leaves_bind (leaves_of_leads leads_parseFreeMessage_grows fun _ grows => alike holds grows.stored)
    intro _ heard free _
    apply leaves_bind (leaves_runCommand_of holds saves faults alike privmsg free)
    intro _ after _ left
    exact leaves_of_leads leads_bufferMessage_stored fun _ same => alike left same
  intro _
  apply leaves_ite
  · exact fun _ => alike holds rfl
  intro _
  apply leaves_ite
  · exact fun _ => alike holds rfl
  intro _
  change Leaves excused P (if caselessCompare msg.getNick bot.nick = true then _ else _) bot
  apply leaves_ite _ fun _ => leaves_pure holds
  intro own
  apply leaves_ite fun joins => leaves_ownJoin_of holds saves joins own
  intro _
  exact leaves_ite (fun parts => leaves_ownPart_of holds saves parts own) fun _ => leaves_pure holds

end

/-! A save that returns. -/

/-- The exceptions after which nothing is promised: a fault, and a save that has failed. -/
def Excused (abort : Abort) : Prop := abort = .raise .saveConfig ∨ ∃ fault, abort = .fault fault

section

variable (readsBack : ∀ config, (env.dump config).2 = true →
  ∃ file, decode (env.dump config).1 = some file ∧ file.config = config)

include readsBack

/-- Whatever has been changed before, a save that returns has written it. -/
theorem leaves_saveConfig : Leaves Excused (Persisted decode) (saveConfig env) bot := by
  have failed (bot : BotState) : Leaves Excused (Persisted decode) (throw (.raise .saveConfig) : BotM Unit) bot :=
    .inl (.inl rfl)
  unfold saveConfig
  change Leaves Excused (Persisted decode) (if env.opensConfig bot = true then _ else _) bot
  apply leaves_ite
  · intro _
    change Leaves Excused (Persisted decode) (if (env.dump bot.config).2 = true then pure () else throw _)
      { bot with configFile := (env.dump bot.config).1 }
    apply leaves_ite
    · exact fun complete => leaves_pure (persisted_of_decodes (readsBack bot.config complete))
    · exact fun _ => failed _
  · exact fun _ => failed bot

theorem leaves_processMessage (persisted : Persisted decode bot) :
    Leaves Excused (Persisted decode) (processMessage env (commandContainers env) msg) bot :=
  leaves_processMessage_of persisted (fun _ _ => leaves_saveConfig readsBack) (fun fault => .inr ⟨fault, rfl⟩)
    fun persisted same => persisted.alike same

end

/-- A run goes on after every exception but that of a save. -/
def savesWork (exception : Exception) : Bool := decide (exception ≠ .saveConfig)

theorem persisted_of_processed (left : Leaves Excused (Persisted decode) (processMessage env (commandContainers env) msg) bot)
    (ran : processed env savesWork bot msg = some bot') : Persisted decode bot' := by
  unfold Leaves at left
  unfold processed at ran
  cases result : processMessage env (commandContainers env) msg bot with
  | ok _ after =>
    rw [result] at ran left
    cases ran
    exact left
  | error abort after =>
    rw [result] at ran left
    cases abort with
    | fault fault => cases ran
    | raise exception =>
      simp only [savesWork, Option.ite_none_right_eq_some, decide_eq_true_eq, Option.some.injEq] at ran
      obtain ⟨other, rfl⟩ := ran
      rcases left with (same | ⟨fault, wrong⟩) | persisted
      · cases same
        exact absurd rfl other
      · cases wrong
      · exact persisted

theorem persisted_loaded {opened : Option Bytes} (began : loadConfig decode opened = some bot) :
    Persisted decode bot := by
  cases opened with
  | none => cases began
  | some text =>
    cases read : decode text with
    | none => simp [loadConfig, read] at began
    | some file =>
      obtain rfl : loaded file text = bot := by simpa [loadConfig, read] using began
      exact persisted_of_decodes ⟨file, read, (config_loaded file text).symm⟩

/-- The file holds what the bot has in memory, from `loadConfig` on and as long as no save fails. -/
theorem persisted_run (decode : Bytes → Option ConfigFile) (env : Environment)
    (readsBack : ∀ config, (env.dump config).2 = true →
      ∃ file, decode (env.dump config).1 = some file ∧ file.config = config)
    (opened : Option Bytes) (start bot : BotState) (began : loadConfig decode opened = some start)
    (history : List IRCMessage) (ran : run (processed env savesWork) start history = some bot) :
    Persisted decode bot := by
  refine @run_invariant _ _ _ _ (fun _ => Persisted decode) ?_ ?_ _ _ ran
  · exact persisted_loaded began
  · intro _ bot msg bot' persisted step
    exact persisted_of_processed (leaves_processMessage readsBack persisted) step

/-! A file, and the one written after a JOIN. -/

def homeText : Bytes :=
  ascii "\x7b\"channels\":[\"#a\"],\"host\":\"\",\"modlist\":[],\"nick\":\"saiv\",\"password\":\"\",\"port\":\"\",\"whitelist\":[]\x7d"

def joinedText : Bytes :=
  ascii "\x7b\"channels\":[\"#a\",\"#c\"],\"host\":\"\",\"modlist\":[],\"nick\":\"saiv\",\"password\":\"\",\"port\":\"\",\"whitelist\":[]\x7d"

def joinedFile : ConfigFile := { homeFile with channels := [ascii "#a", ascii "#c"] }

def sampleDecode (text : Bytes) : Option ConfigFile :=
  if text = homeText then some homeFile else if text = joinedText then some joinedFile else none

def savingEnvironment : Environment :=
  { bareEnvironment with
    dump := fun config =>
      if config.host = [] ∧ config.port = [] ∧ config.nick = ascii "saiv" ∧ config.password = [] ∧
          config.modlist = ∅ ∧ config.whitelist = ∅ ∧ config.channels = {ascii "#a", ascii "#c"} then
        (joinedText, true)
      else ([], false) }

theorem sampleDecode_homeText : sampleDecode homeText = some homeFile := if_pos rfl

theorem sampleDecode_joinedText : sampleDecode joinedText = some joinedFile := by
  have other : joinedText ≠ homeText := by decide
  simp [sampleDecode, other]

theorem persisted_run_sample : ∃ start bot, loadConfig sampleDecode (some homeText) = some start ∧
    run (processed savingEnvironment savesWork) start [ownJoinMessage, evilMessage] = some bot ∧
    bot.configFile = joinedText ∧ Persisted sampleDecode bot := by
  have readsBack (config : Config) (complete : (savingEnvironment.dump config).2 = true) :
      ∃ file, sampleDecode (savingEnvironment.dump config).1 = some file ∧ file.config = config := by
    obtain ⟨host, port, nick, password, modlist, whitelist, channels⟩ := config
    simp only [savingEnvironment] at complete ⊢
    split at complete
    · next joined =>
      obtain ⟨rfl, rfl, rfl, rfl, rfl, rfl, rfl⟩ := joined
      refine ⟨joinedFile, ?_, rfl⟩
      rw [if_pos (by simp), sampleDecode_joinedText]
    · cases complete
  obtain ⟨bot, ran, written⟩ : ∃ bot,
      run (processed savingEnvironment savesWork) (loaded homeFile homeText) [ownJoinMessage, evilMessage] = some bot ∧
        bot.configFile = joinedText := by
    have written : (run (processed savingEnvironment savesWork) (loaded homeFile homeText)
        [ownJoinMessage, evilMessage]).map BotState.configFile = some joinedText := by decide
    obtain ⟨bot, ran, same⟩ := Option.map_eq_some_iff.mp written
    exact ⟨bot, ran, same⟩
  have began : loadConfig sampleDecode (some homeText) = some (loaded homeFile homeText) := by
    simp [loadConfig, sampleDecode_homeText]
  refine ⟨loaded homeFile homeText, bot, began, ran, written, ?_⟩
  exact persisted_run sampleDecode savingEnvironment readsBack (some homeText) _ bot began _ ran

end SaivBot
