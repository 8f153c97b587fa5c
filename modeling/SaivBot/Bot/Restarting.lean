import SaivBot.Bot.Independence
import SaivBot.Bot.Persistence

/-! A bot that has been restarted and one that has not.

What the file holds is all that most commands look at. A restarted bot answers them as
the bot that wrote the file would have, and its file is read as the one that bot would
have written. In what order a file lists the entries is not said.
-/

set_option autoImplicit false

namespace SaivBot
open Program BotState Transition

/-- The one configuration, files that are read as the same one, and the same work posted since. -/
structure Resumes (decode : Bytes → Option ConfigFile) (before before' : List Posted) (bot bot' : BotState) : Prop where
  config : bot.config = bot'.config
  configFile : (decode bot.configFile).map ConfigFile.config = (decode bot'.configFile).map ConfigFile.config
  posted : ∃ new, bot.posted = before ++ new ∧ bot'.posted = before' ++ new

/-- The clock and the file system do not look at what a restart loses. -/
structure Environment.Forgetful (env : Environment) : Prop where
  now : ∀ {bot bot'}, bot.config = bot'.config → env.now bot = env.now bot'
  opensConfig : ∀ {bot bot'}, bot.config = bot'.config → env.opensConfig bot = env.opensConfig bot'

/-- The commands that show what is not in the file: the messages kept of a channel, and the time since the start. -/
def Lasting (command : Commands) : Prop := command ≠ .clipCommand ∧ command ≠ .uptimeCommand

section

variable {bot bot' : BotState} (same : bot.config = bot'.config)

include same

theorem known_of_config (channel : Bytes) : channel ∈ bot.channels ↔ channel ∈ bot'.channels := by
  have same := congrArg (fun config : Config => channel ∈ config.channels) same
  simpa only [BotState.config, List.mem_toFinset, ← AList.mem_keys] using iff_of_eq same

/-- Bots that follow the same channels afterwards, and change nothing else of their configuration. -/
theorem config_following {channels channels' : AList fun _ : Bytes => IRCMessageBuffer}
    (follow : ∀ channel, channel ∈ channels ↔ channel ∈ channels') :
    BotState.config { bot with channels := channels } = BotState.config { bot' with channels := channels' } := by
  -- The file holds the names of the channels, and not their order.
  have keys : channels.keys.toFinset = channels'.keys.toFinset := by
    ext channel
    rw [List.mem_toFinset, List.mem_toFinset]
    exact follow channel
  calc BotState.config { bot with channels := channels }
    _ = { bot.config with channels := channels.keys.toFinset } := rfl
    _ = { bot'.config with channels := channels'.keys.toFinset } := by rw [same, keys]

theorem config_joining (channel : Bytes) (buffer : IRCMessageBuffer) :
    BotState.config { bot with channels := bot.channels.insert channel buffer } =
      BotState.config { bot' with channels := bot'.channels.insert channel buffer } :=
  config_following same fun other => by rw [AList.mem_insert, AList.mem_insert, known_of_config same]

theorem config_parting (channel : Bytes) :
    BotState.config { bot with channels := bot.channels.erase channel } =
      BotState.config { bot' with channels := bot'.channels.erase channel } :=
  config_following same fun other => by rw [AList.mem_erase, AList.mem_erase, known_of_config same]

end

/-- A message is kept in a buffer that is there. -/
theorem exists_buffering (bot : BotState) (channel : Bytes) (msg : IRCMessage) :
    ∃ channels, bot.buffering channel msg = { bot with channels := channels } ∧
      BotState.config { bot with channels := channels } = bot.config := by
  cases known : bot.channels.lookup channel with
  | none => exact ⟨bot.channels, buffering_none known msg, rfl⟩
  | some buffer =>
    have there : channel ∈ bot.channels := AList.lookup_isSome.mp (by rw [known]; rfl)
    refine ⟨_, buffering_some known msg, @config_following bot bot rfl _ _ fun other => ?_⟩
    rw [AList.mem_insert]
    exact ⟨fun member => member.elim (fun same => same ▸ there) id, .inr⟩

variable {decode : Bytes → Option ConfigFile}

theorem Resumes.posting {before before' : List Posted} {bot bot' : BotState}
    (resumes : Resumes decode before before' bot bot')
    (work : Posted) : Resumes decode before before' (bot.posting work) (bot'.posting work) := by
  obtain ⟨new, posted, posted'⟩ := resumes.posted
  refine ⟨resumes.config, resumes.configFile, new ++ [work], ?_, ?_⟩
  · rw [← List.append_assoc, ← posted]
    rfl
  · rw [← List.append_assoc, ← posted']
    rfl

/-- A kept message changes neither the configuration nor what is posted. -/
theorem resumes_buffering {before before' : List Posted} {bot bot' : BotState}
    (resumes : Resumes decode before before' bot bot') (channel : Bytes) (msg : IRCMessage) :
    Resumes decode before before' (bot.buffering channel msg) (bot'.buffering channel msg) := by
  obtain ⟨channels, after, same⟩ := exists_buffering bot channel msg
  obtain ⟨channels', after', same'⟩ := exists_buffering bot' channel msg
  rw [after, after']
  exact ⟨same.trans (resumes.config.trans same'.symm), resumes.configFile, resumes.posted⟩

variable {env : Environment} {before before' : List Posted}

/-- All that the lasting commands look at is in the file. -/
theorem shares_resumes (forgetful : env.Forgetful) : Shares env Lasting (Resumes decode before before') where
  nick resumes := congrArg Config.nick resumes.config
  modlist resumes := congrArg Config.modlist resumes.config
  whitelist resumes := congrArg Config.whitelist resumes.config
  known resumes := known_of_config resumes.config
  clipping _ _ lasting := absurd rfl lasting.1
  timeStarted _ lasting := absurd rfl lasting.2
  now resumes := forgetful.now resumes.config
  opensConfig resumes := forgetful.opensConfig resumes.config
  dumps resumes := by rw [resumes.config]
  posting work resumes := resumes.posting work
  promoting users resumes :=
    { resumes with config := congrArg (fun config : Config => { config with whitelist := users }) resumes.config }
  saving resumes := { resumes with configFile := by rw [resumes.config] }
  suspending resumes := { resumes with }
  buffering channel msg resumes := resumes_buffering resumes channel msg
  joining channel resumes := { resumes with config := config_joining resumes.config channel _ }
  parting channel resumes := { resumes with config := config_parting resumes.config channel }

/-! Messages after the restart. -/

/-- A message and the surroundings it is processed in. -/
structure Moment where
  env : Environment
  msg : IRCMessage

def Moment.processed (tolerated : Exception → Bool) (bot : BotState) (moment : Moment) : Option BotState :=
  SaivBot.processed moment.env tolerated bot moment.msg

/-- The message calls no command that shows what a restart loses. -/
structure Moment.Lasts (nick : Bytes) (moment : Moment) : Prop where
  forgetful : moment.env.Forgetful
  called : ∀ command inputLine,
    calledCommand moment.env nick moment.msg.getBody = some (command, inputLine) → Lasting command

/-- Both go on, or neither does. -/
theorem Shares.rel_processed {allowed : Commands → Prop} {R : BotState → BotState → Prop} {msg : IRCMessage}
    (shares : Shares env allowed R) {bot bot' : BotState} (related : R bot bot')
    (may : ∀ command inputLine, calledCommand env bot.nick msg.getBody = some (command, inputLine) → allowed command)
    (tolerated : Exception → Bool) :
    Option.Rel R (processed env tolerated bot msg) (processed env tolerated bot' msg) := by
  have agree := shares.agree_processMessage related may
  unfold Agree at agree
  unfold processed
  generalize processMessage env (commandContainers env) msg bot = outcome at agree ⊢
  generalize processMessage env (commandContainers env) msg bot' = outcome' at agree ⊢
  cases agree with
  | ok _ related => exact .some related
  | error abort related =>
    cases abort with
    | fault fault => exact .none
    | raise exception =>
      dsimp only
      by_cases goesOn : tolerated exception = true
      · rw [if_pos goesOn, if_pos goesOn]
        exact .some related
      · rw [if_neg goesOn, if_neg goesOn]
        exact .none

theorem rel_processed {nick : Bytes} {moment : Moment} (lasts : moment.Lasts nick) {tolerated : Exception → Bool}
    {bot bot' : BotState} (resumes : bot.nick = nick ∧ Resumes decode before before' bot bot') :
    Option.Rel (fun bot bot' => bot.nick = nick ∧ Resumes decode before before' bot bot')
      (moment.processed tolerated bot) (moment.processed tolerated bot') := by
  obtain ⟨env, msg⟩ := moment
  obtain ⟨rfl, resumes⟩ := resumes
  have named {after : BotState} (ran : SaivBot.processed env tolerated bot msg = some after) : after.nick = bot.nick :=
    congrArg (fun identity => identity.2.2.1) (identity_processed ran)
  have related := (shares_resumes lasts.forgetful).rel_processed resumes lasts.called tolerated
  simp only [Moment.processed]
  generalize SaivBot.processed env tolerated bot msg = after at named related ⊢
  generalize SaivBot.processed env tolerated bot' msg = after' at related ⊢
  cases related with
  | none => exact .none
  | some resumes => exact .some ⟨named rfl, resumes⟩

/-- A bot that stops after messages whose saves have not failed and is started again from its file: over messages
that call neither clip nor uptime it does as the bot would have done without the stop. -/
theorem restarted_run (decode : Bytes → Option ConfigFile) (env : Environment)
    (readsBack : ∀ config, (env.dump config).2 = true →
      ∃ file, decode (env.dump config).1 = some file ∧ file.config = config)
    (opened : Option Bytes) (start bot : BotState) (began : loadConfig decode opened = some start)
    (history : List IRCMessage) (ran : run (processed env savesWork) start history = some bot) :
    ∃ restarted, loadConfig decode (some bot.configFile) = some restarted ∧
      ∀ (tolerated : Exception → Bool) (later : List Moment), (∀ moment ∈ later, moment.Lasts bot.nick) →
        Option.Rel (Resumes decode bot.posted []) (run (Moment.processed tolerated) bot later)
          (run (Moment.processed tolerated) restarted later) := by
  have persisted : Persisted decode bot := by
    refine @run_invariant _ _ _ _ (fun _ => Persisted decode) (persisted_loaded began) ?_ _ _ ran
    intro _ bot msg bot' persisted step
    exact persisted_of_processed (leaves_processMessage readsBack persisted) step
  obtain ⟨restarted, loads, config⟩ := persisted.restarts
  -- A bot that has just been loaded has posted nothing.
  obtain ⟨empty, text⟩ : restarted.posted = [] ∧ restarted.configFile = bot.configFile := by
    obtain ⟨file, -, same⟩ := Option.bind_eq_some_iff.mp loads
    cases same
    exact ⟨rfl, rfl⟩
  refine ⟨restarted, loads, ?_⟩
  intro tolerated later lasts
  have resumes : bot.nick = bot.nick ∧ Resumes decode bot.posted [] bot restarted :=
    ⟨rfl, config.symm, by rw [text], [], (List.append_nil _).symm, empty⟩
  have together : Option.Rel (fun after after' => after.nick = bot.nick ∧ Resumes decode bot.posted [] after after')
      (run (Moment.processed tolerated) bot later) (run (Moment.processed tolerated) restarted later) :=
    rel_run (fun moment member _ _ related => rel_processed (lasts moment member) related) resumes
  generalize run (Moment.processed tolerated) bot later = after at together ⊢
  generalize run (Moment.processed tolerated) restarted later = after' at together ⊢
  cases together with
  | none => exact .none
  | some related => exact .some related.2

/-! A bot that has joined a channel is started again, and the server pings both. -/

def pingMessage : IRCMessage where
  time := 0
  data := ascii "PING"
  commandView := some ⟨0, 4⟩

theorem forgetful_savingEnvironment : savingEnvironment.Forgetful := ⟨fun _ => rfl, fun _ => rfl⟩

theorem readsBack_savingEnvironment (config : Config) (complete : (savingEnvironment.dump config).2 = true) :
    ∃ file, sampleDecode (savingEnvironment.dump config).1 = some file ∧ file.config = config := by
  obtain ⟨host, port, nick, password, modlist, whitelist, channels⟩ := config
  simp only [savingEnvironment] at complete ⊢
  split at complete
  · next joined =>
    obtain ⟨rfl, rfl, rfl, rfl, rfl, rfl, rfl⟩ := joined
    refine ⟨joinedFile, ?_, rfl⟩
    rw [if_pos (by simp), sampleDecode_joinedText]
  · cases complete

theorem restarted_run_sample : ∃ bot restarted after after',
    run (processed savingEnvironment savesWork) (loaded homeFile homeText) [ownJoinMessage, evilMessage] = some bot ∧
      loadConfig sampleDecode (some bot.configFile) = some restarted ∧
      run (Moment.processed savesWork) bot [⟨savingEnvironment, pingMessage⟩] = some after ∧
      run (Moment.processed savesWork) restarted [⟨savingEnvironment, pingMessage⟩] = some after' ∧
      Resumes sampleDecode bot.posted [] after after' := by
  have began : loadConfig sampleDecode (some homeText) = some (loaded homeFile homeText) := by
    simp [loadConfig, sampleDecode_homeText]
  obtain ⟨bot, ran⟩ : ∃ bot,
      run (processed savingEnvironment savesWork) (loaded homeFile homeText) [ownJoinMessage, evilMessage] = some bot :=
    Option.isSome_iff_exists.mp (by decide)
  have lasts : ∀ moment ∈ [Moment.mk savingEnvironment pingMessage], moment.Lasts bot.nick := by
    intro moment member
    obtain rfl := List.mem_singleton.mp member
    refine ⟨forgetful_savingEnvironment, fun command inputLine called => ?_⟩
    cases called
  obtain ⟨restarted, loads, together⟩ := restarted_run sampleDecode savingEnvironment readsBack_savingEnvironment
    (some homeText) _ bot began _ ran
  have answered : run (Moment.processed savesWork) bot [⟨savingEnvironment, pingMessage⟩] =
      some (bot.posting (.sendIRC (ascii "PONG"))) := rfl
  have related := together savesWork _ lasts
  rw [answered] at related
  generalize same : run (Moment.processed savesWork) restarted _ = outcome at related
  cases related with
  | some resumes => exact ⟨bot, restarted, _, _, ran, loads, answered, same, resumes⟩

end SaivBot
