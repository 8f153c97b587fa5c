import SaivBot.Bot.Persistence

/-! The configuration file after a save that fails.

The file is emptied before anything is written. Whatever stops the serialiser after
that leaves a text which is no configuration, and the old one is gone.
-/

set_option autoImplicit false

namespace SaivBot
open Program BotState Transition

/-- Well-formed UTF-8. -/
def IsUtf8 (text : Bytes) : Prop := (ByteArray.mk text.toArray).IsValidUTF8

instance (text : Bytes) : Decidable (IsUtf8 text) := inferInstanceAs (Decidable (ByteArray.IsValidUTF8 _))

/-- The strings of the configuration. -/
def Config.strings (config : Config) : Finset Bytes :=
  {config.host, config.port, config.nick, config.password} ∪ config.modlist ∪ config.whitelist ∪ config.channels

def Config.Serialisable (config : Config) : Prop := ∀ text ∈ config.strings, IsUtf8 text

instance (config : Config) : Decidable config.Serialisable := inferInstanceAs (Decidable (∀ text ∈ _, _))

/-- The JSON library: the serialiser throws at a string that is not UTF-8, and of what it has written only a
whole object is read again. -/
structure JsonLibrary (decode : Bytes → Option ConfigFile) (env : Environment) : Prop where
  complete : ∀ config, (env.dump config).2 = true ↔ config.Serialisable
  reads : ∀ config, (env.dump config).2 = true → (decode (env.dump config).1).isSome
  refuses : ∀ config, (env.dump config).2 = false → decode (env.dump config).1 = none

/-- However `saveConfig` fails in this state, the file is still read as the configuration it held. -/
def KeepsFile (decode : Bytes → Option ConfigFile) (env : Environment) (called : BotState) : Prop :=
  ∀ abort after, saveConfig env called = .error abort after → ∀ file, decode called.configFile = some file →
    ∃ again, decode after.configFile = some again ∧ again.config = file.config

/-- The file does not open, or the serialiser gets to the end. -/
def SafeToSave (env : Environment) (called : BotState) : Prop :=
  env.opensConfig called = false ∨ called.config.Serialisable

variable {decode : Bytes → Option ConfigFile} {env : Environment} {msg : IRCMessage} {bot bot' called : BotState}

/-! What `saveConfig` does at each point where it can fail. -/

theorem saveConfig_closed (closed : env.opensConfig called = false) :
    saveConfig env called = .error (.raise .saveConfig) called := by
  simp only [saveConfig, get_bind, closed, Bool.false_eq_true, ↓reduceIte]
  rfl

theorem saveConfig_opened (opens : env.opensConfig called = true) :
    saveConfig env called =
      if (env.dump called.config).2 = true then .ok () { called with configFile := (env.dump called.config).1 }
      else .error (.raise .saveConfig) { called with configFile := (env.dump called.config).1 } := by
  simp only [saveConfig, get_bind, opens, ↓reduceIte, modify_bind]
  split <;> rfl

theorem saveConfig_ok {after : BotState} (saved : saveConfig env called = .ok () after) :
    after = { called with configFile := (env.dump called.config).1 } := by
  cases opens : env.opensConfig called with
  | false =>
    rw [saveConfig_closed opens] at saved
    cases saved
  | true =>
    rw [saveConfig_opened opens] at saved
    split at saved
    · cases saved
      rfl
    · cases saved

/-- A readable file stays readable exactly if the save is safe. -/
theorem keepsFile_iff (library : JsonLibrary decode env) (readable : (decode called.configFile).isSome) :
    KeepsFile decode env called ↔ SafeToSave env called := by
  obtain ⟨file, held⟩ := Option.isSome_iff_exists.mp readable
  cases opens : env.opensConfig called with
  | false =>
    refine iff_of_true ?_ (.inl opens)
    intro abort after failed file held
    rw [saveConfig_closed opens] at failed
    cases failed
    exact ⟨file, held, rfl⟩
  | true =>
    have ran := saveConfig_opened opens
    by_cases serialisable : called.config.Serialisable
    · refine iff_of_true ?_ (.inr serialisable)
      intro abort after failed
      rw [ran, if_pos ((library.complete _).mpr serialisable)] at failed
      cases failed
    · have cut : (env.dump called.config).2 ≠ true :=
        fun complete => serialisable ((library.complete _).mp complete)
      refine iff_of_false (fun keeps => ?_) fun safe => safe.elim (by simp [opens]) serialisable
      rw [if_neg cut] at ran
      obtain ⟨again, read, -⟩ := keeps _ _ ran file held
      rw [library.refuses _ (by simpa using cut)] at read
      cases read

/-- A safe save leaves a readable file, whether it fails or not. -/
theorem readable_of_safe (library : JsonLibrary decode env) (readable : (decode called.configFile).isSome)
    (safe : SafeToSave env called) : (decode (final (saveConfig env called)).configFile).isSome := by
  cases opens : env.opensConfig called with
  | false =>
    rw [saveConfig_closed opens]
    exact readable
  | true =>
    have serialisable : called.config.Serialisable := safe.resolve_left (by simp [opens])
    have complete := (library.complete _).mpr serialisable
    rw [saveConfig_opened opens, if_pos complete]
    exact library.reads _ complete

/-! The calls of `saveConfig`. -/

theorem SavesIn.configFile (saves : SavesIn env msg bot called) : called.configFile = bot.configFile := by
  cases saves with
  | whitelist free _ _ _ =>
    obtain ⟨new, rfl, -⟩ := leads_parseFreeMessage_grows.ok free
    rfl
  | join _ _ | part _ _ => rfl

/-- What is stored after a message: what was before it, or what one call of `saveConfig` leaves. -/
def LeftBy (env : Environment) (msg : IRCMessage) (bot bot' : BotState) : Prop :=
  stored bot' = stored bot ∨
    ∃ called, SavesIn env msg bot called ∧ stored bot' = stored (final (saveConfig env called))

def Faulty (abort : Abort) : Prop := ∃ fault, abort = .fault fault

theorem leaves_called (saves : SavesIn env msg bot called) :
    Leaves Faulty (LeftBy env msg bot) (saveConfig env) called := by
  unfold Leaves
  cases ran : saveConfig env called with
  | ok _ after => exact .inr ⟨called, saves, by rw [ran]; rfl⟩
  | error abort after => exact .inr (.inr ⟨called, saves, by rw [ran]; rfl⟩)

theorem LeftBy.alike {after : BotState} (left : LeftBy env msg bot bot') (same : Alike stored bot' after) :
    LeftBy env msg bot after := by
  rcases left with kept | ⟨called, saves, written⟩
  · exact .inl (same.trans kept)
  · exact .inr ⟨called, saves, same.trans written⟩

theorem leaves_processMessage_stored :
    Leaves Faulty (LeftBy env msg bot) (processMessage env (commandContainers env) msg) bot :=
  leaves_processMessage_of (.inl rfl) (fun _ saves => leaves_called saves) (fun fault => ⟨fault, rfl⟩)
    fun left same => left.alike same

theorem processMessage_ownJoin {channel : Bytes} (joins : Joins bot.nick channel msg)
    (unknown : bot.channels.lookup channel = none) :
    processMessage env (commandContainers env) msg bot = saveConfig env
      { bot with channels := bot.channels.insert channel (IRCMessageBuffer.empty messageBufferSize) } := by
  obtain ⟨joins, own, named⟩ := joins
  have lifted : (lift (.ok channel) : BotM Bytes) bot = .ok channel bot := rfl
  rw [processMessage, joins, if_neg (by decide), if_neg (by decide), if_neg (by decide), get_bind, if_pos own,
    if_pos rfl, ownJoin, named, bind_ok lifted, get_bind, unknown]
  rfl

theorem processMessage_ownPart {channel : Bytes} {buffer : IRCMessageBuffer} (parts : Parts bot.nick channel msg)
    (known : bot.channels.lookup channel = some buffer) :
    processMessage env (commandContainers env) msg bot =
      saveConfig env { bot with channels := bot.channels.erase channel } := by
  obtain ⟨parts, own, named⟩ := parts
  have lifted : (lift (.ok channel) : BotM Bytes) bot = .ok channel bot := rfl
  rw [processMessage, parts, if_neg (by decide), if_neg (by decide), if_neg (by decide), get_bind, if_pos own,
    if_neg (by decide), if_pos rfl, ownPart, named, bind_ok lifted, get_bind, known]
  rfl

/-- Every such state is one in which the handler has called `saveConfig`. -/
theorem SavesIn.stored_eq (saves : SavesIn env msg bot called) :
    stored (final (processMessage env (commandContainers env) msg bot)) = stored (final (saveConfig env called)) := by
  cases saves with
  | @whitelist heard change user channel free asks applies named =>
    obtain ⟨privmsg, which, inputLine, calls, names⟩ := asked_eq_some.mp asks
    have kept : Preserves stored (bufferMessage msg) := fun _ => leads_bufferMessage_stored
    rw [← (heard_frame free).1] at calls
    rw [processMessage, if_pos privmsg, bind_ok free, view_final_bind fun _ => kept, runCommand_eq, calls]
    have ran : commandFunc env change.command msg inputLine heard =
        whitelistCommandFunc env change msg inputLine heard := by
      rcases which with rfl | rfl <;> rfl
    have sameUser : changedUser env heard msg inputLine change = some user := by
      obtain ⟨new, rfl, -⟩ := leads_parseFreeMessage_grows.ok free
      exact names
    dsimp only
    rw [ran]
    rcases whitelistCommandFunc_cases change with
      ⟨-, never⟩ | ⟨other, names', -, ⟨abort, -, noParams⟩ | ⟨channel', named', ran⟩⟩
    · rw [never user sameUser] at applies
      cases applies
    · rw [named] at noParams
      cases noParams
    · rw [ran]
      obtain rfl : user = other := Option.some.inj (sameUser.symm.trans names')
      obtain rfl : channel = channel' := Except.ok.inj (named.symm.trans named')
      rfl
  | join joins unknown => rw [processMessage_ownJoin joins unknown]
  | part parts known => rw [processMessage_ownPart parts known]

/-! Runs. -/

/-- A message is processed. Exceptions do not end the run. -/
def Processes (env : Environment) (bot : BotState) (msg : IRCMessage) (bot' : BotState) : Prop :=
  processed env (fun _ => true) bot msg = some bot'

/-- Every save in it is safe. -/
def Careful (env : Environment) (bot : BotState) (msg : IRCMessage) (bot' : BotState) : Prop :=
  Processes env bot msg bot' ∧ ∀ called, SavesIn env msg bot called → SafeToSave env called

theorem leftBy_of_processes (processes : Processes env bot msg bot') : LeftBy env msg bot bot' := by
  have left := @leaves_processMessage_stored env msg bot
  unfold Leaves at left
  unfold Processes processed at processes
  cases result : processMessage env (commandContainers env) msg bot with
  | ok _ after =>
    rw [result] at processes left
    cases processes
    exact left
  | error abort after =>
    rw [result] at processes left
    cases abort with
    | fault fault => cases processes
    | raise exception =>
      cases processes
      exact left.resolve_left fun ⟨_, wrong⟩ => nomatch wrong

theorem Careful.readable (careful : Careful env bot msg bot') (library : JsonLibrary decode env)
    (readable : (decode bot.configFile).isSome) : (decode bot'.configFile).isSome := by
  rcases leftBy_of_processes careful.1 with same | ⟨called, saves, same⟩
  · have file : bot'.configFile = bot.configFile := congrArg Prod.snd same
    rw [file]
    exact readable
  · have file : bot'.configFile = (final (saveConfig env called)).configFile := congrArg Prod.snd same
    rw [file]
    rw [← saves.configFile] at readable
    exact readable_of_safe library readable (careful.2 called saves)

/-- From a file that is read, and as long as every save is safe: the next one, be it in a handler or in the
destructor, keeps the file whenever it fails exactly if it is safe too. -/
theorem keepsFile_iff_safe (decode : Bytes → Option ConfigFile) (env : Environment)
    (library : JsonLibrary decode env) (opened : Option Bytes) (start bot : BotState)
    (began : loadConfig decode opened = some start)
    (reached : Reaches (Careful env) start bot) (called : BotState)
    (calls : called = bot ∨ ∃ msg, SavesIn env msg bot called) :
    KeepsFile decode env called ↔ SafeToSave env called := by
  apply keepsFile_iff library
  have file : called.configFile = bot.configFile := by
    rcases calls with rfl | ⟨msg, saves⟩
    · rfl
    · exact saves.configFile
  rw [file]
  apply reached.invariant
  · obtain ⟨held, read, -⟩ := (persisted_loaded began).decodes
    rw [read]
    rfl
  · exact fun readable careful => careful.readable library readable

/-! A JOIN of a channel like any other, and of one whose name is no UTF-8. -/

def cutText : Bytes := ascii "\x7b\"channels\":[\""

def fileEnvironment : Environment :=
  { bareEnvironment with
    dump := fun config =>
      if config.Serialisable then
        (if config.channels = {ascii "#a", ascii "#c"} then joinedText else homeText, true)
      else (cutText, false) }

theorem fileLibrary : JsonLibrary sampleDecode fileEnvironment where
  complete config := by
    simp only [fileEnvironment]
    split <;> simpa
  reads config complete := by
    simp only [fileEnvironment] at complete ⊢
    split
    · dsimp only
      split
      · rw [sampleDecode_joinedText]
        rfl
      · rw [sampleDecode_homeText]
        rfl
    · next cut => simp [cut] at complete
  refuses config cut := by
    simp only [fileEnvironment] at cut ⊢
    split
    · next whole => simp [whole] at cut
    · decide

/-- The save of the JOIN of `#c` goes well, and so would the next one. -/
theorem keepsFile_iff_safe_sample : ∃ bot, Reaches (Careful fileEnvironment) (loaded homeFile homeText) bot ∧
    bot.configFile = joinedText ∧ KeepsFile sampleDecode fileEnvironment bot := by
  have began : loadConfig sampleDecode (some homeText) = some (loaded homeFile homeText) := by
    simp [loadConfig, sampleDecode_homeText]
  obtain ⟨bot, ran, written, serialisable⟩ : ∃ bot,
      Processes fileEnvironment (loaded homeFile homeText) ownJoinMessage bot ∧
        bot.configFile = joinedText ∧ bot.config.Serialisable := by
    have outcome : (processed fileEnvironment (fun _ => true) (loaded homeFile homeText) ownJoinMessage).map
        (fun bot => (bot.configFile, decide bot.config.Serialisable)) = some (joinedText, true) := by decide
    obtain ⟨bot, ran, same⟩ := Option.map_eq_some_iff.mp outcome
    obtain ⟨written, serialisable⟩ := Prod.ext_iff.mp same
    exact ⟨bot, ran, written, of_decide_eq_true serialisable⟩
  have careful : Careful fileEnvironment (loaded homeFile homeText) ownJoinMessage bot := by
    refine ⟨ran, fun called saves => ?_⟩
    cases saves with
    | whitelist _ asks _ _ =>
      have other : ownJoinMessage.getCommand ≠ ascii "PRIVMSG" := by decide
      exact absurd (asked_eq_some.mp asks).1 other
    | join joins _ =>
      have named : ownJoinMessage.firstParam = .ok (ascii "#c") := by decide
      obtain rfl := Except.ok.inj (named.symm.trans joins.2.2)
      exact .inr (by decide)
    | part parts _ =>
      have other : ownJoinMessage.getCommand ≠ ascii "PART" := by decide
      exact absurd parts.1 other
  have reached : Reaches (Careful fileEnvironment) (loaded homeFile homeText) bot := .single ⟨_, careful⟩
  refine ⟨bot, reached, written, ?_⟩
  exact (keepsFile_iff_safe sampleDecode fileEnvironment fileLibrary (some homeText) _ bot began reached bot
    (.inl rfl)).mpr (.inr serialisable)

def strangeJoin : IRCMessage where
  time := 0
  data := ascii ":saiv!s@h JOIN #" ++ [0xFF]
  nickView := some ⟨1, 4⟩
  userView := some ⟨6, 1⟩
  hostView := some ⟨8, 2⟩
  commandView := some ⟨10, 4⟩
  paramsVec := [⟨15, 2⟩]

/-- The file is emptied, and cut off before the name. -/
theorem strange_channel_empties_file :
    ¬ ∀ (decode : Bytes → Option ConfigFile) (env : Environment), JsonLibrary decode env →
      ∀ (opened : Option Bytes) (start bot called : BotState), loadConfig decode opened = some start →
        Reaches (Processes env) start bot →
        (called = bot ∨ ∃ line msg, IRCMessage.ofLine (env.now bot) line = .ok msg ∧ SavesIn env msg bot called) →
        KeepsFile decode env called := by
  intro keeps
  have began : loadConfig sampleDecode (some homeText) = some (loaded homeFile homeText) := by
    simp [loadConfig, sampleDecode_homeText]
  have read : IRCMessage.ofLine 0 strangeJoin.data = .ok strangeJoin := by decide
  have joins : Joins (loaded homeFile homeText).nick [35, 0xFF] strangeJoin := by decide
  have unknown : (loaded homeFile homeText).channels.lookup [35, 0xFF] = none := by decide
  let called : BotState := { loaded homeFile homeText with
    channels := (loaded homeFile homeText).channels.insert [35, 0xFF] (.empty messageBufferSize) }
  have kept : KeepsFile sampleDecode fileEnvironment called :=
    keeps sampleDecode fileEnvironment fileLibrary _ _ _ _ began .refl
      (.inr ⟨_, strangeJoin, read, .join joins unknown⟩)
  have readable : (sampleDecode called.configFile).isSome := by
    have file : called.configFile = homeText := rfl
    rw [file, sampleDecode_homeText]
    rfl
  have unserialisable : ¬ called.config.Serialisable := by decide
  rcases (keepsFile_iff fileLibrary readable).mp kept with closed | serialisable
  · cases closed
  · exact unserialisable serialisable

end SaivBot
