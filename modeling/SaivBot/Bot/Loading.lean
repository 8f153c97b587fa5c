import SaivBot.Bot.Frame
import SaivBot.Transition

/-! What the bot reads from its configuration file, and runs of messages after that. -/

set_option autoImplicit false

namespace SaivBot
open Program BotState Transition

/-- The members of the file as they are read. A list may name an entry twice. -/
structure ConfigFile where
  host : Bytes
  port : Bytes
  nick : Bytes
  password : Bytes
  modlist : List Bytes
  whitelist : List Bytes
  channels : List Bytes

def ConfigFile.config (file : ConfigFile) : Config where
  host := file.host
  port := file.port
  nick := file.nick
  password := file.password
  modlist := file.modlist.toFinset
  whitelist := file.whitelist.toFinset
  channels := file.channels.toFinset

namespace BotState

/-- `try_emplace`: a channel that is there keeps its buffer. -/
def tryEmplace (channels : AList fun _ : Bytes => IRCMessageBuffer) (channel : Bytes) :
    AList fun _ : Bytes => IRCMessageBuffer :=
  if channel ∈ channels then channels else channels.insert channel (IRCMessageBuffer.empty messageBufferSize)

/-- The bot whose constructor has read this file. -/
def loaded (file : ConfigFile) (text : Bytes) : BotState where
  host := file.host
  port := file.port
  nick := file.nick
  password := file.password
  modlist := file.modlist.toFinset
  whitelist := file.whitelist.toFinset
  channels := file.channels.foldl tryEmplace ∅
  timeStarted := 0
  buffer := []
  msgPreBuffer := []
  suspendRead := true
  pendingReads := 0
  posted := []
  configFile := text

/-- `loadConfig` throws where there is no file, where it does not open, and where it is not read as JSON with
these members. -/
def loadConfig (decode : Bytes → Option ConfigFile) (opened : Option Bytes) : Option BotState := do
  let text ← opened
  let file ← decode text
  return loaded file text

theorem lookup_tryEmplace (channels : AList fun _ : Bytes => IRCMessageBuffer) (channel other : Bytes) :
    (tryEmplace channels channel).lookup other =
      if other = channel then some ((channels.lookup other).getD (.empty messageBufferSize))
      else channels.lookup other := by
  unfold tryEmplace
  by_cases same : other = channel
  · subst same
    rw [if_pos rfl]
    split
    · next known =>
      obtain ⟨buffer, found⟩ := Option.isSome_iff_exists.mp (AList.lookup_isSome.mpr known)
      rw [found, Option.getD_some]
    · next unknown => rw [AList.lookup_insert, AList.lookup_eq_none.mpr unknown, Option.getD_none]
  · rw [if_neg same]
    split
    · rfl
    · exact AList.lookup_insert_ne same

/-- The channels of the file, with empty buffers. -/
theorem lookup_loaded (file : ConfigFile) (text channel : Bytes) :
    (loaded file text).channels.lookup channel =
      if channel ∈ file.channels then some (.empty messageBufferSize) else none := by
  have folded (channels : AList fun _ : Bytes => IRCMessageBuffer) :
      (file.channels.foldl tryEmplace channels).lookup channel =
        if channel ∈ file.channels then some ((channels.lookup channel).getD (.empty messageBufferSize))
        else channels.lookup channel := by
    induction file.channels generalizing channels with
    | nil => simp
    | cons first rest ih =>
      rw [List.foldl_cons, ih, lookup_tryEmplace]
      by_cases same : channel = first <;> simp [same]
  exact folded ∅

theorem config_loaded (file : ConfigFile) (text : Bytes) : (loaded file text).config = file.config := by
  have channels : (loaded file text).channels.keys.toFinset = file.channels.toFinset := by
    ext channel
    rw [List.mem_toFinset, List.mem_toFinset, ← AList.mem_keys, ← AList.lookup_isSome, lookup_loaded]
    split <;> simpa
  simp only [config, channels]
  rfl

end BotState

/-! Messages one after the other. A fault ends the run. -/

/-- The message is processed, with no exception or one of those that are tolerated. -/
def processed (env : Environment) (tolerated : Exception → Bool) (bot : BotState) (msg : IRCMessage) :
    Option BotState :=
  match processMessage env (commandContainers env) msg bot with
  | .ok () bot' => some bot'
  | .error (.raise exception) bot' => if tolerated exception then some bot' else none
  | .error (.fault _) _ => none

variable {env : Environment} {tolerated : Exception → Bool} {bot bot' : BotState} {msg : IRCMessage}

theorem final_of_processed (ran : processed env tolerated bot msg = some bot') :
    bot' = final (processMessage env (commandContainers env) msg bot) := by
  unfold processed at ran
  split at ran
  · next same =>
    cases ran
    rw [same]
    rfl
  · next same =>
    split at ran
    · cases ran
      rw [same]
      rfl
    · cases ran
  · cases ran

/-- Where no exception is tolerated, every handler has returned. -/
theorem ok_of_processed (ran : processed env (fun _ => false) bot msg = some bot') :
    processMessage env (commandContainers env) msg bot = .ok () bot' := by
  unfold processed at ran
  split at ran
  · next same =>
    cases ran
    exact same
  · cases ran
  · cases ran

/-- What no message ever changes. -/
def identity (bot : BotState) : Bytes × Bytes × Bytes × Bytes × Finset Bytes :=
  (bot.host, bot.port, bot.nick, bot.password, bot.modlist)

theorem unaware_identity : Unaware identity where
  posting _ _ _ := rfl
  whitelist _ _ := rfl
  configFile _ _ := rfl
  channels _ _ := rfl

theorem identity_processed (ran : processed env tolerated bot msg = some bot') : identity bot' = identity bot := by
  rw [final_of_processed ran]
  apply preserves_processMessage unaware_identity
  exact fun _ => preserves_bind (preserves_modify fun _ => rfl) fun _ => preserves_modify fun _ => rfl

end SaivBot
