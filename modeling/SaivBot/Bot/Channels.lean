import Mathlib.Data.List.DropRight
import SaivBot.Bot.Authority
import SaivBot.Bot.Harmless
import SaivBot.Bot.Loading
import SaivBot.Membership

/-! The channels the bot follows and the messages it keeps of each.

One message changes one channel, or none. The run lemma ties every buffer to the
messages since the bot has last entered its channel.
-/

set_option autoImplicit false

namespace SaivBot
open Program BotState Transition Membership

/-! What a message means to a channel. -/

/-- The bot's own command about the channel. -/
def Own (command nick channel : Bytes) (msg : IRCMessage) : Prop :=
  msg.getCommand = command ∧ caselessCompare msg.getNick nick = true ∧ msg.firstParam = .ok channel

def Joins : Bytes → Bytes → IRCMessage → Prop := Own (ascii "JOIN")
def Parts : Bytes → Bytes → IRCMessage → Prop := Own (ascii "PART")

/-- A PRIVMSG whose first parameter is the channel. -/
def Speaks (channel : Bytes) (msg : IRCMessage) : Prop :=
  msg.getCommand = ascii "PRIVMSG" ∧ msg.firstParam = .ok channel

instance (command nick channel : Bytes) (msg : IRCMessage) : Decidable (Own command nick channel msg) :=
  inferInstanceAs (Decidable (_ ∧ _ ∧ _))
instance (nick channel : Bytes) (msg : IRCMessage) : Decidable (Joins nick channel msg) :=
  inferInstanceAs (Decidable (Own _ _ _ _))
instance (nick channel : Bytes) (msg : IRCMessage) : Decidable (Parts nick channel msg) :=
  inferInstanceAs (Decidable (Own _ _ _ _))
instance (channel : Bytes) (msg : IRCMessage) : Decidable (Speaks channel msg) :=
  inferInstanceAs (Decidable (_ ∧ _))

/-- The channels are those of the file and those the bot has joined, as long as it has not parted from them.
The buffer of each holds the last of its messages since the bot is there, `kept` in this way. -/
structure Follows (kept : IRCMessage → MovedMessage) (file : ConfigFile) (history : List IRCMessage) (bot : BotState) :
    Prop where
  channels : ∀ channel, channel ∈ bot.channels ↔
    Inside (Joins file.nick channel) (Parts file.nick channel) (channel ∈ file.channels) history
  buffers : ∀ channel buffer, bot.channels.lookup channel = some buffer → ∃ before after,
    history = before ++ after ∧
      Since (Joins file.nick channel) (Parts file.nick channel) (channel ∈ file.channels) before after ∧
      buffer.capacity = messageBufferSize ∧
      buffer.queue = ((after.filter (Speaks channel)).rtake messageBufferSize).map kept

variable {env : Environment} {msg : IRCMessage} {bot bot' : BotState}

/-! One message. -/

/-- No command looks after the channels. -/
theorem absorbs_channels : AbsorbsCommand env msg bot (Alike BotState.channels) where
  posting _ _ _ := rfl
  configFile _ _ := rfl
  whitelist _ _ _ _ := rfl

theorem lookup_privmsg (privmsg : msg.getCommand = ascii "PRIVMSG")
    (ran : processMessage env (commandContainers env) msg bot = .ok () bot') (channel : Bytes) :
    bot'.channels.lookup channel =
      if Speaks channel msg then (bot.channels.lookup channel).map (·.push msg)
      else bot.channels.lookup channel := by
  rw [processMessage_privmsg privmsg] at ran
  obtain ⟨_, before, spoken, kept⟩ := bind_eq_ok.mp ran
  have same : before.channels = bot.channels := (leads_speech absorbs_channels privmsg).ok spoken
  obtain ⟨spokenIn, named, kept⟩ := lift_bind_eq_ok.mp kept
  rw [← same]
  have after : bot' = before.buffering spokenIn msg := by
    cases kept
    rfl
  have which : Speaks channel msg ↔ channel = spokenIn := by
    simp [Speaks, privmsg, named, eq_comm]
  simp only [after, which]
  by_cases here : channel = spokenIn
  · subst here
    cases known : before.channels.lookup channel with
    | none => simp [before.buffering_none known, known]
    | some buffer => simp [before.buffering_some known]
  · rw [if_neg here]
    cases known : before.channels.lookup spokenIn with
    | none => rw [before.buffering_none known]
    | some buffer =>
      rw [before.buffering_some known]
      exact AList.lookup_insert_ne here

theorem lookup_ownJoin {joined : Bytes} (named : msg.firstParam = .ok joined)
    (ran : ownJoin env msg bot = .ok () bot') (channel : Bytes) :
    bot'.channels.lookup channel =
      if channel = joined then some ((bot.channels.lookup channel).getD (.empty messageBufferSize))
      else bot.channels.lookup channel := by
  obtain ⟨_, same, ran⟩ := lift_bind_eq_ok.mp ran
  obtain rfl : joined = _ := Except.ok.inj (named.symm.trans same)
  rw [get_bind] at ran
  cases known : bot.channels.lookup joined with
  | some buffer =>
    -- A second JOIN keeps the buffer.
    rw [known] at ran
    cases ran
    split
    · next here => rw [here, known, Option.getD_some]
    · rfl
  | none =>
    rw [known] at ran
    dsimp only at ran
    rw [modify_bind] at ran
    have kept : Preserves BotState.channels (saveConfig env) := preserves_saveConfig env fun _ _ => rfl
    rw [kept.ok ran]
    dsimp only
    split
    · next here => rw [here, AList.lookup_insert, known, Option.getD_none]
    · next elsewhere => exact AList.lookup_insert_ne elsewhere

theorem lookup_ownPart {parted : Bytes} (named : msg.firstParam = .ok parted)
    (ran : ownPart env msg bot = .ok () bot') (channel : Bytes) :
    bot'.channels.lookup channel = if channel = parted then none else bot.channels.lookup channel := by
  obtain ⟨_, same, ran⟩ := lift_bind_eq_ok.mp ran
  obtain rfl : parted = _ := Except.ok.inj (named.symm.trans same)
  rw [get_bind] at ran
  cases known : bot.channels.lookup parted with
  | none =>
    rw [known] at ran
    cases ran
    split
    · next here => rw [here, known]
    · rfl
  | some buffer =>
    rw [known] at ran
    dsimp only at ran
    rw [modify_bind] at ran
    have kept : Preserves BotState.channels (saveConfig env) := preserves_saveConfig env fun _ _ => rfl
    rw [kept.ok ran]
    dsimp only
    split
    · next here => rw [here, AList.lookup_erase]
    · next elsewhere => exact AList.lookup_erase_ne elsewhere

/-- Anything that is no PRIVMSG changes the channels as the bot's own JOIN or PART. -/
theorem lookup_other (other : msg.getCommand ≠ ascii "PRIVMSG")
    (ran : processMessage env (commandContainers env) msg bot = .ok () bot') (channel : Bytes) :
    bot'.channels.lookup channel =
      if Joins bot.nick channel msg then some ((bot.channels.lookup channel).getD (.empty messageBufferSize))
      else if Parts bot.nick channel msg then none
      else bot.channels.lookup channel := by
  have join : ascii "JOIN" ≠ ascii "PING" ∧ ascii "JOIN" ≠ ascii "RECONNECT" := by decide
  have part : ascii "PART" ≠ ascii "PING" ∧ ascii "PART" ≠ ascii "RECONNECT" ∧ ascii "PART" ≠ ascii "JOIN" := by
    decide
  have neither (no : ¬ Joins bot.nick channel msg ∧ ¬ Parts bot.nick channel msg)
      (same : bot'.channels = bot.channels) : bot'.channels.lookup channel =
        if Joins bot.nick channel msg then some ((bot.channels.lookup channel).getD (.empty messageBufferSize))
        else if Parts bot.nick channel msg then none
        else bot.channels.lookup channel := by
    rw [if_neg no.1, if_neg no.2, same]
  rw [processMessage, if_neg other] at ran
  split at ran
  · next ping =>
    apply neither ⟨fun joins => join.1 (joins.1.symm.trans ping), fun parts => part.1 (parts.1.symm.trans ping)⟩
    cases ran
    rfl
  split at ran
  · next reconnect =>
    apply neither ⟨fun joins => join.2 (joins.1.symm.trans reconnect),
      fun parts => part.2.1 (parts.1.symm.trans reconnect)⟩
    cases ran
    rfl
  rw [get_bind] at ran
  split at ran
  · next own =>
    split at ran
    · next joins =>
      obtain ⟨joined, named, -⟩ := lift_bind_eq_ok.mp ran
      have noPart : ¬ Parts bot.nick channel msg := fun parts => part.2.2 (parts.1.symm.trans joins)
      have which : Joins bot.nick channel msg ↔ channel = joined := by
        simp [Joins, Own, joins, own, named, eq_comm]
      simp only [lookup_ownJoin named ran, which, noPart, ↓reduceIte]
    · next noJoin =>
      have noJoins : ¬ Joins bot.nick channel msg := fun joins => noJoin joins.1
      split at ran
      · next parts =>
        obtain ⟨parted, named, -⟩ := lift_bind_eq_ok.mp ran
        have which : Parts bot.nick channel msg ↔ channel = parted := by
          simp [Parts, Own, parts, own, named, eq_comm]
        simp only [lookup_ownPart named ran, which, noJoins, ↓reduceIte]
      · next noPart =>
        cases ran
        exact neither ⟨noJoins, fun parts => noPart parts.1⟩ rfl
  · next foreign =>
    cases ran
    exact neither ⟨fun joins => foreign joins.2.1, fun parts => foreign parts.2.1⟩ rfl

/-- What a message does to one channel. -/
theorem lookup_processMessage (ran : processMessage env (commandContainers env) msg bot = .ok () bot')
    (channel : Bytes) :
    bot'.channels.lookup channel =
      if Joins bot.nick channel msg then some ((bot.channels.lookup channel).getD (.empty messageBufferSize))
      else if Parts bot.nick channel msg then none
      else if Speaks channel msg then (bot.channels.lookup channel).map (·.push msg)
      else bot.channels.lookup channel := by
  by_cases privmsg : msg.getCommand = ascii "PRIVMSG"
  · have noJoin : ¬ Joins bot.nick channel msg := fun joins => by
      have wrong := joins.1.symm.trans privmsg
      revert wrong
      decide
    have noPart : ¬ Parts bot.nick channel msg := fun parts => by
      have wrong := parts.1.symm.trans privmsg
      revert wrong
      decide
    rw [if_neg noJoin, if_neg noPart, lookup_privmsg privmsg ran]
  · have silent : ¬ Speaks channel msg := fun speaks => privmsg speaks.1
    rw [if_neg silent, lookup_other privmsg ran]

/-! Runs of messages. -/

theorem map_rtake {α β : Type} (f : α → β) (l : List α) (n : Nat) : (l.rtake n).map f = (l.map f).rtake n := by
  simp [List.rtake]

theorem rtake_append_singleton {α : Type} (l : List α) (a : α) (n : Nat) :
    (l.rtake n ++ [a]).rtake n = (l ++ [a]).rtake n := by
  cases n with
  | zero => simp
  | succ n =>
    rw [List.rtake_concat_succ, List.rtake_concat_succ]
    congr 1
    simp only [List.rtake, List.length_drop, List.drop_drop]
    congr 1
    omega

theorem IRCMessageBuffer.queue_push (buffer : IRCMessageBuffer) :
    (buffer.push msg).queue = (buffer.queue ++ [msg.move]).rtake buffer.capacity := by
  have bounded := buffer.bounded
  simp only [IRCMessageBuffer.push, List.rtake, List.length_append, List.length_singleton]
  split
  · have one : buffer.queue.length + 1 - buffer.capacity = 1 := by omega
    rw [one]
  · have nothing : buffer.queue.length + 1 - buffer.capacity = 0 := by omega
    rw [nothing, List.drop_zero]

theorem follows_loaded (file : ConfigFile) (text : Bytes) : Follows IRCMessage.move file [] (loaded file text) where
  channels channel := by
    rw [inside_nil, ← AList.lookup_isSome, lookup_loaded]
    split <;> simpa
  buffers channel buffer known := by
    rw [lookup_loaded] at known
    split at known
    · next there =>
      cases known
      exact ⟨[], [], rfl, since_nil there, rfl, by simp [IRCMessageBuffer.empty]⟩
    · cases known

/-- One message more. The cases are what it means to the channel. -/
theorem Follows.step {file : ConfigFile} {history : List IRCMessage} (follows : Follows IRCMessage.move file history bot)
    (nick : bot.nick = file.nick) (ran : processMessage env (commandContainers env) msg bot = .ok () bot') :
    Follows IRCMessage.move file (history ++ [msg]) bot' := by
  have lookup := lookup_processMessage ran
  rw [nick] at lookup
  have parts_joins {channel : Bytes} (parts : Parts file.nick channel msg) : ¬ Joins file.nick channel msg := by
    intro joins
    have wrong := joins.1.symm.trans parts.1
    revert wrong
    decide
  have speaks_joins {channel : Bytes} (joins : Joins file.nick channel msg) : ¬ Speaks channel msg := by
    intro speaks
    have wrong := joins.1.symm.trans speaks.1
    revert wrong
    decide
  constructor
  · intro channel
    rw [inside_append, ← follows.channels channel, ← AList.lookup_isSome, ← AList.lookup_isSome, lookup]
    by_cases joins : Joins file.nick channel msg
    · simp [joins]
    by_cases parts : Parts file.nick channel msg
    · simp [joins, parts]
    by_cases speaks : Speaks channel msg
    · simp [joins, parts, speaks]
    · simp [joins, parts, speaks]
  · intro channel buffer known
    rw [lookup] at known
    -- A channel that is there already goes on with what it had.
    have goesOn {old : IRCMessageBuffer} (there : bot.channels.lookup channel = some old)
        (stays : ¬ Parts file.nick channel msg) (capacity : buffer.capacity = old.capacity)
        (queue : buffer.queue = if Speaks channel msg then (old.queue ++ [msg.move]).rtake old.capacity else old.queue) :
        ∃ before after, history ++ [msg] = before ++ after ∧
          Since (Joins file.nick channel) (Parts file.nick channel) (channel ∈ file.channels) before after ∧
          buffer.capacity = messageBufferSize ∧
          buffer.queue = ((after.filter (Speaks channel)).rtake messageBufferSize).map IRCMessage.move := by
      obtain ⟨before, after, rfl, since, size, kept⟩ := follows.buffers channel old there
      refine ⟨before, after ++ [msg], by simp, since.append stays, capacity.trans size, ?_⟩
      rw [queue, size, kept, List.filter_append]
      by_cases speaks : Speaks channel msg
      · simp [speaks, map_rtake, rtake_append_singleton]
      · simp [speaks]
    by_cases joins : Joins file.nick channel msg
    · have stays : ¬ Parts file.nick channel msg := fun parts => parts_joins parts joins
      rw [if_pos joins, Option.some.injEq] at known
      cases there : bot.channels.lookup channel with
      | some old =>
        rw [there, Option.getD_some] at known
        subst known
        exact goesOn there stays rfl (by rw [if_neg (speaks_joins joins)])
      | none =>
        rw [there, Option.getD_none] at known
        subst known
        have outside : channel ∉ bot.channels := AList.lookup_eq_none.mp there
        rw [follows.channels] at outside
        exact ⟨history ++ [msg], [], by simp, since_entered outside joins, rfl, by simp [IRCMessageBuffer.empty]⟩
    rw [if_neg joins] at known
    by_cases parts : Parts file.nick channel msg
    · rw [if_pos parts] at known
      cases known
    rw [if_neg parts] at known
    by_cases speaks : Speaks channel msg
    · rw [if_pos speaks, Option.map_eq_some_iff] at known
      obtain ⟨old, there, rfl⟩ := known
      exact goesOn there parts rfl (by rw [if_pos speaks, IRCMessageBuffer.queue_push])
    · rw [if_neg speaks] at known
      exact goesOn known parts rfl (by rw [if_neg speaks])

theorem follows_run {env : Environment} {file : ConfigFile} {text : Bytes} {history : List IRCMessage}
    {bot : BotState} (ran : run (processed env fun _ => false) (loaded file text) history = some bot) :
    Follows IRCMessage.move file history bot := by
  have kept : Follows IRCMessage.move file history bot ∧ identity bot = identity (loaded file text) := by
    refine @run_invariant _ _ _ _
      (fun history bot => Follows IRCMessage.move file history bot ∧ identity bot = identity _) ?_ ?_ _ _ ran
    · exact ⟨follows_loaded file text, rfl⟩
    · intro history bot msg bot' ⟨follows, same⟩ step
      have nick : bot.nick = file.nick := congrArg (fun identity => identity.2.2.1) same
      exact ⟨follows.step nick (ok_of_processed step), (identity_processed step).trans same⟩
  exact kept.1

/-! The messages that are kept whole. -/

/-- A message that the buffer of a channel is to hold: one of the last since the bot has entered the channel. -/
def Retained (file : ConfigFile) (history : List IRCMessage) (channel : Bytes) (msg : IRCMessage) : Prop :=
  ∃ before after, history = before ++ after ∧
    Since (Joins file.nick channel) (Parts file.nick channel) (channel ∈ file.channels) before after ∧
    msg ∈ (after.filter (Speaks channel)).rtake messageBufferSize

/-- A line of a channel shows at least its command. -/
theorem Speaks.survives_iff {channel : Bytes} (speaks : Speaks channel msg) :
    msg.Survives ↔ smallStringCapacity < msg.data.length := by
  have command : msg.fieldText msg.commandView = ascii "PRIVMSG" := speaks.1
  have letters : ascii "PRIVMSG" ≠ [] := by decide
  cases set : msg.commandView with
  | none =>
    rw [set] at command
    exact absurd command.symm letters
  | some view =>
    rw [set] at command
    have there : view ∈ msg.views := by simp [IRCMessage.views, set]
    refine IRCMessage.survives_iff_long there fun empty => ?_
    apply letters
    rw [← command]
    simp [IRCMessage.fieldText, StringView.View.text, empty]

/-- The buffers hold the messages themselves exactly where none of those is short. -/
theorem Follows.whole_iff {file : ConfigFile} {history : List IRCMessage}
    (follows : Follows IRCMessage.move file history bot) :
    Follows .whole file history bot ↔
      ∀ channel msg, Retained file history channel msg → smallStringCapacity < msg.data.length := by
  -- There is one buffer for a channel, and one beginning.
  have queue {channel : Bytes} {buffer : IRCMessageBuffer} {before after : List IRCMessage}
      {kept : IRCMessage → MovedMessage} (follows : Follows kept file history bot)
      (known : bot.channels.lookup channel = some buffer) (split : history = before ++ after)
      (since : Since (Joins file.nick channel) (Parts file.nick channel) (channel ∈ file.channels) before after) :
      buffer.queue = ((after.filter (Speaks channel)).rtake messageBufferSize).map kept := by
    obtain ⟨before', after', same, since', -, held⟩ := follows.buffers channel buffer known
    obtain ⟨-, rfl⟩ := since.unique since' (split.symm.trans same)
    exact held
  have speaks {channel : Bytes} {after : List IRCMessage} {msg : IRCMessage}
      (member : msg ∈ (after.filter (Speaks channel)).rtake messageBufferSize) : Speaks channel msg := by
    simpa using (List.mem_filter.mp (List.mem_of_mem_drop member)).2
  constructor
  · rintro whole channel msg ⟨before, after, split, since, member⟩
    have inside : channel ∈ bot.channels := (follows.channels channel).mpr (split ▸ since.inside)
    obtain ⟨buffer, known⟩ := Option.isSome_iff_exists.mp (AList.lookup_isSome.mpr inside)
    have same := (queue follows known split since).symm.trans (queue whole known split since)
    exact (speaks member).survives_iff.mp (map_move_eq_iff.mp same msg member)
  · intro long
    refine ⟨follows.channels, fun channel buffer known => ?_⟩
    obtain ⟨before, after, split, since, size, held⟩ := follows.buffers channel buffer known
    refine ⟨before, after, split, since, size, held.trans (map_move_eq_iff.mpr fun msg member => ?_)⟩
    exact (speaks member).survives_iff.mpr (long channel msg ⟨before, after, split, since, member⟩)

/-- In every run of lines that are processed to the end: the channels are the ones the bot follows, and their buffers
hold the last messages, exactly as long as no message that is to be held lies in a string that moves with its text. -/
theorem follows_run_iff {env : Environment} {file : ConfigFile} {text : Bytes} {history : List IRCMessage}
    (harmless : Along (processed env fun _ => false) (fun bot msg => Harmless env msg bot) (loaded file text) history) :
    ∃ bot, run (processed env fun _ => false) (loaded file text) history = some bot ∧
      (Follows .whole file history bot ↔
        ∀ channel msg, Retained file history channel msg → smallStringCapacity < msg.data.length) := by
  have happens {bot : BotState} {msg : IRCMessage} (harmless : Harmless env msg bot) :
      ∃ bot', processed env (fun _ => false) bot msg = some bot' := by
    obtain ⟨_, bot', ran⟩ := (returns_processMessage_iff env bot msg).mpr harmless
    exact ⟨bot', by rw [processed, ran]⟩
  obtain ⟨bot, ran⟩ := harmless.runs happens
  exact ⟨bot, ran, (follows_run ran).whole_iff⟩

/-! A JOIN of the bot, and a message in the channel. -/

def homeFile : ConfigFile where
  host := []
  port := []
  nick := ascii "saiv"
  password := []
  modlist := []
  whitelist := []
  channels := [ascii "#a"]

def ownJoinMessage : IRCMessage where
  time := 0
  data := ascii ":saiv!s@h JOIN #c"
  nickView := some ⟨1, 4⟩
  userView := some ⟨6, 1⟩
  hostView := some ⟨8, 1⟩
  commandView := some ⟨10, 4⟩
  paramsVec := [⟨15, 2⟩]

theorem follows_run_iff_sample : ∃ bot,
    run (processed bareEnvironment fun _ => false) (loaded homeFile []) [ownJoinMessage, evilMessage] = some bot ∧
      Follows .whole homeFile [ownJoinMessage, evilMessage] bot := by
  have harmless : Along (processed bareEnvironment fun _ => false) (fun bot msg => Harmless bareEnvironment msg bot)
      (loaded homeFile []) [ownJoinMessage, evilMessage] := by
    refine ⟨(returns_processMessage_iff _ _ _).mp ⟨(), _, rfl⟩, fun bot joined => ⟨?_, fun _ _ => trivial⟩⟩
    cases joined
    exact (returns_processMessage_iff _ _ _).mp ⟨(), _, rfl⟩
  obtain ⟨bot, ran, whole⟩ := follows_run_iff harmless
  refine ⟨bot, ran, whole.mpr ?_⟩
  rintro channel msg ⟨before, after, split, -, member⟩
  have there : msg ∈ [ownJoinMessage, evilMessage] := by
    rw [split]
    exact List.mem_append_right before (List.mem_filter.mp (List.mem_of_mem_drop member)).1
  rcases List.mem_pair.mp there with rfl | rfl <;> decide

def hiMessage : IRCMessage where
  time := 0
  data := ascii "PRIVMSG #a :hi"
  commandView := some ⟨0, 7⟩
  paramsVec := [⟨8, 2⟩]
  bodyView := some ⟨12, 2⟩

/-- Fourteen bytes. -/
theorem short_line_dangles : ¬ ∀ (env : Environment) (file : ConfigFile) (text : Bytes) (history : List IRCMessage)
    (bot : BotState), (∀ msg ∈ history, IRCMessage.ofLine msg.time msg.data = .ok msg) →
      Along (processed env fun _ => false) (fun bot msg => Harmless env msg bot) (loaded file text) history →
      run (processed env fun _ => false) (loaded file text) history = some bot → Follows .whole file history bot := by
  intro all
  have read : IRCMessage.ofLine hiMessage.time hiMessage.data = .ok hiMessage := by decide
  have harmless : Along (processed bareEnvironment fun _ => false) (fun bot msg => Harmless bareEnvironment msg bot)
      (loaded homeFile []) [hiMessage] :=
    ⟨(returns_processMessage_iff _ _ _).mp ⟨(), _, rfl⟩, fun _ _ => trivial⟩
  obtain ⟨bot, ran⟩ : ∃ bot, run (processed bareEnvironment fun _ => false) (loaded homeFile []) [hiMessage] = some bot :=
    Option.isSome_iff_exists.mp (by decide)
  have whole := all bareEnvironment homeFile [] [hiMessage] bot (by simpa using read) harmless ran
  have kept : Retained homeFile [hiMessage] (ascii "#a") hiMessage := by
    refine ⟨[], [hiMessage], rfl, ⟨.inl ⟨rfl, by decide⟩, ?_⟩, by decide⟩
    decide
  have long : smallStringCapacity < hiMessage.data.length := (follows_run ran).whole_iff.mp whole _ _ kept
  revert long
  decide

end SaivBot
