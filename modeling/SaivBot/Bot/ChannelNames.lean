import SaivBot.Bot.Saving

/-! The name that a channel word stands for.

`join`, `part` and `say -channel` each make a name of the word they are given. The
channels change with the server's echo of the name that was sent.
-/

set_option autoImplicit false

namespace SaivBot
open Program BotState Transition

/-- The name `joinCommandFunc` makes. -/
def joinName (word : Bytes) : Bytes := toLowerCaseString (ascii "#" ++ word)

/-- What `sayCommandFunc` reads from its input. -/
def sayOptions (env : Environment) (input : Bytes) : OptionSet :=
  env.optionParser.parse
    [⟨Commands.sayCommand.text.command, [.string]⟩, ⟨ascii "-channel", [.word]⟩, ⟨ascii "-echo", [.number]⟩] input

/-- A moderator's three inputs, in which the parser reads the same channel word. -/
structure Typed (env : Environment) (bot : BotState) (msg : IRCMessage) (word joinInput partInput sayInput : Bytes) :
    Prop where
  moderator : bot.isModerator msg.getNick = true
  inChannel : ∃ channel, msg.firstParam = .ok channel
  join : (env.optionParser.parse [⟨Commands.joinCommand.text.command, [.word]⟩] joinInput).text 0 = some word
  part : (env.optionParser.parse [⟨Commands.partCommand.text.command, [.word]⟩] partInput).text 0 = some word
  say : ∃ str, (sayOptions env sayInput).text 0 = some str
  channel : (sayOptions env sayInput).text 1 = some word
  echo : (sayOptions env sayInput).number 2 ≠ some 0

/-! What a command addresses: the name in the lines that it posts. -/

def JoinsFor (env : Environment) (bot : BotState) (msg : IRCMessage) (input name : Bytes) : Prop :=
  joinCommandFunc env msg input bot =
    .ok () ((bot.posting (.sendIRC (joinLine name))).posting (.sendIRC (privmsg name (ascii "monkaMEGA"))))

def PartsFor (env : Environment) (bot : BotState) (msg : IRCMessage) (input name : Bytes) : Prop :=
  partCommandFunc env msg input bot = .ok () (bot.posting (.sendIRC (partLine name)))

def SaysIn (env : Environment) (bot : BotState) (msg : IRCMessage) (input name : Bytes) : Prop :=
  ∃ str count bot', sayCommandFunc env msg input bot = .ok () bot' ∧
    bot'.posted = bot.posted ++ List.replicate count (.sendIRC (privmsg name str))

/-- `join`, the server's echo, `part` and its echo. -/
def joinAndPart (env : Environment) (msg : IRCMessage) (joinInput partInput : Bytes) (joinEcho partEcho : IRCMessage) :
    BotM Unit := do
  joinCommandFunc env msg joinInput
  processMessage env (commandContainers env) joinEcho
  partCommandFunc env msg partInput
  processMessage env (commandContainers env) partEcho

/-- The channels and the list that is saved are what they were. -/
def Restored (env : Environment) (bot bot' : BotState) : Prop :=
  (∀ channel, bot'.channels.lookup channel = bot.channels.lookup channel) ∧
    bot'.configFile = (env.dump bot.config).1

variable {env : Environment} {bot bot' : BotState} {msg joinEcho partEcho : IRCMessage}
  {word joinInput partInput sayInput : Bytes}

/-! The two names. -/

theorem joinName_eq (word : Bytes) : joinName word = Byte.hash :: toLowerCaseString word := rfl

theorem formatIRCChannelName_joinName (word : Bytes) : formatIRCChannelName (joinName word) = joinName word :=
  toLowerCaseString_idem _

theorem joinName_eq_iff (word : Bytes) :
    joinName word = formatIRCChannelName word ↔ word.head? ≠ some Byte.hash := by
  cases word with
  | nil => exact iff_of_true rfl nofun
  | cons c rest =>
    simp only [formatIRCChannelName, joinName_eq, List.head?_cons, ne_eq, Option.some.injEq]
    split
    · next hash =>
      refine iff_of_false (fun same => ?_) (not_not_intro hash)
      -- The name of `join` is one byte longer.
      have length := congrArg List.length same
      simp [toLowerCaseString] at length
    · next plain => exact iff_of_true rfl plain

theorem Typed.joinsFor (typed : Typed env bot msg word joinInput partInput sayInput) :
    JoinsFor env bot msg joinInput (joinName word) := by
  simp only [JoinsFor, joinCommandFunc, get_bind, typed.moderator, ↓reduceIte, typed.join]
  rfl

theorem Typed.partsFor (typed : Typed env bot msg word joinInput partInput sayInput) :
    PartsFor env bot msg partInput (formatIRCChannelName word) := by
  simp only [PartsFor, partCommandFunc, get_bind, typed.moderator, ↓reduceIte, typed.part]
  rfl

/-- A command addresses one name. -/
theorem JoinsFor.unique {name other : Bytes} (first : JoinsFor env bot msg joinInput name)
    (second : JoinsFor env bot msg joinInput other) : name = other := by
  have same := first.symm.trans second
  simp only [EStateM.Result.ok.injEq, true_and] at same
  have posted := congrArg BotState.posted same
  have parts : name = other ∧ privmsg name (ascii "monkaMEGA") = privmsg other (ascii "monkaMEGA") := by
    simpa [posting, joinLine] using posted
  exact parts.1

theorem PartsFor.unique {name other : Bytes} (first : PartsFor env bot msg partInput name)
    (second : PartsFor env bot msg partInput other) : name = other := by
  have same := first.symm.trans second
  simp only [EStateM.Result.ok.injEq, true_and] at same
  have posted := congrArg BotState.posted same
  simpa [posting, partLine] using posted

/-- The view of the name is read after the name is gone. -/
theorem Typed.say_dangles (typed : Typed env bot msg word joinInput partInput sayInput) :
    sayCommandFunc env msg sayInput bot = .error (.fault .danglingView) bot := by
  obtain ⟨channel, named⟩ := typed.inChannel
  obtain ⟨str, said⟩ := typed.say
  have channel_eq := typed.channel
  have lifted : (lift (.ok channel) : BotM Bytes) bot = .ok channel bot := rfl
  have dangles (count : Nat) (turns : count ≠ 0) :
      ((List.range count).forM fun _ => (throw (.fault .danglingView) : BotM Unit)) bot =
        .error (.fault .danglingView) bot := by
    cases listed : List.range count with
    | nil => exact absurd (List.range_eq_nil.mp listed) turns
    | cons first others => rfl
  -- The loop turns at least once: `-echo` is not 0.
  obtain ⟨count, turns, ran⟩ : ∃ count, count ≠ 0 ∧ sayCommandFunc env msg sayInput bot =
      ((List.range count).forM fun _ => (throw (.fault .danglingView) : BotM Unit)) bot := by
    simp only [sayOptions] at said channel_eq
    simp only [sayCommandFunc, get_bind, typed.moderator, ↓reduceIte, said, named, bind_ok lifted, channel_eq]
    refine ⟨_, ?_, rfl⟩
    split
    · next count echo =>
      split
      · decide
      · exact fun zero => typed.echo (zero ▸ echo)
    · exact Nat.one_ne_zero
  rw [ran]
  exact dangles count turns

/-! The channel in between. -/

/-- The bot with these channels; what it has posted and saved may differ. -/
structure Holding (channels : AList fun _ : Bytes => IRCMessageBuffer) (bot s : BotState) : Prop where
  nick : s.nick = bot.nick
  channels : s.channels = channels
  moderators : s.modlist = bot.modlist
  config : ∀ channels, BotState.config { s with channels } = BotState.config { bot with channels }

/-- The state in which the echo of `part` is read: the channel has been put in. -/
theorem holding_of_ran (typed : Typed env bot msg word joinInput partInput sayInput)
    (absent : joinName word ∉ bot.channels) (echoesJoin : Joins bot.nick (joinName word) joinEcho)
    (ran : joinAndPart env msg joinInput partInput joinEcho partEcho bot = .ok () bot') :
    ∃ leaving, processMessage env (commandContainers env) partEcho leaving = .ok () bot' ∧
      Holding (bot.channels.insert (joinName word) (.empty messageBufferSize)) bot leaving := by
  obtain ⟨_, asked, joins, ran⟩ := bind_eq_ok.mp ran
  obtain ⟨_, joined, echoed, ran⟩ := bind_eq_ok.mp ran
  obtain ⟨_, leaving, parts, ran⟩ := bind_eq_ok.mp ran
  have holdsAsked : Holding bot.channels bot asked := by
    have posted := typed.joinsFor
    rw [JoinsFor, joins] at posted
    cases posted
    exact ⟨rfl, rfl, rfl, fun _ => rfl⟩
  have holdsJoined : Holding (bot.channels.insert (joinName word) (.empty messageBufferSize)) bot joined := by
    have unknown : asked.channels.lookup (joinName word) = none := by
      rw [holdsAsked.channels, AList.lookup_eq_none]
      exact absent
    rw [processMessage_ownJoin (holdsAsked.nick ▸ echoesJoin) unknown] at echoed
    have inserted : asked.channels.insert (joinName word) (.empty messageBufferSize) =
        bot.channels.insert (joinName word) (.empty messageBufferSize) := by rw [holdsAsked.channels]
    rw [saveConfig_ok echoed]
    exact ⟨holdsAsked.nick, inserted, holdsAsked.moderators, holdsAsked.config⟩
  have there : Typed env joined msg word joinInput partInput sayInput :=
    { typed with moderator := by rw [isModerator, holdsJoined.moderators]; exact typed.moderator }
  have posted := there.partsFor
  rw [PartsFor, parts] at posted
  cases posted
  exact ⟨_, ran, holdsJoined.nick, holdsJoined.channels, holdsJoined.moderators, holdsJoined.config⟩

/-- Twice the same name: the channel is put in and taken out again. -/
theorem restored_of_same (typed : Typed env bot msg word joinInput partInput sayInput)
    (absent : joinName word ∉ bot.channels) (echoesJoin : Joins bot.nick (joinName word) joinEcho)
    (echoesPart : Parts bot.nick (joinName word) partEcho)
    (ran : joinAndPart env msg joinInput partInput joinEcho partEcho bot = .ok () bot') : Restored env bot bot' := by
  obtain ⟨leaving, left, nick, channels, -, config⟩ := holding_of_ran typed absent echoesJoin ran
  have known : leaving.channels.lookup (joinName word) = some (.empty messageBufferSize) := by
    rw [channels, AList.lookup_insert]
  rw [processMessage_ownPart (nick ▸ echoesPart) known] at left
  obtain rfl := saveConfig_ok left
  have kept : ∀ channel, (leaving.channels.erase (joinName word)).lookup channel = bot.channels.lookup channel := by
    intro channel
    by_cases here : channel = joinName word
    · rw [here, AList.lookup_erase, AList.lookup_eq_none.mpr absent]
    · rw [AList.lookup_erase_ne here, channels, AList.lookup_insert_ne here]
  refine ⟨kept, ?_⟩
  have same : ∀ channel, channel ∈ leaving.channels.erase (joinName word) ↔ channel ∈ bot.channels := by
    intro channel
    rw [← AList.lookup_isSome, ← AList.lookup_isSome, kept]
  rw [config, config_channels same]

/-- Two names: the second one is not there, and the first one stays. -/
theorem not_restored_of_different (typed : Typed env bot msg word joinInput partInput sayInput)
    (absent : joinName word ∉ bot.channels) (echoesJoin : Joins bot.nick (joinName word) joinEcho)
    (echoesPart : Parts bot.nick (formatIRCChannelName word) partEcho)
    (different : joinName word ≠ formatIRCChannelName word)
    (ran : joinAndPart env msg joinInput partInput joinEcho partEcho bot = .ok () bot') : ¬ Restored env bot bot' := by
  obtain ⟨leaving, left, nick, channels, -, -⟩ := holding_of_ran typed absent echoesJoin ran
  intro restored
  have stays : bot'.channels.lookup (joinName word) = leaving.channels.lookup (joinName word) := by
    have joins : ¬ Joins leaving.nick (joinName word) partEcho := fun joins =>
      absurd (joins.1.symm.trans echoesPart.1) (by decide)
    have parts : ¬ Parts leaving.nick (joinName word) partEcho := fun parts =>
      different (Except.ok.inj (parts.2.2.symm.trans echoesPart.2.2))
    have speaks : ¬ Speaks (joinName word) partEcho := fun speaks =>
      absurd (speaks.1.symm.trans echoesPart.1) (by decide)
    rw [lookup_processMessage left, if_neg joins, if_neg parts, if_neg speaks]
  rw [restored.1, AList.lookup_eq_none.mpr absent, channels, AList.lookup_insert] at stays
  cases stays

/-! A moderator's commands about one channel, with and without a `#`. -/

def modMessage : IRCMessage where
  time := 0
  data := ascii ":mod!m@host PRIVMSG #c :"
  nickView := some ⟨1, 3⟩
  userView := some ⟨5, 1⟩
  hostView := some ⟨7, 5⟩
  commandView := some ⟨12, 7⟩
  paramsVec := [⟨20, 2⟩]
  bodyView := some ⟨24, 0⟩

/-- The server's word that the bot has joined or left this channel. -/
def echo (command channel : Bytes) : IRCMessage where
  time := 0
  data := ascii ":saiv!s@h " ++ command ++ ascii " " ++ channel
  nickView := some ⟨1, 4⟩
  userView := some ⟨6, 1⟩
  hostView := some ⟨8, 2⟩
  commandView := some ⟨10, command.length⟩
  paramsVec := [⟨11 + command.length, channel.length⟩]

theorem typed_plain : Typed quoteEnvironment moderatedBot modMessage (ascii "a") (ascii "join a") (ascii "part a")
    (ascii "say \"hi\" -channel a") where
  moderator := by decide
  inChannel := ⟨ascii "#c", by decide⟩
  join := by decide
  part := by decide
  say := ⟨ascii "hi", by decide⟩
  channel := by decide
  echo := by decide

theorem typed_hashed : Typed quoteEnvironment moderatedBot modMessage (ascii "#a") (ascii "join #a")
    (ascii "part #a") (ascii "say \"hi\" -channel #a") where
  moderator := by decide
  inChannel := ⟨ascii "#c", by decide⟩
  join := by decide
  part := by decide
  say := ⟨ascii "hi", by decide⟩
  channel := by decide
  echo := by decide

/-- `say` never reaches a channel, and the other two commands agree exactly on words without a `#` in front:
then, and only then, the channel is put in and taken out again. -/
theorem names_agree_iff (env : Environment) (bot bot' : BotState) (msg joinEcho partEcho : IRCMessage)
    (word joinInput partInput sayInput : Bytes) (typed : Typed env bot msg word joinInput partInput sayInput)
    (absent : joinName word ∉ bot.channels) (echoesJoin : Joins bot.nick (joinName word) joinEcho)
    (echoesPart : Parts bot.nick (formatIRCChannelName word) partEcho)
    (ran : joinAndPart env msg joinInput partInput joinEcho partEcho bot = .ok () bot') :
    (∀ name, ¬ SaysIn env bot msg sayInput name) ∧
    ((∃ name, JoinsFor env bot msg joinInput name ∧ PartsFor env bot msg partInput name ∧
        formatIRCChannelName name = name) ↔ word.head? ≠ some Byte.hash) ∧
    (Restored env bot bot' ↔ word.head? ≠ some Byte.hash) := by
  refine ⟨?_, ?_, ?_⟩
  · rintro name ⟨str, count, after, said, -⟩
    rw [typed.say_dangles] at said
    cases said
  · rw [← joinName_eq_iff]
    constructor
    · rintro ⟨name, joins, parts, -⟩
      rw [← joins.unique typed.joinsFor, ← parts.unique typed.partsFor]
    · intro same
      exact ⟨joinName word, typed.joinsFor, same ▸ typed.partsFor, formatIRCChannelName_joinName word⟩
  · rw [← joinName_eq_iff]
    constructor
    · intro restored
      by_contra different
      exact not_restored_of_different typed absent echoesJoin echoesPart different ran restored
    · intro same
      exact restored_of_same typed absent echoesJoin (same ▸ echoesPart) ran

theorem names_agree_plain : ∃ bot',
    joinAndPart quoteEnvironment modMessage (ascii "join a") (ascii "part a") (echo (ascii "JOIN") (ascii "#a"))
      (echo (ascii "PART") (ascii "#a")) moderatedBot = .ok () bot' ∧
    Restored quoteEnvironment moderatedBot bot' := by
  obtain ⟨bot', ran⟩ : ∃ bot', joinAndPart quoteEnvironment modMessage (ascii "join a") (ascii "part a")
    (echo (ascii "JOIN") (ascii "#a")) (echo (ascii "PART") (ascii "#a")) moderatedBot = .ok () bot' := ⟨_, rfl⟩
  exact ⟨bot', ran, (names_agree_iff quoteEnvironment moderatedBot bot' modMessage _ _ (ascii "a") _ _ _ typed_plain
    (by decide) (by decide) (by decide) ran).2.2.mpr (by decide)⟩

/-- `join #a` enters another channel than `part #a` leaves. -/
theorem hashed_word_stays : ¬ ∀ (env : Environment) (bot bot' : BotState) (msg joinEcho partEcho : IRCMessage)
    (word joinInput partInput sayInput : Bytes), Typed env bot msg word joinInput partInput sayInput →
      joinName word ∉ bot.channels → Joins bot.nick (joinName word) joinEcho →
      Parts bot.nick (formatIRCChannelName word) partEcho →
      joinAndPart env msg joinInput partInput joinEcho partEcho bot = .ok () bot' →
      (∃ name, JoinsFor env bot msg joinInput name ∧ PartsFor env bot msg partInput name ∧
        SaysIn env bot msg sayInput name ∧ formatIRCChannelName name = name) ∧ Restored env bot bot' := by
  intro agree
  obtain ⟨bot', ran⟩ : ∃ bot', joinAndPart quoteEnvironment modMessage (ascii "join #a") (ascii "part #a")
    (echo (ascii "JOIN") (ascii "##a")) (echo (ascii "PART") (ascii "#a")) moderatedBot = .ok () bot' := ⟨_, rfl⟩
  have restored := (agree quoteEnvironment moderatedBot bot' modMessage _ _ (ascii "#a") _ _ _ typed_hashed
    (by decide) (by decide) (by decide) ran).2
  exact not_restored_of_different typed_hashed (by decide) (by decide) (by decide) (by decide) ran restored

end SaivBot
