import SaivBot.Bot.Strand

/-! No text of the read strand that can become a line has a line break.

`parseBuffer` cuts its lines at the first carriage return or newline, and a handler
makes its texts of what it has been given. What a command adds are fixed texts.
-/

set_option autoImplicit false

namespace SaivBot
open Program BotState ReadBuffer DelimitedLines

/-- The libraries hand out pieces of the text they are given, and show a duration on one line. -/
structure Environment.Unbroken (env : Environment) : Prop where
  extractFirstWord : ∀ {input word rest : Bytes},
    env.optionParser.extractFirstWordDestructive input = some (word, rest) → rest ⊆ input
  parse : ∀ {options : List OptionSpec} {input text : Bytes} {index : Nat},
    (env.optionParser.parse options input).text index = some text → text ⊆ input
  showSeconds : ∀ seconds, NoLineBreak (env.showSeconds seconds)

/-- Nothing this work will put on a line has a line break. -/
def Posted.Unbroken : Posted → Prop
  | .sendIRC line => NoLineBreak line
  | .insertMessage str => NoLineBreak str
  | .download _ _ msg _ | .upload _ msg => NoLineBreak msg.data
  | .suspendWrite | .shutdown => True

structure BotState.Unbroken (bot : BotState) : Prop where
  nick : NoLineBreak bot.nick
  channels : ∀ channel ∈ bot.channels, NoLineBreak channel
  messages : ∀ msg ∈ bot.msgPreBuffer, NoLineBreak msg.data
  posted : ∀ work ∈ bot.posted, work.Unbroken

/-- What a line can be made of. -/
def BotState.carried (bot : BotState) := (bot.nick, bot.channels, bot.msgPreBuffer, bot.posted)

variable {env : Environment} {msg : IRCMessage} {bot : BotState}

theorem BotState.Unbroken.same {bot' : BotState} (unbroken : bot.Unbroken) (same : bot'.carried = bot.carried) :
    bot'.Unbroken := by
  simp only [carried, Prod.mk.injEq] at same
  obtain ⟨nick, channels, messages, posted⟩ := same
  constructor
  · rw [nick]
    exact unbroken.nick
  · rw [channels]
    exact unbroken.channels
  · rw [messages]
    exact unbroken.messages
  · rw [posted]
    exact unbroken.posted

theorem BotState.Unbroken.posting (unbroken : bot.Unbroken) {work : Posted} (clean : work.Unbroken) :
    (bot.posting work).Unbroken := by
  refine ⟨unbroken.nick, unbroken.channels, unbroken.messages, ?_⟩
  intro other member
  rcases List.mem_append.mp member with old | new
  · exact unbroken.posted other old
  · rw [List.mem_singleton.mp new]
    exact clean

/-- Work that has been taken off. -/
theorem BotState.Unbroken.take (unbroken : bot.Unbroken) {posted : List Posted} (subset : posted ⊆ bot.posted) :
    BotState.Unbroken { bot with posted := posted } :=
  ⟨unbroken.nick, unbroken.channels, unbroken.messages, fun work member => unbroken.posted work (subset member)⟩

/-- A message behind the others. -/
theorem BotState.Unbroken.queued (unbroken : bot.Unbroken) (clean : NoLineBreak msg.data) :
    BotState.Unbroken { bot with msgPreBuffer := bot.msgPreBuffer ++ [msg] } := by
  refine ⟨unbroken.nick, unbroken.channels, ?_, unbroken.posted⟩
  rw [List.forall_mem_append]
  exact ⟨unbroken.messages, by simpa using clean⟩

/-! What a command posts. -/

theorem noLineBreak_comma : NoLineBreak (ascii ", ") := by decide

theorem Commands.noLineBreak_text (command : Commands) :
    NoLineBreak command.text.command ∧ NoLineBreak command.text.arguments ∧
      NoLineBreak command.text.description := by
  cases command <;> decide

section

variable (libraries : env.Unbroken) (clean : NoLineBreak msg.data)

include clean

/-- An answer that begins with the nick of the user. -/
theorem noLineBreak_named {text : Bytes} (fixed : NoLineBreak text) : NoLineBreak (msg.getNick ++ text) :=
  clean_append.mpr ⟨IRCMessage.noLineBreak_getNick clean, fixed⟩

theorem noLineBreak_sendBack {channel text : Bytes} (named : msg.firstParam = .ok channel)
    (fixed : NoLineBreak text) : NoLineBreak (privmsg channel text) :=
  noLineBreak_privmsg.mpr ⟨IRCMessage.noLineBreak_firstParam clean named, fixed⟩

include libraries

theorem unbroken_posts {inputLine : Bytes} (input : NoLineBreak inputLine) {command : Commands} {work : Posted}
    (posts : Posts env bot msg inputLine command work) : work.Unbroken := by
  have word {options : List OptionSpec} {text : Bytes} {index : Nat}
      (read : (env.optionParser.parse options inputLine).text index = some text) : NoLineBreak text :=
    input.of_subset (libraries.parse read)
  have reply {text line : Bytes} (fixed : NoLineBreak text)
      (made : msg.replyLine (msg.getNick ++ text) = .ok line) : NoLineBreak line :=
    IRCMessage.noLineBreak_replyLine clean (noLineBreak_named clean fixed) made
  cases posts with
  | shutdown _ => trivial
  | help _ member named =>
    obtain ⟨other, -, rfl⟩ := List.mem_map.mp member
    obtain ⟨name, arguments, description⟩ := Commands.noLineBreak_text other
    have usage : NoLineBreak (ascii " Usage: ") := by decide
    have blank : NoLineBreak (ascii " ") := by decide
    apply noLineBreak_sendBack clean named
    simp [noLineBreak_comma, name, arguments, description, usage, blank, IRCMessage.noLineBreak_getNick clean]
  | invalidPeriod _ _ made => exact reply (by decide) made
  | invalidService _ _ named => exact noLineBreak_sendBack clean named (noLineBreak_named clean (by decide))
  | query _ _ _ => exact clean
  | clip _ _ _ _ => exact clean
  | clipInvalid _ named =>
    apply noLineBreak_sendBack clean named
    rw [List.append_assoc]
    exact noLineBreak_named clean (by decide)
  | joinChannel _ read =>
    have hash : NoLineBreak (ascii "#") := by decide
    exact noLineBreak_joinLine.mpr (noLineBreak_toLowerCaseString (clean_append.mpr ⟨hash, word read⟩))
  | joinGreeting _ read =>
    have hash : NoLineBreak (ascii "#") := by decide
    have greeting : NoLineBreak (ascii "monkaMEGA") := by decide
    exact noLineBreak_privmsg.mpr
      ⟨noLineBreak_toLowerCaseString (clean_append.mpr ⟨hash, word read⟩), greeting⟩
  | part _ read => exact noLineBreak_partLine.mpr (noLineBreak_formatIRCChannelName (word read))
  | uptime seconds _ named =>
    apply noLineBreak_sendBack clean named
    rw [List.append_assoc]
    exact noLineBreak_named clean (clean_append.mpr ⟨noLineBreak_comma, libraries.showSeconds seconds⟩)
  | say _ named read => exact noLineBreak_sendBack clean named (word read)
  | sayRest _ named extracted =>
    exact noLineBreak_sendBack clean named (input.of_subset (libraries.extractFirstWord extracted))
  | ping made | commands made | flags made =>
    rw [List.append_assoc] at made
    exact reply (by decide) made
  | insertMessage _ read => exact word read

omit clean in
/-- The line a command is called with is a piece of the body. -/
theorem noLineBreak_calledCommand {nick body inputLine : Bytes} {command : Commands} (clean : NoLineBreak body)
    (called : calledCommand env nick body = some (command, inputLine)) : NoLineBreak inputLine := by
  unfold calledCommand at called
  split at called
  · cases called
  · next firstWord localView extracted =>
    obtain ⟨-, found⟩ := Option.ite_none_right_eq_some.mp called
    obtain ⟨_, -, ⟨⟩⟩ := Option.map_eq_some_iff.mp found
    exact clean.of_subset (libraries.extractFirstWord extracted)

theorem unbroken_causes {work : Posted} (causes : Causes env msg bot work) : work.Unbroken := by
  cases causes with
  | raffle _ named => exact noLineBreak_sendBack clean named (by decide)
  | command _ _ called posts =>
    have input := noLineBreak_calledCommand libraries (IRCMessage.noLineBreak_getBody clean) called
    exact unbroken_posts libraries clean input posts
  | @changed change user channel asks named =>
    obtain ⟨-, which, inputLine, called, changed⟩ := asked_eq_some.mp asks
    have input := noLineBreak_calledCommand libraries (IRCMessage.noLineBreak_getBody clean) called
    have user : NoLineBreak user := by
      obtain ⟨-, changed⟩ := Option.ite_none_right_eq_some.mp changed
      obtain ⟨word, read, rfl⟩ := Option.map_eq_some_iff.mp changed
      exact noLineBreak_toLowerCaseString (input.of_subset (libraries.parse read))
    have answer : NoLineBreak change.answer := by
      rcases which with rfl | rfl
      · decide
      · decide
    exact noLineBreak_sendBack clean named (clean_append.mpr ⟨user, answer⟩)
  | pong _ =>
    have text : NoLineBreak (ascii "PONG") := by decide
    exact text
  | suspendWrite _ => trivial

theorem absorbs_unbroken : Absorbs env msg bot (Maintains BotState.Unbroken) where
  posting _ _ causes unbroken := unbroken.posting (unbroken_causes libraries clean causes)
  configFile _ _ unbroken := unbroken.same rfl
  whitelist _ _ _ _ unbroken := unbroken.same rfl
  channels := by
    intro bot' channels known unbroken
    refine ⟨unbroken.nick, ?_, unbroken.messages, unbroken.posted⟩
    intro channel member
    rcases known channel member with old | named
    · exact unbroken.channels channel old
    · exact IRCMessage.noLineBreak_firstParam clean named
  suspendRead _ _ unbroken := unbroken.same rfl

end

/-! The handlers of the read strand. -/

namespace ReadStrand

theorem unbroken_greeting {line : Bytes} (greeting : Greeting bot line) (unbroken : bot.Unbroken) :
    NoLineBreak line := by
  have own := noLineBreak_formatIRCChannelName unbroken.nick
  have text : NoLineBreak (ascii "monkaMEGA") := by decide
  cases greeting with
  | own => exact noLineBreak_joinLine.mpr own
  | text => exact noLineBreak_privmsg.mpr ⟨own, text⟩
  | joins followed => exact noLineBreak_joinLine.mpr (unbroken.channels _ followed)

theorem strand_unbroken (libraries : env.Unbroken) : AbsorbsStrand env (Maintains BotState.Unbroken) where
  message queue unbroken :=
    leads_processMessage (absorbs_unbroken libraries (unbroken.messages _ (by rw [queue]; simp))) unbroken
  consumed _ unbroken := ⟨unbroken.nick, unbroken.channels,
    fun msg member => unbroken.messages msg (List.mem_of_mem_tail member), unbroken.posted⟩
  filled _ _ unbroken := unbroken.same rfl
  emplaced _ _ clean unbroken := unbroken.queued clean
  reads _ _ unbroken := unbroken.same rfl
  resumed _ unbroken := unbroken.same rfl
  greeting _ _ greeting unbroken := unbroken.posting (unbroken_greeting greeting unbroken)
  started _ _ unbroken := unbroken.same rfl
  taken _ _ _ _ posted unbroken := unbroken.take fun _ => mem_posted posted
  inserted bot msg before after posted unbroken := by
    have clean : NoLineBreak msg.data := unbroken.posted (.insertMessage msg.data) (by rw [posted]; simp)
    exact (unbroken.take fun _ => mem_posted posted).queued clean

theorem unbroken_step {bot' : BotState} {event : Event} (libraries : env.Unbroken) (unbroken : bot.Unbroken)
    (step : Step env bot event bot') : bot'.Unbroken :=
  strand_step (strand_unbroken libraries) step unbroken

end ReadStrand

end SaivBot
