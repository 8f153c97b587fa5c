import SaivBot.Bot.Keepalive
import SaivBot.Connection.Hearing
import SaivBot.Lifetime

/-! All the server can hear.

Each line that any part of the bot makes begins with one of six commands and has no line
break. Neither the pace of the queue nor the mark of a repeated line changes that, so
nothing that is written in a channel or answered by a service becomes another command.
-/

set_option autoImplicit false

namespace SaivBot
open Program BotState Transition ReadBuffer DelimitedLines

/-- The commands of the bot. -/
def spokenCommands : List Bytes :=
  [ascii "PASS", ascii "NICK", ascii "JOIN", ascii "PART", ascii "PRIVMSG", ascii "PONG"]

/-- A line that is one of them, or begins with one. -/
def Worded (line : Bytes) : Prop :=
  ∃ command ∈ spokenCommands, line = command ∨ ∃ rest, line = command ++ Byte.space :: rest

theorem spokenCommands_plain : ∀ command ∈ spokenCommands, Byte.space ∉ command ∧ command.head? ≠ some Byte.colon ∧
    command ≠ [] := by
  decide

theorem Worded.lineCommand {line : Bytes} (worded : Worded line) : lineCommand line ∈ spokenCommands := by
  obtain ⟨command, member, shape⟩ := worded
  obtain ⟨clean, noColon, nonempty⟩ := spokenCommands_plain command member
  obtain ⟨c, tail, rfl⟩ := List.exists_cons_of_ne_nil nonempty
  -- No command begins with the colon of an origin.
  have plain (text : Bytes) : ¬ StartsColon (c :: tail ++ text) := by
    rintro ⟨rest, starts⟩
    rw [List.cons_append, List.cons.injEq] at starts
    rw [starts.1] at noColon
    exact noColon rfl
  have same : SaivBot.lineCommand line = c :: tail := by
    rcases shape with rfl | ⟨rest, rfl⟩
    · have plain := plain []
      rw [List.append_nil] at plain
      rw [SaivBot.lineCommand, if_neg plain]
      exact takeWhile_clean clean
    · rw [SaivBot.lineCommand, if_neg (plain _)]
      exact takeWhile_word clean rest
  rw [same]
  exact member

/-- The mark of a repeated line begins with a blank. -/
theorem Worded.repeated {line : Bytes} (worded : Worded line) : Worded (line ++ Sender.transparent) := by
  obtain ⟨command, member, same | ⟨rest, same⟩⟩ := worded
  · exact ⟨command, member, .inr ⟨Spoken.mark, by rw [same]; rfl⟩⟩
  · exact ⟨command, member, .inr ⟨rest ++ Sender.transparent, by rw [same, List.append_assoc, List.cons_append]⟩⟩

theorem worded_privmsg (channel text : Bytes) : Worded (privmsg channel text) := by
  refine ⟨ascii "PRIVMSG", by decide, .inr ⟨channel ++ ascii " :" ++ text, ?_⟩⟩
  simp only [privmsg, List.append_assoc]
  rfl

theorem worded_joinLine (channel : Bytes) : Worded (joinLine channel) :=
  ⟨ascii "JOIN", by decide, .inr ⟨channel, rfl⟩⟩

theorem worded_partLine (channel : Bytes) : Worded (partLine channel) :=
  ⟨ascii "PART", by decide, .inr ⟨channel, rfl⟩⟩

/-! What is handed on. -/

def Posted.Worded : Posted → Prop
  | .sendIRC line => SaivBot.Worded line
  | _ => True

variable {env : Environment} {msg : IRCMessage} {bot : BotState} {work : Posted}

theorem worded_reply {reply line : Bytes} (made : msg.replyLine reply = .ok line) : Worded line := by
  obtain ⟨channel, text, rfl⟩ := IRCMessage.replyLine_privmsg made
  exact worded_privmsg channel text

theorem worded_posts {inputLine : Bytes} {command : Commands} (posts : Posts env bot msg inputLine command work) :
    work.Worded := by
  cases posts with
  | shutdown | query | clip | insertMessage => trivial
  | help | invalidService | clipInvalid | joinGreeting | uptime | say | sayRest => exact worded_privmsg _ _
  | joinChannel => exact worded_joinLine _
  | part => exact worded_partLine _
  | invalidPeriod _ _ made | ping made | commands made | flags made => exact worded_reply made

theorem worded_causes (causes : Causes env msg bot work) : work.Worded := by
  cases causes with
  | raffle | changed => exact worded_privmsg _ _
  | command _ _ _ posts => exact worded_posts posts
  | pong => exact ⟨ascii "PONG", by decide, .inl rfl⟩
  | suspendWrite => trivial

theorem worded_greeting {bot : BotState} {line : Bytes} (greeting : ReadStrand.Greeting bot line) : Worded line := by
  cases greeting with
  | own | joins => exact worded_joinLine _
  | text => exact worded_privmsg _ _

namespace System

variable {start s s' : System} {given earlier : List Bytes} {event : Event}

/-- Each posted line begins with a command, and no party holds a text with a line break that can become a line. -/
structure Guarded (s : System) : Prop where
  unbroken : Unbroken s
  worded : ∀ work ∈ s.bot.posted, work.Worded

theorem Guarded.step (libraries : env.Unbroken) (guarded : Guarded s) (going : CarefulStep env s event s') :
    Guarded s' := by
  refine ⟨guarded.unbroken.step libraries going, ?_⟩
  have holds : Holds (fun bot => ∀ work ∈ bot.posted, work.Worded) (fun _ => True) s := ⟨guarded.worded, by simp⟩
  have strand : ReadStrand.AbsorbsStrand env (Maintains fun bot => ∀ work ∈ bot.posted, work.Worded) :=
    ReadStrand.strand_posted worded_causes worded_greeting
  refine (holds.step strand ?_ (fun _ _ _ => trivial) (fun _ _ _ _ => trivial) going.1).bot
  exact fun all subset work member => all work (subset member)

/-- Whatever brings a line to the send strand. -/
theorem Guarded.offered (guarded : Guarded s) (going : CarefulStep env s event s') :
    ∀ line ∈ offered s event, Worded line ∧ NoLineBreak line := by
  obtain ⟨unbroken, worded⟩ := guarded
  obtain ⟨step, careful⟩ := going
  cases step with
  | reading | sending | start => simp [System.offered, handedOver]
  | handshake _ _ =>
    obtain ⟨password, nick⟩ := unbroken.sender.login
    intro line member
    rcases List.mem_cons.mp member with rfl | rest
    · exact ⟨⟨ascii "PASS", by decide, .inr ⟨_, rfl⟩⟩, clean_append.mpr ⟨by decide, password⟩⟩
    · obtain rfl := List.mem_singleton.mp rest
      exact ⟨⟨ascii "NICK", by decide, .inr ⟨_, rfl⟩⟩, clean_append.mpr ⟨by decide, nick⟩⟩
  | @dispatch index work posted sends =>
    have member := List.mem_of_getElem? posted
    simp only [System.offered, handedOver, posted]
    cases work with
    | sendIRC line =>
      rw [List.forall_mem_singleton]
      exact ⟨worded _ member, unbroken.bot.posted _ member⟩
    | suspendWrite => simp
    | shutdown | insertMessage | download | upload => cases sends
  | @running index event errand errand' lines found ran =>
    have brought : handedOver s (.running index event) = lines := by simp [handedOver, found, ran]
    simp only [System.offered, brought]
    have clean := ((unbroken.errands errand (List.mem_of_getElem? found)).step careful ran).2
    rcases Errand.step_lines ran with rfl | ⟨channel, text, rfl⟩
    · simp
    · intro line member
      refine ⟨?_, clean line member⟩
      rw [List.mem_singleton.mp member]
      exact worded_privmsg channel text

theorem LongRun.guarded (libraries : env.Unbroken) (long : LongRun (CarefulStep env) start given earlier s)
    (initial : Guarded start) : Guarded s ∧ ∀ line ∈ given, Worded line ∧ NoLineBreak line := by
  induction long with
  | nil => exact ⟨initial, by simp⟩
  | snoc _ going ih =>
    obtain ⟨guarded, known⟩ := ih
    exact ⟨guarded.step libraries going, List.forall_mem_append.mpr ⟨known, guarded.offered going⟩⟩

/-- Whatever the server sends, the users write and the services answer, over any number of connections: everything
written is one line, and its command is one of the six. The upload host has to send bodies without a line break, and
no reconnect may overtake an operation of the send queue. -/
theorem heard_commands {file : ConfigFile} (libraries : env.Unbroken) (started : Started file start)
    (login : NoLineBreak file.nick ∧ NoLineBreak file.password)
    (channels : ∀ channel ∈ file.channels, NoLineBreak channel)
    (long : LongRun (CarefulStep env) start given earlier s) :
    ∀ text ∈ earlier ++ s.sender.written, ∃ line, text = line ++ crlf ∧ NoLineBreak line ∧
      lineCommand line ∈ spokenCommands := by
  intro text member
  obtain ⟨loadedFrom, same⟩ := started.bot
  have initial : Guarded start := ⟨started.unbroken login channels, by rw [same]; simp [loaded]⟩
  obtain ⟨-, known⟩ := long.guarded libraries initial
  have accounted := (long.weaken unhurried_of_careful).accounted started
  -- What was written carries a line that was brought to the send strand.
  obtain ⟨line, brought, carried, carries, rfl⟩ := accounted.books.origin member
  obtain ⟨worded, clean⟩ := known line brought
  rcases carries with rfl | rfl
  · exact ⟨_, rfl, clean, worded.lineCommand⟩
  · have mark : NoLineBreak Sender.transparent := by decide
    exact ⟨_, rfl, clean_append.mpr ⟨clean, mark⟩, worded.repeated.lineCommand⟩

theorem heard_commands_sample : ∃ s : System, s.sender.written = helloTexts ∧
    ∀ text ∈ helloTexts ++ s.sender.written, ∃ line, text = line ++ crlf ∧ NoLineBreak line ∧
      lineCommand line ∈ spokenCommands := by
  obtain ⟨s, long, written⟩ := long_sample
  exact ⟨s, written,
    heard_commands unbroken_clipEnvironment started_sampleSystem (by decide) (by decide) long⟩

end System

end SaivBot
