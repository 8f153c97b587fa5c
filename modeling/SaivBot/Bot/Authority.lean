import SaivBot.Bot.Effects
import SaivBot.Bot.Rearming

/-! What a message can do that no moderator wrote.

Each handler checks its caller by itself. All but one look at the nick, so a message
whose nick is no moderator's changes nothing it should not, and the exception decides.
-/

set_option autoImplicit false

namespace SaivBot
open Program BotState

/-- Work that somebody who is no moderator may cause. -/
def Permitted (whitelisted : Bool) : Posted → Prop
  | .sendIRC line => ∀ channel, line ≠ joinLine channel ∧ line ≠ partLine channel
  | .suspendWrite => True
  | .shutdown | .insertMessage _ => False
  | .download .. | .upload .. => whitelisted = true

/-- The lists and the queue of messages are kept, and the work posted is permitted. -/
structure Heeds (allowed : Posted → Prop) (bot bot' : BotState) : Prop where
  whitelist : bot'.whitelist = bot.whitelist
  modlist : bot'.modlist = bot.modlist
  msgPreBuffer : bot'.msgPreBuffer = bot.msgPreBuffer
  posted : ∃ new, bot'.posted = bot.posted ++ new ∧ ∀ work ∈ new, allowed work

instance (allowed : Posted → Prop) : IsPreorder BotState (Heeds allowed) where
  refl bot := ⟨rfl, rfl, rfl, [], by simp, by simp⟩
  trans := by
    rintro _ _ _ ⟨whitelist, modlist, queue, first, old, fine⟩ ⟨whitelist', modlist', queue', second, new, fine'⟩
    refine ⟨whitelist'.trans whitelist, modlist'.trans modlist, queue'.trans queue, first ++ second, ?_, ?_⟩
    · rw [new, old, List.append_assoc]
    · intro work member
      rcases List.mem_append.mp member with old | new
      · exact fine work old
      · exact fine' work new

theorem Grows.heeds {posts allowed : Posted → Prop} (fine : ∀ work, posts work → allowed work)
    {bot bot' : BotState} (grows : Grows posts bot bot') : Heeds allowed bot bot' := by
  obtain ⟨new, rfl, each⟩ := grows
  exact ⟨rfl, rfl, rfl, new, rfl, fun work member => fine work (each work member)⟩

variable (env : Environment) (msg : IRCMessage) (bot : BotState)

/-- The message is processed with no more effect than its nick allows, and a `say` says nothing. -/
structure Restrained : Prop where
  heeds : Leads (Heeds (Permitted (bot.isWhitelisted msg.getNick)))
    (processMessage env (commandContainers env) msg) bot
  silent : msg.getCommand = ascii "PRIVMSG" → ∀ inputLine,
    calledCommand env bot.nick msg.getBody = some (.sayCommand, inputLine) →
      (final (processMessage env (commandContainers env) msg bot)).posted =
        (final (parseFreeMessage msg bot)).posted

/-- The message calls `test_insertmessage` with a string, and the user of its origin is a moderator's name.
A raffle in the same text is answered first, for which the message has to name a channel. -/
structure Inserts : Prop where
  privmsg : msg.getCommand = ascii "PRIVMSG"
  heard : (StringView.findText (ascii "A multi-raffle has begun") msg.getBody).isSome →
    ∃ channel, msg.firstParam = .ok channel
  called : ∃ inputLine, calledCommand env bot.nick msg.getBody = some (.testInsertmessageCommand, inputLine) ∧
    ((env.optionParser.parse [⟨Commands.testInsertmessageCommand.text.command, [.string]⟩] inputLine).text 0).isSome
  user : bot.isModerator msg.getUser = true

variable {env msg bot}

/-! The lines the bot answers with are no JOIN and no PART. -/

theorem permitted_privmsg (whitelisted : Bool) (channel text : Bytes) :
    Permitted whitelisted (.sendIRC (privmsg channel text)) := by
  have private_ : ascii "PRIVMSG " = 80 :: 82 :: ascii "IVMSG " := by decide
  have join : ascii "JOIN " = 74 :: ascii "OIN " := by decide
  have part : ascii "PART " = 80 :: 65 :: ascii "RT " := by decide
  intro other
  simp [privmsg, joinLine, partLine, private_, join, part]

theorem permitted_pong (whitelisted : Bool) : Permitted whitelisted (.sendIRC (ascii "PONG")) := by
  have reply : ascii "PONG" = [80, 79, 78, 71] := by decide
  have join : ascii "JOIN " = 74 :: ascii "OIN " := by decide
  have part : ascii "PART " = 80 :: 65 :: ascii "RT " := by decide
  intro channel
  simp [reply, joinLine, partLine, join, part]

theorem whisper_eq (target text : Bytes) :
    whisper target text = privmsg (ascii "#jtv") (ascii "/w " ++ target ++ ascii " " ++ text) := by
  have opening : ascii "PRIVMSG #jtv :" = ascii "PRIVMSG " ++ ascii "#jtv" ++ ascii " :" := by decide
  simp only [whisper, privmsg, opening, List.append_assoc]

theorem permitted_reply {whitelisted : Bool} {reply line : Bytes} (made : msg.replyLine reply = .ok line) :
    Permitted whitelisted (.sendIRC line) := by
  unfold IRCMessage.replyLine at made
  split at made
  · cases named : msg.firstParam with
    | error abort =>
      rw [named] at made
      cases made
    | ok channel =>
      rw [named] at made
      cases made
      exact permitted_privmsg _ _ _
  · split at made
    · cases made
      rw [whisper_eq]
      exact permitted_privmsg _ _ _
    · cases made

/-- What a command posts for somebody who is no moderator is permitted, an inserted message apart. -/
theorem permitted_of_posts {inputLine : Bytes} {command : Commands} {work : Posted}
    (nick : bot.isModerator msg.getNick = false) (posts : Posts env bot msg inputLine command work) :
    Permitted (bot.isWhitelisted msg.getNick) work ∨ ∃ str, work = .insertMessage str := by
  cases posts with
  | shutdown moderator | joinChannel moderator _ | joinGreeting moderator _ | part moderator _
    | say moderator _ _ | sayRest moderator _ _ =>
    rw [nick] at moderator
    cases moderator
  | help _ _ _ | invalidService _ _ _ | clipInvalid _ _ | uptime _ _ _ => exact .inl (permitted_privmsg _ _ _)
  | invalidPeriod _ _ made | ping made | commands made | flags made => exact .inl (permitted_reply made)
  | query _ whitelisted _ | clip _ _ whitelisted _ _ => exact .inl whitelisted
  | insertMessage _ _ => exact .inr ⟨_, rfl⟩

/-- Everything a message can do is heeded when its nick is no moderator's and it inserts nothing. -/
theorem absorbs_heeds (nick : bot.isModerator msg.getNick = false) (noInsert : ¬ Inserts env msg bot) :
    Absorbs env msg bot (Heeds (Permitted (bot.isWhitelisted msg.getNick))) where
  posting bot' work causes := by
    refine (grows_posting ?_ bot').heeds fun _ => id
    cases causes with
    | raffle _ _ => exact permitted_privmsg _ _ _
    | command private_ heard called posts =>
      rcases permitted_of_posts nick posts with permitted | ⟨str, rfl⟩
      · exact permitted
      · cases posts with
        | insertMessage user read =>
          refine absurd ⟨private_, returns_parseFreeMessage_iff.mp heard, ⟨_, called, ?_⟩, user⟩ noInsert
          rw [read]
          rfl
    | changed _ _ => exact permitted_privmsg _ _ _
    | pong _ => exact permitted_pong _
    | suspendWrite _ => trivial
  configFile _ _ := ⟨rfl, rfl, rfl, [], by simp, by simp⟩
  whitelist _ _ _ asks := by
    rw [moderator_of_asked asks] at nick
    cases nick
  channels _ _ _ := ⟨rfl, rfl, rfl, [], by simp, by simp⟩
  suspendRead _ _ := ⟨rfl, rfl, rfl, [], by simp, by simp⟩

/-- A PRIVMSG whose free text and command return leaves what the command has posted. -/
theorem posted_privmsg (privmsg : msg.getCommand = ascii "PRIVMSG") {heard after : BotState}
    (free : parseFreeMessage msg bot = .ok () heard)
    (ran : runCommand env.optionParser (commandContainers env) msg heard = .ok () after) :
    (final (processMessage env (commandContainers env) msg bot)).posted = after.posted := by
  have kept : Preserves BotState.posted (bufferMessage msg) := preserves_bufferMessage (fun _ _ => rfl) msg
  rw [processMessage, if_pos privmsg, bind_ok free, bind_ok ran, kept]

/-- The message to insert is among the work posted. -/
theorem not_restrained_of_inserts (inserts : Inserts env msg bot) : ¬ Restrained env msg bot := by
  rintro ⟨heeds, -⟩
  obtain ⟨privmsg, hears, ⟨inputLine, called, read⟩, user⟩ := inserts
  obtain ⟨_, heard, free⟩ := returns_parseFreeMessage_iff.mpr hears
  obtain ⟨sameNick, moderator, -⟩ := heard_frame free
  obtain ⟨str, read⟩ := Option.isSome_iff_exists.mp read
  have ran : runCommand env.optionParser (commandContainers env) msg heard =
      .ok () (heard.posting (.insertMessage str)) := by
    rw [runCommand_eq, sameNick, called]
    simp only [commandFunc, testInsertmessageCommandFunc, get_bind, moderator, user, ↓reduceIte, read]
    rfl
  obtain ⟨new, posted, permitted⟩ := heeds.posted
  obtain ⟨greeting, same, greets⟩ := leads_parseFreeMessage_grows.ok free
  rw [posted_privmsg privmsg free ran, same] at posted
  have split : greeting ++ [Posted.insertMessage str] = new := by
    simpa [BotState.posting] using posted
  exact permitted (.insertMessage str) (by simp [← split])

/-- A `say` that is refused leaves the work as the free text has left it. -/
theorem silent_say (nick : bot.isModerator msg.getNick = false) (privmsg : msg.getCommand = ascii "PRIVMSG")
    {inputLine : Bytes} (called : calledCommand env bot.nick msg.getBody = some (.sayCommand, inputLine)) :
    (final (processMessage env (commandContainers env) msg bot)).posted =
      (final (parseFreeMessage msg bot)).posted := by
  cases free : parseFreeMessage msg bot with
  | error abort heard =>
    rw [processMessage, if_pos privmsg, bind_error free]
  | ok _ heard =>
    obtain ⟨sameNick, moderator, -⟩ := heard_frame free
    have ran : runCommand env.optionParser (commandContainers env) msg heard = .ok () heard := by
      rw [runCommand_eq, sameNick, called]
      simp only [commandFunc, sayCommandFunc, get_bind, moderator, nick, Bool.false_eq_true, ↓reduceIte]
      rfl
    rw [posted_privmsg privmsg free ran]
    rfl

/-- A message whose nick is no moderator's stays within its nick's rights exactly when it does not insert a
message in the name of its user. -/
theorem restrained_iff (env : Environment) (msg : IRCMessage) (bot : BotState)
    (nick : bot.isModerator msg.getNick = false) : Restrained env msg bot ↔ ¬ Inserts env msg bot := by
  constructor
  · exact fun restrained inserts => not_restrained_of_inserts inserts restrained
  · intro noInsert
    exact ⟨leads_processMessage (absorbs_heeds nick noInsert), fun privmsg _ called => silent_say nick privmsg called⟩

/-! Somebody whose user name is that of a moderator. -/

/-- The text between the first two quotation marks. -/
def quoted (line : Bytes) : Option Bytes :=
  match line.splitOn 34 with
  | _ :: str :: _ :: _ => some str
  | _ => none

def quoteEnvironment : Environment :=
  { bareEnvironment with
    optionParser := { ReadStrand.wordParser with
      parse := fun options line => { ReadStrand.wordParser.parse options line with
        text := fun index => match options[index]? with
          | some option =>
            if option.kinds = [.string] then quoted line else (ReadStrand.wordParser.parse options line).text index
          | none => none } } }

def moderatedBot : BotState := { bareBot (ascii "saiv") with modlist := {ascii "mod"} }

def evilMessage : IRCMessage where
  time := 0
  data := ascii ":evil!mod@host PRIVMSG #c :saiv test_insertmessage \"x\""
  nickView := some ⟨1, 4⟩
  userView := some ⟨6, 3⟩
  hostView := some ⟨10, 5⟩
  commandView := some ⟨15, 7⟩
  paramsVec := [⟨23, 2⟩]
  bodyView := some ⟨27, 27⟩

def refusedMessage : IRCMessage where
  time := 0
  data := ascii ":evil!who@host PRIVMSG #c :saiv test_insertmessage \"x\""
  nickView := some ⟨1, 4⟩
  userView := some ⟨6, 3⟩
  hostView := some ⟨10, 5⟩
  commandView := some ⟨15, 7⟩
  paramsVec := [⟨23, 2⟩]
  bodyView := some ⟨27, 27⟩

/-- A user of another name asks for the same, and is refused. -/
theorem restrained_iff_sample :
    (∃ inputLine, calledCommand quoteEnvironment moderatedBot.nick refusedMessage.getBody =
        some (.testInsertmessageCommand, inputLine)) ∧
      Restrained quoteEnvironment refusedMessage moderatedBot := by
  have other : moderatedBot.isModerator refusedMessage.getUser = false := by decide
  refine ⟨⟨_, rfl⟩, (restrained_iff quoteEnvironment refusedMessage moderatedBot (by decide)).mpr fun inserts => ?_⟩
  exact absurd (inserts.user.symm.trans other) (by decide)

theorem user_inserts_message :
    ¬ ∀ (env : Environment) (line : Bytes) (msg : IRCMessage) (bot : BotState),
      IRCMessage.ofLine (env.now bot) line = .ok msg → bot.isModerator msg.getNick = false →
      Restrained env msg bot := by
  intro restrained
  have inserts : Inserts quoteEnvironment evilMessage moderatedBot := by
    refine ⟨by decide, fun raffle => ?_, ⟨_, rfl, by decide⟩, by decide⟩
    exact ⟨ascii "#c", by decide⟩
  exact not_restrained_of_inserts inserts
    (restrained quoteEnvironment evilMessage.data evilMessage moderatedBot (by decide) (by decide))

end SaivBot
