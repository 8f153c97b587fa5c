import SaivBot.Bot.Harmless

/-! Which received lines the bot can process without reading what is not there.

The constructor of a message reads element 0 of the line, so the empty line is
one of them. Others have a command that the dispatcher answers by reading the
first parameter, and no parameter in front of the trailing part. The last kind
asks for a query of the channel it stands in, and that channel has no name.
-/

set_option autoImplicit false

namespace SaivBot
open Program BotState

namespace LineSafety

/-- The reads and removals that must not happen. -/
inductive Unchecked : Abort → Prop where
  | front : Unchecked (.fault (.view .emptyFront))
  | removal : Unchecked (.fault (.view .longPrefix))
  | params : Unchecked (.fault .emptyParams)

variable (env : Environment)

/-- Whatever state the bot is in, the line is received without an unchecked read. -/
def Safe (nick line : Bytes) : Prop :=
  ∀ bot : BotState, bot.nick = nick → ∀ abort bot',
    receiveLine env (commandContainers env) line bot = .error abort bot' → ¬ Unchecked abort

/-- The line has this command and nothing between it and the trailing part. -/
def LacksParam (command reported line : Bytes) : Prop :=
  ∃ arguments, Spells reported command arguments line ∧ (arguments = [] ∨ StartsColon arguments)

/-- A PRIVMSG without a parameter, or a JOIN or PART of the bot's own without one. -/
def Unreadable (nick line : Bytes) : Prop :=
  (∃ reported, LacksParam (ascii "PRIVMSG") reported line) ∨
    ∃ reported, caselessCompare reported nick = true ∧
      (LacksParam (ascii "JOIN") reported line ∨ LacksParam (ascii "PART") reported line)

/-- A query with a target that leaves its channels to the message. -/
def QueriesChannel (command : Commands) (inputLine : Bytes) : Prop :=
  let set := env.optionParser.parse (queryOptions command) inputLine
  (command = .countCommand ∨ command = .findCommand) ∧
    (searchTarget set).isSome ∧ set.texts 2 = none ∧ set.text 3 = none

/-- A PRIVMSG with two spaces behind the command, and such a query in its body. -/
def NamelessQuery (nick line : Bytes) : Prop :=
  ∃ reported tail, Spells reported (ascii "PRIVMSG") (Byte.space :: tail) line ∧
    ∃ command inputLine, calledCommand env nick (splitArguments tail).2 = some (command, inputLine) ∧
      QueriesChannel env command inputLine

theorem isWord_privmsg : IsWord (ascii "PRIVMSG") := ⟨by decide, by decide, by decide⟩
theorem isWord_join : IsWord (ascii "JOIN") := ⟨by decide, by decide, by decide⟩
theorem isWord_part : IsWord (ascii "PART") := ⟨by decide, by decide, by decide⟩

variable {env} {msg : IRCMessage}

/-! What the line lacks is what the message lacks. -/

/-- The messages for which the dispatcher reads the first parameter. -/
def ReadsParam (nick : Bytes) (msg : IRCMessage) : Prop :=
  msg.getCommand = ascii "PRIVMSG" ∨
    caselessCompare msg.getNick nick = true ∧ (msg.getCommand = ascii "JOIN" ∨ msg.getCommand = ascii "PART")

theorem lacksParam_iff {line arguments command reported : Bytes}
    (readOff : IRCMessage.ReadOff line msg arguments) (isWord : IsWord command) :
    LacksParam command reported line ↔
      msg.getNick = reported ∧ msg.getCommand = command ∧ msg.getParams = [] := by
  have params : msg.getParams = (splitArguments arguments).1 := congrArg Prod.fst readOff.arguments
  constructor
  · rintro ⟨arguments', spells, missing⟩
    obtain ⟨nick, named, rfl⟩ := readOff.shape.eq_of_spells isWord spells
    exact ⟨nick, named, params.trans ((splitArguments_params_nil _).mpr missing)⟩
  · rintro ⟨rfl, rfl, nothing⟩
    have missing := (splitArguments_params_nil _).mp (params.symm.trans nothing)
    rcases readOff.shape.spells isWord with same | spells
    · rw [same] at missing
      exact absurd missing (not_or.mpr ⟨isWord.nonempty, isWord.noColon⟩)
    · exact ⟨arguments, spells, missing⟩

theorem unreadable_iff {nick line arguments : Bytes} (readOff : IRCMessage.ReadOff line msg arguments) :
    Unreadable nick line ↔ ReadsParam nick msg ∧ msg.getParams = [] := by
  simp only [Unreadable, ReadsParam, lacksParam_iff readOff isWord_privmsg, lacksParam_iff readOff isWord_join,
    lacksParam_iff readOff isWord_part]
  constructor
  · rintro (⟨_, rfl, command, nothing⟩ | ⟨_, own, ⟨rfl, command, nothing⟩ | ⟨rfl, command, nothing⟩⟩)
    · exact ⟨Or.inl command, nothing⟩
    · exact ⟨Or.inr ⟨own, Or.inl command⟩, nothing⟩
    · exact ⟨Or.inr ⟨own, Or.inr command⟩, nothing⟩
  · rintro ⟨command | ⟨own, command | command⟩, nothing⟩
    · exact Or.inl ⟨_, rfl, command, nothing⟩
    · exact Or.inr ⟨_, own, Or.inl ⟨rfl, command, nothing⟩⟩
    · exact Or.inr ⟨_, own, Or.inr ⟨rfl, command, nothing⟩⟩

theorem namelessQuery_iff {nick line arguments : Bytes} (readOff : IRCMessage.ReadOff line msg arguments) :
    NamelessQuery env nick line ↔ msg.getCommand = ascii "PRIVMSG" ∧ msg.getParams.head? = some [] ∧
      ∃ command inputLine, calledCommand env nick msg.getBody = some (command, inputLine) ∧
        QueriesChannel env command inputLine := by
  have params : msg.getParams = (splitArguments arguments).1 := congrArg Prod.fst readOff.arguments
  have body : msg.getBody = (splitArguments arguments).2 := congrArg Prod.snd readOff.arguments
  rw [params, body]
  constructor
  · rintro ⟨reported, tail, spells, query⟩
    obtain ⟨-, command, rfl⟩ := readOff.shape.eq_of_spells isWord_privmsg spells
    rw [splitArguments_space]
    exact ⟨command, rfl, query⟩
  · rintro ⟨command, nameless, query⟩
    obtain ⟨tail, rfl⟩ := splitArguments_nameless nameless
    rw [splitArguments_space] at query
    have shape := readOff.shape
    rw [command] at shape
    rcases shape.spells isWord_privmsg with same | spells
    · exact absurd (List.cons.inj same).1 (by decide)
    · exact ⟨_, tail, spells, query⟩

theorem firstParam_missing (nothing : msg.getParams = []) : msg.firstParam = .error (.fault .emptyParams) := by
  rw [IRCMessage.firstParam, nothing]

theorem receiveLine_eq {line : Bytes} {bot : BotState} (parsed : IRCMessage.ofLine (env.now bot) line = .ok msg) :
    receiveLine env (commandContainers env) line bot = processMessage env (commandContainers env) msg bot := by
  rw [receiveLine, get_bind, parsed]
  rfl

/-! A request is answered without an unchecked read, unless it queries a channel without a name. -/

theorem avoids_saveConfig (env : Environment) : Avoids Unchecked (saveConfig env) := by
  have thrown : Avoids Unchecked (throw (.raise .saveConfig) : BotM Unit) := avoids_throw nofun
  apply avoids_bind avoids_get
  intro bot
  apply avoids_ite
  · exact avoids_bind (avoids_modify _) fun _ => avoids_ite (avoids_pure _) thrown
  · exact thrown

variable {request : Request}

theorem avoids_firstParam_bind {β : Type} {f : Bytes → BotM β} (rest : Avoids Unchecked (f request.channel)) :
    Avoids Unchecked (lift request.ircMsg.firstParam >>= f) :=
  avoids_lift_bind request.firstParam rest

theorem avoids_reply (reply : Bytes) : Avoids Unchecked (replyToIRCMessage request.ircMsg reply) :=
  avoids_lift_bind (request.replyLine reply) (avoids_modify _)

theorem avoids_startQuery (kind : QueryKind) (plan : QueryPlan) :
    Avoids Unchecked (startQuery env kind msg plan) := by
  unfold startQuery
  split
  · exact avoids_throw nofun
  · exact avoids_ite (avoids_throw nofun) (avoids_modify _)

theorem avoids_queryCommandFunc {command : Commands} {inputLine : Bytes} (kind : QueryKind)
    (query : command = .countCommand ∨ command = .findCommand)
    (named : QueriesChannel env command inputLine → request.channel ≠ []) :
    Avoids Unchecked (queryCommandFunc env command kind request.ircMsg inputLine) := by
  apply avoids_guarded
  intro bot
  unfold QueriesChannel at named
  generalize env.optionParser.parse (queryOptions command) inputLine = set at named ⊢
  dsimp only
  cases target : searchTarget set with
  | none => exact avoids_pure _
  | some searchStr =>
    obtain ⟨channels, found⟩ := (queryChannels_ok_iff request set).mpr fun list word =>
      named ⟨query, by simp [target], list, word⟩
    apply avoids_lift_bind found
    split
    · exact avoids_reply _
    · split
      · exact avoids_firstParam_bind (avoids_modify _)
      · exact avoids_startQuery kind _

theorem avoids_clipCommandFunc (inputLine : Bytes) :
    Avoids Unchecked (clipCommandFunc env request.ircMsg inputLine) := by
  apply avoids_guarded
  intro bot
  apply avoids_firstParam_bind
  split
  · exact avoids_pure _
  · split
    · exact avoids_ite (avoids_ite (avoids_modify _) (avoids_throw nofun)) (avoids_pure _)
    · exact avoids_modify _

theorem avoids_whitelistCommandFunc (change : WhitelistChange) (inputLine : Bytes) :
    Avoids Unchecked (whitelistCommandFunc env change request.ircMsg inputLine) := by
  apply avoids_guarded
  intro bot
  dsimp only
  split
  · exact avoids_pure _
  · apply avoids_ite _ (avoids_pure _)
    apply avoids_bind (avoids_modify _)
    intro _
    apply avoids_firstParam_bind
    exact avoids_bind (avoids_modify _) fun _ => avoids_saveConfig env

theorem avoids_sayCommandFunc (inputLine : Bytes) :
    Avoids Unchecked (sayCommandFunc env request.ircMsg inputLine) := by
  apply avoids_guarded
  intro bot
  dsimp only
  split
  · apply avoids_firstParam_bind
    apply avoids_forM
    intro _
    split
    · exact avoids_throw nofun
    · exact avoids_modify _
  · split
    · exact avoids_firstParam_bind (avoids_modify _)
    · exact avoids_pure _

theorem avoids_commandFunc {command : Commands} {inputLine : Bytes}
    (named : QueriesChannel env command inputLine → request.channel ≠ []) :
    Avoids Unchecked (commandFunc env command request.ircMsg inputLine) := by
  cases command with
  | countCommand => exact avoids_queryCommandFunc .count (Or.inl rfl) named
  | findCommand => exact avoids_queryCommandFunc .find (Or.inr rfl) named
  | clipCommand => exact avoids_clipCommandFunc inputLine
  | promoteCommand => exact avoids_whitelistCommandFunc promotion inputLine
  | demoteCommand => exact avoids_whitelistCommandFunc demotion inputLine
  | sayCommand => exact avoids_sayCommandFunc inputLine
  | pingCommand | commandsCommand | flagsCommand => exact avoids_reply _
  | shutdown => exact avoids_guarded fun _ => avoids_modify _
  | helpCommand =>
    apply avoids_guarded
    intro bot
    dsimp only
    split
    · exact avoids_pure _
    · split
      · exact avoids_pure _
      · exact avoids_firstParam_bind (avoids_modify _)
  | joinCommand =>
    apply avoids_guarded
    intro bot
    dsimp only
    split
    · exact avoids_pure _
    · exact avoids_bind (avoids_modify _) fun _ => avoids_modify _
  | partCommand =>
    apply avoids_guarded
    intro bot
    dsimp only
    split
    · exact avoids_pure _
    · exact avoids_modify _
  | testInsertmessageCommand =>
    apply avoids_guarded
    intro bot
    dsimp only
    split
    · exact avoids_modify _
    · exact avoids_pure _
  | uptimeCommand => exact avoids_guarded fun _ => avoids_firstParam_bind (avoids_modify _)

/-! The dispatcher finds what it reads. -/

theorem privmsg_safe {bot bot' : BotState} {abort : Abort}
    (named : request.channel = [] → ∀ command inputLine,
      calledCommand env bot.nick request.ircMsg.getBody = some (command, inputLine) →
        ¬ QueriesChannel env command inputLine)
    (failed : (do
      parseFreeMessage request.ircMsg
      runCommand env.optionParser (commandContainers env) request.ircMsg
      bufferMessage request.ircMsg : BotM Unit) bot = .error abort bot') : ¬ Unchecked abort := by
  rw [bind_ok (parseFreeMessage_eq request bot)] at failed
  cases ran : runCommand env.optionParser (commandContainers env) request.ircMsg (bot.heard request) with
  | ok _ middle =>
    rw [bind_ok ran] at failed
    exact avoids_firstParam_bind (avoids_modify _) _ _ _ failed
  | error other middle =>
    rw [bind_error ran] at failed
    cases failed
    rw [runCommand_eq, nick_heard] at ran
    cases called : calledCommand env bot.nick request.ircMsg.getBody with
    | none =>
      rw [called] at ran
      cases ran
    | some pair =>
      rw [called] at ran
      exact avoids_commandFunc (fun query nameless => named nameless _ _ called query) _ _ _ ran

theorem avoids_ownJoin {channel : Bytes} (found : msg.firstParam = .ok channel) :
    Avoids Unchecked (ownJoin env msg) := by
  apply avoids_lift_bind found
  apply avoids_bind avoids_get
  intro bot
  split
  · exact avoids_pure _
  · exact avoids_bind (avoids_modify _) fun _ => avoids_saveConfig env

theorem avoids_ownPart {channel : Bytes} (found : msg.firstParam = .ok channel) :
    Avoids Unchecked (ownPart env msg) := by
  apply avoids_lift_bind found
  apply avoids_bind avoids_get
  intro bot
  split
  · exact avoids_pure _
  · exact avoids_bind (avoids_modify _) fun _ => avoids_saveConfig env

/-- One case for each branch of the dispatcher; a branch that reads the first parameter finds one. -/
theorem processMessage_safe {bot bot' : BotState} {abort : Abort}
    (param : ReadsParam bot.nick msg → msg.getParams ≠ [])
    (named : msg.getCommand = ascii "PRIVMSG" → msg.getParams.head? = some [] → ∀ command inputLine,
      calledCommand env bot.nick msg.getBody = some (command, inputLine) →
        ¬ QueriesChannel env command inputLine)
    (failed : processMessage env (commandContainers env) msg bot = .error abort bot') : ¬ Unchecked abort := by
  have read : ReadsParam bot.nick msg → ∃ channel, msg.getParams.head? = some channel := by
    intro reads
    obtain ⟨channel, more, params⟩ := List.exists_cons_of_ne_nil (param reads)
    exact ⟨channel, by rw [params, List.head?_cons]⟩
  unfold processMessage at failed
  by_cases privmsg : msg.getCommand = ascii "PRIVMSG"
  · rw [if_pos privmsg] at failed
    obtain ⟨channel, names⟩ := read (Or.inl privmsg)
    let request : Request := ⟨msg, channel, privmsg, names⟩
    exact @privmsg_safe env request _ _ _ (fun nameless => named privmsg (nameless ▸ names)) failed
  rw [if_neg privmsg] at failed
  by_cases ping : msg.getCommand = ascii "PING"
  · rw [if_pos ping] at failed
    cases failed
  rw [if_neg ping] at failed
  by_cases reconnect : msg.getCommand = ascii "RECONNECT"
  · rw [if_pos reconnect] at failed
    cases failed
  rw [if_neg reconnect, get_bind] at failed
  by_cases own : caselessCompare msg.getNick bot.nick = true
  · rw [if_pos own] at failed
    by_cases join : msg.getCommand = ascii "JOIN"
    · rw [if_pos join] at failed
      obtain ⟨channel, names⟩ := read (Or.inr ⟨own, Or.inl join⟩)
      exact avoids_ownJoin ((firstParam_ok_iff msg channel).mpr names) _ _ _ failed
    rw [if_neg join] at failed
    by_cases part : msg.getCommand = ascii "PART"
    · rw [if_pos part] at failed
      obtain ⟨channel, names⟩ := read (Or.inr ⟨own, Or.inr part⟩)
      exact avoids_ownPart ((firstParam_ok_iff msg channel).mpr names) _ _ _ failed
    rw [if_neg part] at failed
    cases failed
  · rw [if_neg own] at failed
    cases failed

/-! The lines that are left out make some bot read what is not there. -/

theorem guarded_off {guard : BotState → Bool} {body : BotState → BotM PUnit} {bot : BotState}
    (off : guard bot = false) :
    (get >>= fun s => if guard s then body s else pure ⟨⟩ : BotM PUnit) bot = .ok ⟨⟩ bot := by
  rw [get_bind, off]
  rfl

/-- A bot that knows nobody answers such a message nothing, or reads the channel it lacks. -/
theorem commandFunc_missing (privmsg : msg.getCommand = ascii "PRIVMSG") (nothing : msg.getParams = [])
    {bot : BotState} (moderators : bot.modlist = ∅) (users : bot.whitelist = ∅) (command : Commands)
    (inputLine : Bytes) :
    commandFunc env command msg inputLine bot = .ok () bot ∨
      commandFunc env command msg inputLine bot = .error (.fault .emptyParams) bot := by
  have moderator (user : Bytes) : bot.isModerator user = false := by simp [isModerator, moderators]
  have whitelisted (user : Bytes) : bot.isWhitelisted user = false := by simp [isWhitelisted, users]
  cases command with
  | shutdown | promoteCommand | demoteCommand | joinCommand | partCommand | sayCommand
  | testInsertmessageCommand => exact Or.inl (guarded_off (moderator _))
  | helpCommand | countCommand | findCommand | clipCommand | uptimeCommand =>
    exact Or.inl (guarded_off (whitelisted _))
  | pingCommand | commandsCommand | flagsCommand =>
    apply Or.inr
    change replyToIRCMessage msg _ bot = _
    rw [replyToIRCMessage, IRCMessage.replyLine, if_pos privmsg, firstParam_missing nothing]
    rfl

theorem parseFreeMessage_missing (nothing : msg.getParams = []) (bot : BotState) :
    parseFreeMessage msg bot = .ok () bot ∨
      parseFreeMessage msg bot = .error (.fault .emptyParams) bot := by
  unfold parseFreeMessage
  cases StringView.findText (ascii "A multi-raffle has begun") msg.getBody with
  | none => exact Or.inl rfl
  | some pos =>
    rw [firstParam_missing nothing]
    exact Or.inr rfl

theorem processMessage_missing {bot : BotState} (moderators : bot.modlist = ∅) (users : bot.whitelist = ∅)
    (reads : ReadsParam bot.nick msg) (nothing : msg.getParams = []) :
    processMessage env (commandContainers env) msg bot = .error (.fault .emptyParams) bot := by
  have missing := firstParam_missing nothing
  unfold processMessage
  rcases reads with privmsg | ⟨own, join | part⟩
  · rw [if_pos privmsg]
    have buffers : bufferMessage msg bot = .error (.fault .emptyParams) bot := by
      rw [bufferMessage, missing]
      rfl
    have runs : runCommand env.optionParser (commandContainers env) msg bot = .ok () bot ∨
        runCommand env.optionParser (commandContainers env) msg bot = .error (.fault .emptyParams) bot := by
      rw [runCommand_eq]
      split
      · exact Or.inl rfl
      · exact commandFunc_missing privmsg nothing moderators users _ _
    rcases parseFreeMessage_missing nothing bot with free | free
    · rw [bind_ok free]
      rcases runs with ran | ran
      · rw [bind_ok ran, buffers]
      · rw [bind_error ran]
    · rw [bind_error free]
  · rw [join, if_neg (by decide), if_neg (by decide), if_neg (by decide), get_bind, if_pos own, if_pos rfl,
      ownJoin, missing]
    rfl
  · rw [part, if_neg (by decide), if_neg (by decide), if_neg (by decide), get_bind, if_pos own,
      if_neg (by decide), if_pos rfl, ownPart, missing]
    rfl

theorem isWhitelisted_heard (bot : BotState) (user : Bytes) :
    (bot.heard request).isWhitelisted user = bot.isWhitelisted user := by
  unfold BotState.heard
  split
  · rfl
  · rfl

theorem queryChannels_nameless (nameless : request.channel = []) {set : OptionSet} (list : set.texts 2 = none)
    (word : set.text 3 = none) :
    queryChannels request.ircMsg set = .error (.fault (.view .emptyFront)) := by
  rw [queryChannels, list, word, request.firstParam, nameless]
  rfl

theorem queryCommandFunc_nameless (nameless : request.channel = []) {command : Commands} {inputLine : Bytes}
    (query : QueriesChannel env command inputLine) {bot : BotState}
    (whitelisted : bot.isWhitelisted request.ircMsg.getNick = true) :
    commandFunc env command request.ircMsg inputLine bot = .error (.fault (.view .emptyFront)) bot := by
  obtain ⟨which, target, list, word⟩ := query
  have fails (kind : QueryKind) :
      queryCommandFunc env command kind request.ircMsg inputLine bot = .error (.fault (.view .emptyFront)) bot := by
    obtain ⟨searchStr, found⟩ := Option.isSome_iff_exists.mp target
    rw [queryCommandFunc, get_bind, if_pos whitelisted, found]
    dsimp only
    rw [queryChannels_nameless nameless list word]
    rfl
  rcases which with rfl | rfl
  · exact fails .count
  · exact fails .find

theorem processMessage_nameless (nameless : request.channel = []) {command : Commands} {inputLine : Bytes}
    (query : QueriesChannel env command inputLine) {bot : BotState}
    (called : calledCommand env bot.nick request.ircMsg.getBody = some (command, inputLine))
    (whitelisted : bot.isWhitelisted request.ircMsg.getNick = true) :
    processMessage env (commandContainers env) request.ircMsg bot =
      .error (.fault (.view .emptyFront)) (bot.heard request) := by
  have ran : runCommand env.optionParser (commandContainers env) request.ircMsg (bot.heard request) =
      .error (.fault (.view .emptyFront)) (bot.heard request) := by
    rw [runCommand_eq, nick_heard, called]
    exact queryCommandFunc_nameless nameless query ((isWhitelisted_heard bot _).trans whitelisted)
  rw [processMessage, if_pos request.privmsg, bind_ok (parseFreeMessage_eq request bot), bind_error ran]

/-- A line is received without an unchecked read exactly when it is not empty, does not lack the
parameter the dispatcher reads, and asks for no query of a channel without a name. -/
theorem safe_iff (nick line : Bytes) :
    Safe env nick line ↔ line ≠ [] ∧ ¬ Unreadable nick line ∧ ¬ NamelessQuery env nick line := by
  by_cases empty : line = []
  · subst empty
    refine iff_of_false (fun safe => ?_) (by simp)
    exact safe (bareBot nick) rfl _ _ rfl .front
  constructor
  · intro safe
    refine ⟨empty, fun unreadable => ?_, fun query => ?_⟩
    · obtain ⟨msg, arguments, parsed, readOff⟩ := IRCMessage.ofLine_total empty (env.now (bareBot nick))
      obtain ⟨reads, nothing⟩ := (unreadable_iff readOff).mp unreadable
      exact safe (bareBot nick) rfl _ _ ((receiveLine_eq parsed).trans (processMessage_missing rfl rfl reads nothing))
        .params
    · obtain ⟨reported, tail, spells, -⟩ := id query
      -- Queries are for whitelisted users: the sender is made one.
      let bot : BotState := { bareBot nick with whitelist := {toLowerCaseString reported} }
      obtain ⟨msg, arguments, parsed, readOff⟩ := IRCMessage.ofLine_total empty (env.now bot)
      obtain ⟨privmsg, nameless, command, inputLine, called, queries⟩ := (namelessQuery_iff readOff).mp query
      have nick := (readOff.shape.eq_of_spells isWord_privmsg spells).1
      let request : Request := ⟨msg, [], privmsg, nameless⟩
      have whitelisted : bot.isWhitelisted request.ircMsg.getNick = true := by
        simp [isWhitelisted, bot, request, nick]
      exact safe bot rfl _ _
        ((receiveLine_eq parsed).trans (@processMessage_nameless env request rfl _ _ queries bot called whitelisted))
        .front
  · rintro ⟨-, readable, named⟩ bot rfl abort bot' failed
    obtain ⟨msg, arguments, parsed, readOff⟩ := IRCMessage.ofLine_total empty (env.now bot)
    rw [receiveLine_eq parsed] at failed
    apply processMessage_safe _ _ failed
    · exact fun reads nothing => readable ((unreadable_iff readOff).mpr ⟨reads, nothing⟩)
    · intro privmsg nameless command inputLine called queries
      exact named ((namelessQuery_iff readOff).mpr ⟨privmsg, nameless, command, inputLine, called, queries⟩)

/-- The empty line is read at its element 0. -/
theorem empty_line_unsafe : ¬ ∀ (env : Environment) (nick line : Bytes), Safe env nick line := by
  intro safe
  exact safe bareEnvironment (ascii "saivbot") [] (bareBot (ascii "saivbot")) rfl _ _ rfl .front

end LineSafety

end SaivBot
