import SaivBot.Bot.State

/-! The fifteen commands. -/

set_option autoImplicit false

namespace SaivBot
open Program BotState

inductive Commands where
  | shutdown
  | helpCommand
  | countCommand
  | findCommand
  | clipCommand
  | promoteCommand
  | demoteCommand
  | joinCommand
  | partCommand
  | uptimeCommand
  | sayCommand
  | pingCommand
  | commandsCommand
  | flagsCommand
  | testInsertmessageCommand
  deriving DecidableEq, Repr

/-- The texts of a `CommandContainer`. -/
structure CommandText where
  command : Bytes
  arguments : Bytes
  description : Bytes

structure CommandContainer extends CommandText where
  func : IRCMessage → Bytes → BotM Unit

namespace Commands

def all : List Commands :=
  [.shutdown, .helpCommand, .countCommand, .findCommand, .clipCommand, .promoteCommand, .demoteCommand,
    .joinCommand, .partCommand, .uptimeCommand, .sayCommand, .pingCommand, .commandsCommand, .flagsCommand,
    .testInsertmessageCommand]

def queryArguments : Bytes := ascii "<target> [-flag1 [param ...] -flag2 [param ...] ...]"

def text : Commands → CommandText
  | .shutdown => ⟨ascii "shutdown", [], ascii "Orderly shut down execution and save config."⟩
  | .helpCommand => ⟨ascii "help", ascii "<command>", ascii "Get info about command."⟩
  | .countCommand => ⟨ascii "count", queryArguments, ascii "Count the occurrences of target in logs."⟩
  | .findCommand => ⟨ascii "find", queryArguments, ascii "Find all lines containing target in logs."⟩
  | .clipCommand =>
    ⟨ascii "clip", ascii "[-flag1 [param ...] -flag2 [param ...] ...]", ascii "Capture a snapshot of chat."⟩
  | .promoteCommand => ⟨ascii "promote", ascii "<user>", ascii "Whitelist user."⟩
  | .demoteCommand => ⟨ascii "demote", ascii "<user>", ascii "Remove user from whitelist."⟩
  | .joinCommand => ⟨ascii "join", ascii "<channel>", ascii "Join channel."⟩
  | .partCommand => ⟨ascii "part", ascii "<channel>", ascii "Part channel."⟩
  | .uptimeCommand => ⟨ascii "uptime", [], ascii "Get uptime."⟩
  | .sayCommand => ⟨ascii "say", ascii "<stuff to say>", ascii "Make bot say something."⟩
  | .pingCommand => ⟨ascii "ping", [], ascii "Ping the bot"⟩
  | .commandsCommand => ⟨ascii "commands", [], ascii "Get link to commands doc."⟩
  | .flagsCommand => ⟨ascii "flags", [], ascii "Get link to flags doc."⟩
  | .testInsertmessageCommand =>
    ⟨ascii "test_insertmessage", ascii "<string>", ascii "insert IRCMessage in receive queue."⟩

end Commands

variable (env : Environment)

def shutdownCommandFunc (msg : IRCMessage) (_ : Bytes) : BotM Unit := do
  if (← get).isModerator msg.getNick then doShutdown else return ()

def helpCommandFunc (msg : IRCMessage) (inputLine : Bytes) : BotM Unit := do
  if (← get).isWhitelisted msg.getNick then
    let set := env.optionParser.parse [⟨Commands.helpCommand.text.command, [.word]⟩] inputLine
    match set.text 0 with
    | none => return ()
    | some command =>
      match (Commands.all.map Commands.text).find? fun con => caselessCompare con.command command with
      | none => return ()
      | some con => do
        let channel ← lift msg.firstParam
        sendPRIVMSG channel (msg.getNick ++ ascii ", " ++ con.description ++ ascii " Usage: " ++ con.command ++
          ascii " " ++ con.arguments)
  else return ()

/-! `count` and `find` read the same options in the same order. -/

def queryOptions (command : Commands) : List OptionSpec :=
  [⟨command.text.command, [.string]⟩, ⟨command.text.command, [.word]⟩, ⟨ascii "-channel", [.list]⟩,
    ⟨ascii "-channel", [.word]⟩, ⟨ascii "-user", [.list]⟩, ⟨ascii "-user", [.word]⟩, ⟨ascii "-allusers", []⟩,
    ⟨ascii "-period", [.word, .word]⟩, ⟨ascii "-caseless", []⟩, ⟨ascii "-service", [.word]⟩,
    ⟨ascii "-regex", []⟩]

def searchTarget (set : OptionSet) : Option Bytes :=
  match set.text 0 with
  | some target => some target
  | none => set.text 1

/-- Without the option, the message's own channel without its `#`. -/
def queryChannels (msg : IRCMessage) (set : OptionSet) : Except Abort (List Bytes) :=
  match set.texts 2 with
  | some channels => .ok channels
  | none =>
    match set.text 3 with
    | some channel => .ok [channel]
    | none => do
      -- Element 0 is read without asking whether the parameter has one.
      match (← msg.firstParam) with
      | [] => .error (.fault (.view .emptyFront))
      | c :: rest => if c = Byte.hash then return [rest] else return [c :: rest]

def queryUsers (msg : IRCMessage) (set : OptionSet) : List Bytes × Bool :=
  match set.texts 4 with
  | some users => (users, false)
  | none =>
    match set.text 5 with
    | some user => ([user], false)
    | none => if set.flag 6 then ([], true) else ([msg.getNick], false)

/-- Without the option, the current calendar month. -/
def queryPeriod (now : TimePoint) (set : OptionSet) : Option TimeDetail.TimePeriod :=
  match set.pair 7 with
  | some (beginWord, endWord) => TimeDetail.parseTimePeriod env.calendar env.dateParser beginWord endWord
  | none =>
    let currentDate := env.calendar.fromDays (TimeDetail.floorDays now)
    some (TimeDetail.createYearMonthPeriod env.calendar currentDate.yearMonth)

def queryService (set : OptionSet) : Option LogService :=
  match set.text 9 with
  | some service =>
    if caselessCompare service (ascii "gempir") then some .gempirLog
    else if caselessCompare service (ascii "overrustle") then some .overrustleLog
    else none
  | none => some .gempirLog

/-- Setting up the log request. The pattern is compiled after the targets have been listed. -/
def startQuery (kind : QueryKind) (msg : IRCMessage) (plan : QueryPlan) : BotM Unit :=
  match LogRequest.fillLogRequestTargetFields env.calendar env.dateParser plan.service plan.allUsers plan.period
    plan.channels plan.users with
  | none => throw (.fault .endlessLoop)
  | some request =>
    if plan.regex = true ∧ env.regexAccepts plan.searchStr = false then throw (.raise .regexError)
    else post (.download kind plan msg request)

def queryCommandFunc (command : Commands) (kind : QueryKind) (msg : IRCMessage) (inputLine : Bytes) :
    BotM Unit := do
  let bot ← get
  if bot.isWhitelisted msg.getNick then
    let set := env.optionParser.parse (queryOptions command) inputLine
    match searchTarget set with
    | none => return ()
    | some searchStr => do
      let channels ← lift (queryChannels msg set)
      match queryPeriod env (env.now bot) set with
      | none => replyToIRCMessage msg (msg.getNick ++ ascii ", invalid period NaM")
      | some period =>
        match queryService set with
        | none => do
          let channel ← lift msg.firstParam
          sendPRIVMSG channel (msg.getNick ++ ascii ", invalid service NaM")
        | some service =>
          startQuery env kind msg {
            searchStr, channels, period, service
            users := (queryUsers msg set).1
            allUsers := (queryUsers msg set).2
            caseless := set.flag 8
            regex := set.flag 10 }
  else return ()

def countCommandFunc : IRCMessage → Bytes → BotM Unit := queryCommandFunc env .countCommand .count
def findCommandFunc : IRCMessage → Bytes → BotM Unit := queryCommandFunc env .findCommand .find

def clipText (lines : List IRCMessage) : Bytes :=
  lines.flatMap fun msg =>
    env.showTime msg.time ++ ascii " " ++ msg.getNick ++ ascii ": " ++ msg.getBody ++ ascii "\n"

def clipCommandFunc (msg : IRCMessage) (inputLine : Bytes) : BotM Unit := do
  let bot ← get
  if bot.isWhitelisted msg.getNick then
    let set := env.optionParser.parse [⟨ascii "-lines_from_now", [.number]⟩] inputLine
    let channel ← lift msg.firstParam
    match bot.channels.lookup channel with
    | none => return ()
    | some buffer =>
      match set.number 0 with
      | some lineCount =>
        if lineCount > 0 then
          -- Memory is reserved for the number asked for, however few lines there are.
          if env.reserves lineCount then
            let lines := (buffer.linesFromNow lineCount).map (·.shown (env.stale bot))
            post (.upload (clipText env lines) msg)
          else throw (.raise .lengthError)
        else return ()
      | none => sendPRIVMSG channel (msg.getNick ++ ascii ", " ++ ascii "Invalid params NaM")
  else return ()

/-- A change of the whitelist: whom it changes, how, and what is answered. -/
structure WhitelistChange where
  command : Commands
  applies : Bytes → Finset Bytes → Bool
  change : Bytes → Finset Bytes → Finset Bytes
  answer : Bytes

/-- The body `promoteCommandFunc` and `demoteCommandFunc` share. -/
def whitelistCommandFunc (change : WhitelistChange) (msg : IRCMessage) (inputLine : Bytes) : BotM Unit := do
  let bot ← get
  if bot.isModerator msg.getNick then
    let set := env.optionParser.parse [⟨change.command.text.command, [.word]⟩] inputLine
    match set.text 0 with
    | none => return ()
    | some word =>
      let user := toLowerCaseString word
      if change.applies user bot.whitelist then
        modify fun bot => { bot with whitelist := change.change user bot.whitelist }
        let channel ← lift msg.firstParam
        -- The answer is on its way before the save can fail.
        sendPRIVMSG channel (user ++ change.answer)
        saveConfig env
      else return ()
  else return ()

def promotion : WhitelistChange where
  command := .promoteCommand
  applies := fun user whitelist => user ∉ whitelist
  change := insert
  answer := ascii " promoted"

def demotion : WhitelistChange where
  command := .demoteCommand
  applies := fun user whitelist => user ∈ whitelist
  change := fun user whitelist => whitelist.erase user
  answer := ascii " demoted"

def promoteCommandFunc : IRCMessage → Bytes → BotM Unit :=
  whitelistCommandFunc env promotion

def demoteCommandFunc : IRCMessage → Bytes → BotM Unit :=
  whitelistCommandFunc env demotion

def joinCommandFunc (msg : IRCMessage) (inputLine : Bytes) : BotM Unit := do
  if (← get).isModerator msg.getNick then
    let set := env.optionParser.parse [⟨Commands.joinCommand.text.command, [.word]⟩] inputLine
    match set.text 0 with
    | none => return ()
    | some word =>
      let channel := toLowerCaseString (ascii "#" ++ word)
      sendJOIN channel
      sendPRIVMSG channel (ascii "monkaMEGA")
  else return ()

def partCommandFunc (msg : IRCMessage) (inputLine : Bytes) : BotM Unit := do
  if (← get).isModerator msg.getNick then
    let set := env.optionParser.parse [⟨Commands.partCommand.text.command, [.word]⟩] inputLine
    match set.text 0 with
    | none => return ()
    | some word => sendPART (formatIRCChannelName word)
  else return ()

def uptimeCommandFunc (msg : IRCMessage) (_ : Bytes) : BotM Unit := do
  let bot ← get
  if bot.isWhitelisted msg.getNick then
    let seconds := (env.now bot - bot.timeStarted) / ticksPerSecond
    let channel ← lift msg.firstParam
    sendPRIVMSG channel (msg.getNick ++ ascii ", " ++ env.showSeconds seconds)
  else return ()

/-- The channel of the option is a view into a temporary string that is gone when it is sent. -/
def sayCommandFunc (msg : IRCMessage) (inputLine : Bytes) : BotM Unit := do
  if (← get).isModerator msg.getNick then
    let set := env.optionParser.parse
      [⟨Commands.sayCommand.text.command, [.string]⟩, ⟨ascii "-channel", [.word]⟩, ⟨ascii "-echo", [.number]⟩]
      inputLine
    match set.text 0 with
    | some str => do
      let channel ← lift msg.firstParam
      let echo := match set.number 2 with
        | some echo => if echo > 5 then 5 else echo
        | none => 1
      (List.range echo).forM fun _ =>
        match set.text 1 with
        | some _ => throw (.fault .danglingView)
        | none => sendPRIVMSG channel str
    | none =>
      match env.optionParser.extractFirstWordDestructive inputLine with
      | some (_, rest) => do
        let channel ← lift msg.firstParam
        sendPRIVMSG channel rest
      | none => return ()
  else return ()

/-- Commands that only answer with a fixed text. -/
def answerCommandFunc (answer : Bytes) (msg : IRCMessage) : BotM Unit :=
  replyToIRCMessage msg (msg.getNick ++ ascii ", " ++ answer)

def pingCommandFunc (msg : IRCMessage) (_ : Bytes) : BotM Unit :=
  answerCommandFunc (ascii "PONG NaM " ++ [0xE2, 0x80, 0xBC]) msg

def commandsCommandFunc (msg : IRCMessage) (_ : Bytes) : BotM Unit :=
  answerCommandFunc (ascii "https://github.com/SaivNator/SaivBot#commands") msg

def flagsCommandFunc (msg : IRCMessage) (_ : Bytes) : BotM Unit :=
  answerCommandFunc (ascii "https://github.com/SaivNator/SaivBot#flags") msg

/-- The only command that looks at the user of the origin instead of its nick. -/
def testInsertmessageCommandFunc (msg : IRCMessage) (inputLine : Bytes) : BotM Unit := do
  if (← get).isModerator msg.getUser then
    let set := env.optionParser.parse [⟨Commands.testInsertmessageCommand.text.command, [.string]⟩] inputLine
    match set.text 0 with
    | some str => post (.insertMessage str)
    | none => return ()
  else return ()

def commandFunc : Commands → IRCMessage → Bytes → BotM Unit
  | .shutdown => shutdownCommandFunc
  | .helpCommand => helpCommandFunc env
  | .countCommand => countCommandFunc env
  | .findCommand => findCommandFunc env
  | .clipCommand => clipCommandFunc env
  | .promoteCommand => promoteCommandFunc env
  | .demoteCommand => demoteCommandFunc env
  | .joinCommand => joinCommandFunc env
  | .partCommand => partCommandFunc env
  | .uptimeCommand => uptimeCommandFunc env
  | .sayCommand => sayCommandFunc env
  | .pingCommand => pingCommandFunc
  | .commandsCommand => commandsCommandFunc
  | .flagsCommand => flagsCommandFunc
  | .testInsertmessageCommand => testInsertmessageCommandFunc env

/-- `m_command_containers`. -/
def commandContainers : List CommandContainer :=
  Commands.all.map fun command => { command.text with func := commandFunc env command }

end SaivBot
