import Mathlib.Data.Finset.Basic
import Mathlib.Data.Finset.Dedup
import Mathlib.Data.List.AList
import SaivBot.Calendar.Gregorian
import SaivBot.Logs.Matching
import SaivBot.Logs.Request
import SaivBot.Message.Moving
import SaivBot.Program

/-! The bot's state as its read strand sees it, and the operations the command handlers share.

Whatever a handler starts elsewhere (a line for the send strand, a download, an
upload) is posted; it runs after the handler. The build is a release build, in
which assertions do nothing.
-/

set_option autoImplicit false

namespace SaivBot
open Civil Program

/-- The last messages of a channel. -/
structure IRCMessageBuffer where
  capacity : Nat
  queue : List MovedMessage
  bounded : queue.length ≤ capacity

namespace IRCMessageBuffer

def empty (capacity : Nat) : IRCMessageBuffer := ⟨capacity, [], Nat.zero_le _⟩

def push (buffer : IRCMessageBuffer) (msg : IRCMessage) : IRCMessageBuffer where
  capacity := buffer.capacity
  -- The oldest message makes room.
  queue :=
    if (buffer.queue ++ [msg.move]).length > buffer.capacity then (buffer.queue ++ [msg.move]).drop 1
    else buffer.queue ++ [msg.move]
  bounded := by
    have bounded := buffer.bounded
    split
    · simp only [List.length_drop, List.length_append, List.length_singleton]
      omega
    · next fits => exact Nat.le_of_not_lt fits

/-- The lines handed to the function of `accessLinesFromNow`, oldest first. -/
def linesFromNow (buffer : IRCMessageBuffer) (lineCount : Nat) : List MovedMessage :=
  (buffer.queue.reverse.take lineCount).reverse

end IRCMessageBuffer

/-- What the configuration file holds. The channel names are written in no particular order. -/
structure Config where
  host : Bytes
  port : Bytes
  nick : Bytes
  password : Bytes
  modlist : Finset Bytes
  whitelist : Finset Bytes
  channels : Finset Bytes

inductive QueryKind where
  | count
  | find
  deriving DecidableEq, Repr

/-- What a count or find command was asked for. -/
structure QueryPlan where
  searchStr : Bytes
  channels : List Bytes
  users : List Bytes
  allUsers : Bool
  period : TimeDetail.TimePeriod
  caseless : Bool
  service : LogService
  regex : Bool

/-- Work handed to another strand or connection. -/
inductive Posted where
  | sendIRC (line : Bytes)
  | suspendWrite
  | shutdown
  | insertMessage (str : Bytes)
  | download (kind : QueryKind) (plan : QueryPlan) (msg : IRCMessage) (request : LogRequest)
  | upload (text : Bytes) (msg : IRCMessage)

def Posted.isSuspendWrite : Posted → Bool
  | .suspendWrite => true
  | _ => false

structure BotState where
  host : Bytes
  port : Bytes
  nick : Bytes
  password : Bytes
  modlist : Finset Bytes
  whitelist : Finset Bytes
  channels : AList fun _ : Bytes => IRCMessageBuffer
  timeStarted : TimePoint
  buffer : Bytes
  msgPreBuffer : List IRCMessage
  suspendRead : Bool
  /-- The calls of `async_read_some` whose handler has not run yet. -/
  pendingReads : Nat
  posted : List Posted
  configFile : Bytes

def BotState.config (bot : BotState) : Config where
  host := bot.host
  port := bot.port
  nick := bot.nick
  password := bot.password
  modlist := bot.modlist
  whitelist := bot.whitelist
  channels := bot.channels.keys.toFinset

/-! The libraries the handlers use. -/

inductive OptionKind where
  | string
  | word
  | list
  | number
  deriving DecidableEq, Repr

structure OptionSpec where
  name : Bytes
  kinds : List OptionKind

/-- The result of `Parser::parse`, by the index of the option and the type of its arguments. -/
structure OptionSet where
  text : Nat → Option Bytes
  texts : Nat → Option (List Bytes)
  pair : Nat → Option (Bytes × Bytes)
  number : Nat → Option Nat
  flag : Nat → Bool

structure OptionParser where
  /-- The first word and what is left of the view. -/
  extractFirstWordDestructive : Bytes → Option (Bytes × Bytes)
  extractFirstWord : Bytes → Bytes × Bytes
  parse : List OptionSpec → Bytes → OptionSet

structure Environment where
  optionParser : OptionParser
  calendar : Calendar
  dateParser : DateParser
  regex : RegexEngine
  /-- `vector::reserve` succeeds for this many elements. -/
  reserves : Nat → Bool
  now : BotState → TimePoint
  /-- What lies where the text of a message was before it was moved into its buffer. -/
  stale : BotState → IRCMessage → Bytes
  /-- The configuration file can be opened for writing. -/
  opensConfig : BotState → Bool
  /-- What the JSON serialiser writes, and whether it reaches the end. In which order it goes through a set is its
  own matter. -/
  dump : Config → Bytes × Bool
  /-- `<<` of a time point, and of a duration in seconds. -/
  showTime : TimePoint → Bytes
  showSeconds : Int → Bytes

/-- `std::regex` constructs from this pattern. -/
def Environment.regexAccepts (env : Environment) (pattern : Bytes) : Bool := (env.regex.compile pattern).isSome

abbrev BotM := EStateM Abort BotState

namespace BotState

def messageBufferSize : Nat := 1000

def isModerator (bot : BotState) (user : Bytes) : Bool := decide (toLowerCaseString user ∈ bot.modlist)
def isWhitelisted (bot : BotState) (user : Bytes) : Bool := decide (toLowerCaseString user ∈ bot.whitelist)

def posting (bot : BotState) (work : Posted) : BotState := { bot with posted := bot.posted ++ [work] }

def post (work : Posted) : BotM Unit := modify (·.posting work)

def postSendIRC (line : Bytes) : BotM Unit := post (.sendIRC line)

def sendPRIVMSG (channel msg : Bytes) : BotM Unit := postSendIRC (privmsg channel msg)
def sendJOIN (channel : Bytes) : BotM Unit := postSendIRC (joinLine channel)
def sendPART (channel : Bytes) : BotM Unit := postSendIRC (partLine channel)

def replyToIRCMessage (msg : IRCMessage) (reply : Bytes) : BotM Unit := do
  let line ← lift (msg.replyLine reply)
  postSendIRC line

def doShutdown : BotM Unit := post .shutdown

def postDoRECONNECT : BotM Unit := do
  modify fun bot => { bot with suspendRead := true }
  post .suspendWrite

/-- Opening with `trunc` empties the file before the serialiser runs. -/
def saveConfig (env : Environment) : BotM Unit := do
  let bot ← get
  if env.opensConfig bot then
    modify fun bot => { bot with configFile := (env.dump bot.config).1 }
    if (env.dump bot.config).2 then return () else throw (.raise .saveConfig)
  else throw (.raise .saveConfig)

/-- `saveConfig` reaches its end. -/
def Saves (env : Environment) (bot : BotState) : Prop :=
  env.opensConfig bot = true ∧ (env.dump bot.config).2 = true

/-- A save changes the file and nothing else. -/
theorem preserves_saveConfig {τ : Type} {view : BotState → τ} (env : Environment)
    (configFile : ∀ bot text, view { bot with configFile := text } = view bot) : Preserves view (saveConfig env) := by
  unfold saveConfig
  apply preserves_bind preserves_get
  intro bot
  apply preserves_ite
  · apply preserves_bind
    · exact preserves_modify fun bot => configFile bot _
    · exact fun _ => preserves_ite (preserves_pure _) (preserves_throw _)
  · exact preserves_throw _

/-- A view of the bot that no command changes: it does not see the whitelist, the file it is saved in, or
the work a command can post. -/
structure Blind {τ : Type} (view : BotState → τ) : Prop where
  posting : ∀ bot work, work ≠ .suspendWrite → view (bot.posting work) = view bot
  whitelist : ∀ bot users, view { bot with whitelist := users } = view bot
  configFile : ∀ bot text, view { bot with configFile := text } = view bot

/-! Every shared operation leaves such a view alone. -/

section

variable {τ : Type} {view : BotState → τ} (blind : Blind view)

include blind

theorem preserves_post {work : Posted} (other : work ≠ .suspendWrite) : Preserves view (post work) :=
  preserves_modify fun bot => blind.posting bot work other

theorem preserves_postSendIRC (line : Bytes) : Preserves view (postSendIRC line) := preserves_post blind nofun

end

@[simp] theorem returns_post (work : Posted) (bot : BotState) : Returns (post work) bot :=
  returns_modify _ bot

@[simp] theorem returns_post_bind {β : Type} (work : Posted) (f : Unit → BotM β) (bot : BotState) :
    Returns (post work >>= f) bot ↔ Returns (f ()) (bot.posting work) := returns_modify_bind _ f bot

theorem returns_saveConfig_iff (env : Environment) (bot : BotState) :
    Returns (saveConfig env) bot ↔ Saves env bot := by
  unfold saveConfig Saves
  rw [returns_get_bind]
  cases env.opensConfig bot with
  | false => simp
  | true => cases (env.dump bot.config).2 <;> simp

end BotState

/-! A bot with no libraries to speak of, as its constructor leaves it. -/

def bareEnvironment : Environment where
  optionParser := {
    extractFirstWordDestructive _ := none
    extractFirstWord input := ([], input)
    parse _ _ := ⟨fun _ => none, fun _ => none, fun _ => none, fun _ => none, fun _ => false⟩ }
  calendar := Civil.gregorian
  dateParser := ⟨fun _ _ => none, fun _ _ => none, fun _ _ => none⟩
  regex := letterRegex
  reserves _ := true
  now _ := 0
  stale _ _ := []
  opensConfig _ := true
  dump _ := ([], true)
  showTime _ := []
  showSeconds _ := []

def bareBot (nick : Bytes) : BotState where
  host := []
  port := []
  nick := nick
  password := []
  modlist := ∅
  whitelist := ∅
  channels := ∅
  timeStarted := 0
  buffer := []
  msgPreBuffer := []
  suspendRead := true
  pendingReads := 0
  posted := []
  configFile := []

end SaivBot
