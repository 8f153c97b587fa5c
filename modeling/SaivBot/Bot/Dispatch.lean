import SaivBot.Bot.Commands
import SaivBot.Message.Totality

/-! `consumeMsgBuffer`: what the bot does with each line it has received. -/

set_option autoImplicit false

namespace SaivBot
open Program BotState

def parseFreeMessage (msg : IRCMessage) : BotM Unit :=
  match StringView.findText (ascii "A multi-raffle has begun") msg.getBody with
  | some _ => do
    let channel ← lift msg.firstParam
    sendPRIVMSG channel (ascii "!join")
  | none => return ()

/-- The command named by the second word of a message whose first word is the bot's nick. -/
def runCommand (optionParser : OptionParser) (containers : List CommandContainer) (msg : IRCMessage) :
    BotM Unit :=
  match optionParser.extractFirstWordDestructive msg.getBody with
  | none => return ()
  | some (firstWord, localView) => do
    if caselessCompare firstWord (← get).nick then
      let pair := optionParser.extractFirstWord localView
      if pair.1 ≠ [] then
        match containers.find? fun cc => caselessCompare cc.command pair.1 with
        | some cc => cc.func msg localView
        | none => return ()
      else return ()
    else return ()

/-- A channel the bot follows keeps the message, which is moved there. -/
def bufferMessage (msg : IRCMessage) : BotM Unit := do
  let channel ← lift msg.firstParam
  modify fun bot =>
    match bot.channels.lookup channel with
    | some buffer => { bot with channels := bot.channels.insert channel (buffer.push msg) }
    | none => bot

/-- The state behind `bufferMessage`, for the channel the message names. -/
def BotState.buffering (bot : BotState) (channel : Bytes) (msg : IRCMessage) : BotState :=
  match bot.channels.lookup channel with
  | some buffer => { bot with channels := bot.channels.insert channel (buffer.push msg) }
  | none => bot

theorem BotState.buffering_some {bot : BotState} {channel : Bytes} {buffer : IRCMessageBuffer}
    (known : bot.channels.lookup channel = some buffer) (msg : IRCMessage) :
    bot.buffering channel msg = { bot with channels := bot.channels.insert channel (buffer.push msg) } := by
  rw [buffering, known]

theorem BotState.buffering_none {bot : BotState} {channel : Bytes} (unknown : bot.channels.lookup channel = none)
    (msg : IRCMessage) : bot.buffering channel msg = bot := by
  rw [buffering, unknown]

/-- Keeping a message changes the channels and nothing else. -/
theorem preserves_bufferMessage {τ : Type} {view : BotState → τ}
    (channels : ∀ bot channels, view { bot with channels := channels } = view bot) (msg : IRCMessage) :
    Preserves view (bufferMessage msg) := by
  apply preserves_bind (preserves_lift _)
  intro channel
  apply preserves_modify
  intro bot
  split
  · exact channels bot _
  · rfl

def ownJoin (env : Environment) (msg : IRCMessage) : BotM Unit := do
  let channel ← lift msg.firstParam
  match (← get).channels.lookup channel with
  | some _ => return ()
  | none => do
    modify fun bot =>
      { bot with channels := bot.channels.insert channel (IRCMessageBuffer.empty messageBufferSize) }
    saveConfig env

def ownPart (env : Environment) (msg : IRCMessage) : BotM Unit := do
  let channel ← lift msg.firstParam
  match (← get).channels.lookup channel with
  | none => return ()
  | some _ => do
    modify fun bot => { bot with channels := bot.channels.erase channel }
    saveConfig env

/-- What an iteration does with the message. -/
def processMessage (env : Environment) (containers : List CommandContainer) (msg : IRCMessage) :
    BotM Unit := do
  if msg.getCommand = ascii "PRIVMSG" then
    parseFreeMessage msg
    -- The command reads the message before it is moved into its buffer.
    runCommand env.optionParser containers msg
    bufferMessage msg
  else if msg.getCommand = ascii "PING" then postSendIRC (ascii "PONG")
  else if msg.getCommand = ascii "RECONNECT" then postDoRECONNECT
  else if caselessCompare msg.getNick (← get).nick then
    if msg.getCommand = ascii "JOIN" then ownJoin env msg
    else if msg.getCommand = ascii "PART" then ownPart env msg
    else return ()
  else return ()

/-- One iteration of the loop: a message is removed once it has been processed. -/
def consumeFront (env : Environment) (containers : List CommandContainer) : BotM Bool := do
  match (← get).msgPreBuffer with
  | [] => return false
  | ircMsg :: _ => do
    processMessage env containers ircMsg
    -- An exception above leaves the message in front.
    modify fun bot => { bot with msgPreBuffer := bot.msgPreBuffer.tail }
    return true

/-- `while (!m_msg_pre_buffer.empty())`. Processing does not add to the queue, so its length is enough
fuel. -/
def consumeMsgBuffer (env : Environment) (containers : List CommandContainer) : BotM Unit := do
  loop (consumeFront env containers) ((← get).msgPreBuffer.length + 1)

/-- A received line, from the constructor of its message to the end of its processing. -/
def receiveLine (env : Environment) (containers : List CommandContainer) (line : Bytes) : BotM Unit := do
  let bot ← get
  let msg ← lift ((IRCMessage.ofLine (env.now bot) line).mapError Abort.ofView)
  processMessage env containers msg

end SaivBot
