import SaivBot.Fault
import SaivBot.Message.Parsing

/-! The lines the bot answers with. -/

set_option autoImplicit false

namespace SaivBot

/-- `sendPRIVMSG` without the test mode's suffix. -/
def privmsg (channel msg : Bytes) : Bytes := ascii "PRIVMSG " ++ channel ++ ascii " :" ++ msg

/-- `sendWHISPER`. -/
def whisper (target msg : Bytes) : Bytes :=
  ascii "PRIVMSG #jtv :" ++ ascii "/w " ++ target ++ ascii " " ++ msg

/-- `sendJOIN`. -/
def joinLine (channel : Bytes) : Bytes := ascii "JOIN " ++ channel

/-- `sendPART`. -/
def partLine (channel : Bytes) : Bytes := ascii "PART " ++ channel

namespace IRCMessage

/-- `getParams()[0]`. -/
def firstParam (msg : IRCMessage) : Except Abort Bytes :=
  match msg.getParams with
  | [] => .error (.fault .emptyParams)
  | param :: _ => .ok param

/-- The line `replyToIRCMessage` posts. -/
def replyLine (msg : IRCMessage) (reply : Bytes) : Except Abort Bytes :=
  if msg.getCommand = ascii "PRIVMSG" then
    msg.firstParam.map fun channel => privmsg channel reply
  else if msg.getCommand = ascii "WHISPER" then .ok (whisper msg.getNick reply)
  else .error (.raise .cantReply)

/-- A reply is a PRIVMSG; a whisper is one to the channel of a bot of the network. -/
theorem replyLine_privmsg {msg : IRCMessage} {reply line : Bytes} (made : msg.replyLine reply = .ok line) :
    ∃ channel text, line = privmsg channel text := by
  unfold replyLine at made
  split at made
  · cases named : msg.firstParam with
    | error abort =>
      rw [named] at made
      cases made
    | ok channel =>
      rw [named] at made
      cases made
      exact ⟨channel, reply, rfl⟩
  · split at made
    · cases made
      have channel : ascii "PRIVMSG #jtv :" = ascii "PRIVMSG " ++ ascii "#jtv" ++ ascii " :" := by decide
      refine ⟨ascii "#jtv", ascii "/w " ++ msg.getNick ++ ascii " " ++ reply, ?_⟩
      rw [whisper, privmsg, channel]
      simp only [List.append_assoc]
    · cases made

end IRCMessage

/-- A message the bot can answer in a channel: a PRIVMSG that names one. Command handlers run on no
other message. -/
structure Request where
  ircMsg : IRCMessage
  channel : Bytes
  privmsg : ircMsg.getCommand = ascii "PRIVMSG"
  names : ircMsg.getParams.head? = some channel

namespace Request

theorem firstParam (request : Request) : request.ircMsg.firstParam = .ok request.channel := by
  have names := request.names
  unfold IRCMessage.firstParam
  cases shape : request.ircMsg.getParams with
  | nil => simp [shape] at names
  | cons param more => simpa [shape] using names

theorem replyLine (request : Request) (reply : Bytes) :
    request.ircMsg.replyLine reply = .ok (SaivBot.privmsg request.channel reply) := by
  unfold IRCMessage.replyLine
  rw [request.privmsg, request.firstParam]
  rfl

end Request

end SaivBot
