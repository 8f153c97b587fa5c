import SaivBot.Bot.Channels
import SaivBot.Bot.Multipart
import SaivBot.Inquiries

/-! What a clip shows, in runs of the whole bot.

The buffer of a channel holds messages of that channel only, and a clip is cut from the
buffer of the channel it is asked for in. Whatever throws in a handler, no message finds
its way into another channel's clip.
-/

set_option autoImplicit false

namespace SaivBot
open Program BotState Transition ReadBuffer DelimitedLines NuulsUploader

variable (env : Environment)

/-- The text lists messages of the channel the clip was asked for in, no more than a buffer holds, as they show
themselves after the move. -/
def Clips (text : Bytes) (ircMsg : IRCMessage) : Prop :=
  ∃ channel, ∃ lines : List IRCMessage, ∃ stale, Speaks channel ircMsg ∧ lines.length ≤ messageBufferSize ∧
    (∀ line ∈ lines, Speaks channel line ∧ NoLineBreak line.data) ∧
    text = clipText env (lines.map (·.move.shown stale))

def Posted.Archived : Posted → Prop
  | .upload text ircMsg => Clips env text ircMsg
  | .insertMessage str => NoLineBreak str
  | _ => True

/-- Each buffer holds messages of its channel, and each is one line; so is each that will get there. -/
structure BotState.Archives (bot : BotState) : Prop where
  kept : ∀ channel buffer, bot.channels.lookup channel = some buffer → buffer.capacity = messageBufferSize ∧
    ∃ messages : List IRCMessage, buffer.queue = messages.map IRCMessage.move ∧
      ∀ msg ∈ messages, Speaks channel msg ∧ NoLineBreak msg.data
  queued : ∀ msg ∈ bot.msgPreBuffer, NoLineBreak msg.data
  posted : ∀ work ∈ bot.posted, work.Archived env

variable {env} {bot bot' : BotState} {msg : IRCMessage}

theorem archives_loaded (file : ConfigFile) (text : Bytes) : (loaded file text).Archives env := by
  refine ⟨?_, by simp [loaded], by simp [loaded]⟩
  intro channel buffer known
  rw [lookup_loaded] at known
  obtain ⟨-, same⟩ := Option.ite_none_right_eq_some.mp known
  cases same
  exact ⟨rfl, [], rfl, by simp⟩

theorem BotState.Archives.posting (archives : bot.Archives env) {work : Posted} (fine : work.Archived env) :
    (bot.posting work).Archives env := by
  refine ⟨archives.kept, archives.queued, ?_⟩
  intro other member
  rcases List.mem_append.mp member with old | new
  · exact archives.posted other old
  · rw [List.mem_singleton.mp new]
    exact fine

theorem BotState.Archives.take (archives : bot.Archives env) {posted : List Posted} (subset : posted ⊆ bot.posted) :
    BotState.Archives env { bot with posted := posted } :=
  ⟨archives.kept, archives.queued, fun work member => archives.posted work (subset member)⟩

theorem BotState.Archives.queue (archives : bot.Archives env) {messages : List IRCMessage}
    (clean : ∀ msg ∈ messages, NoLineBreak msg.data) : BotState.Archives env { bot with msgPreBuffer := messages } :=
  ⟨archives.kept, clean, archives.posted⟩

/-! One message. -/

/-- The lines are the last of the messages the buffer is filled with. -/
theorem linesFromNow_moved {buffer : IRCMessageBuffer} {messages : List IRCMessage}
    (queue : buffer.queue = messages.map IRCMessage.move) (lineCount : Nat) :
    buffer.linesFromNow lineCount = (messages.rtake lineCount).map IRCMessage.move := by
  rw [IRCMessageBuffer.linesFromNow, queue, ← List.rtake_eq_reverse_take_reverse, map_rtake]

/-- What a message causes is cut from its own channel. -/
theorem archived_causes (libraries : env.Unbroken) (clean : NoLineBreak msg.data) (archives : bot.Archives env)
    {work : Posted} (causes : Causes env msg bot work) : work.Archived env := by
  have unbroken := unbroken_causes libraries clean causes
  cases causes with
  | command privmsg _ _ posts =>
    cases posts with
    | @clip channel buffer lineCount stale _ named known =>
      -- The buffer is that of the channel the clip was asked for in.
      obtain ⟨capacity, messages, queue, inside⟩ := archives.kept channel buffer known
      refine ⟨channel, messages.rtake lineCount, stale, ⟨privmsg, named⟩, ?_, ?_, ?_⟩
      · have few := buffer.bounded
        rw [queue, List.length_map, capacity] at few
        exact (List.drop_sublist _ _).length_le.trans few
      · exact fun line member => inside line (List.mem_of_mem_drop member)
      · rw [linesFromNow_moved queue, List.map_map]
        rfl
    | insertMessage _ _ => exact unbroken
    | _ => trivial
  | _ => trivial

theorem absorbs_archives (libraries : env.Unbroken) (clean : NoLineBreak msg.data) (archives : bot.Archives env) :
    AbsorbsCommand env msg bot (Maintains (BotState.Archives env)) where
  posting _ _ causes archives' := archives'.posting (archived_causes libraries clean archives causes)
  configFile _ _ archives' := ⟨archives'.kept, archives'.queued, archives'.posted⟩
  whitelist _ _ _ _ archives' := ⟨archives'.kept, archives'.queued, archives'.posted⟩

/-- A message of a channel is kept in the channel's buffer. -/
theorem BotState.Archives.buffering (archives : bot.Archives env) {channel : Bytes} (speaks : Speaks channel msg)
    (clean : NoLineBreak msg.data) : (bot.buffering channel msg).Archives env := by
  cases known : bot.channels.lookup channel with
  | none =>
    rw [buffering_none known]
    exact archives
  | some buffer =>
    rw [buffering_some known]
    refine ⟨?_, archives.queued, archives.posted⟩
    intro other found there
    by_cases same : other = channel
    · subst same
      obtain rfl : buffer.push msg = found := by simpa using there
      obtain ⟨capacity, messages, queue, inside⟩ := archives.kept other buffer known
      refine ⟨capacity, (messages ++ [msg]).rtake buffer.capacity, ?_, fun line member => ?_⟩
      · rw [IRCMessageBuffer.queue_push, queue, map_rtake, List.map_append]
        rfl
      · rcases List.mem_append.mp (List.mem_of_mem_drop member) with old | new
        · exact inside line old
        · rw [List.mem_singleton.mp new]
          exact ⟨speaks, clean⟩
    · rw [AList.lookup_insert_ne same] at there
      exact archives.kept other found there

theorem BotState.Archives.joining (archives : bot.Archives env) (channel : Bytes) :
    BotState.Archives env { bot with channels := bot.channels.insert channel (.empty messageBufferSize) } := by
  refine ⟨?_, archives.queued, archives.posted⟩
  intro other buffer known
  by_cases same : other = channel
  · subst same
    obtain rfl : IRCMessageBuffer.empty messageBufferSize = buffer := by simpa using known
    exact ⟨rfl, [], rfl, by simp⟩
  · rw [AList.lookup_insert_ne same] at known
    exact archives.kept other buffer known

theorem BotState.Archives.parting (archives : bot.Archives env) (channel : Bytes) :
    BotState.Archives env { bot with channels := bot.channels.erase channel } := by
  refine ⟨?_, archives.queued, archives.posted⟩
  intro other buffer known
  by_cases same : other = channel
  · subst same
    simp at known
  · rw [AList.lookup_erase_ne same] at known
    exact archives.kept other buffer known

/-- However its processing ends, a message that is one line leaves the buffers in order. -/
theorem leads_archives (libraries : env.Unbroken) (clean : NoLineBreak msg.data) :
    Leads (Maintains (BotState.Archives env)) (processMessage env (commandContainers env) msg) bot := by
  intro archives
  have absorbs := absorbs_archives libraries clean archives
  -- The command looks at the buffers as they are before the message.
  refine (?_ : Leads (Maintains (BotState.Archives env)) _ bot) archives
  by_cases privmsg : msg.getCommand = ascii "PRIVMSG"
  · rw [processMessage_privmsg privmsg]
    apply leads_bind (leads_speech absorbs privmsg)
    intro _ bot' _
    apply leads_lift_bind
    exact fun channel named archives' => archives'.buffering ⟨privmsg, named⟩ clean
  rw [processMessage, if_neg privmsg]
  apply leads_ite
  · exact fun ping => absorbs.posting bot (.pong ping)
  intro _
  apply leads_ite
  · intro reconnect archives'
    have suspended : BotState.Archives env { bot with suspendRead := true } :=
      ⟨archives'.kept, archives'.queued, archives'.posted⟩
    exact suspended.posting trivial
  intro _
  apply leads_get_bind
  apply leads_ite _ fun _ => leads_pure _ bot
  intro _
  apply leads_ite
  · intro _
    apply leads_lift_bind
    intro channel _
    apply leads_get_bind
    split
    · exact leads_pure _ bot
    · exact leads_modify_bind (fun archives' => archives'.joining channel) (leads_saveConfig absorbs _)
  intro _
  apply leads_ite _ fun _ => leads_pure _ bot
  intro _
  apply leads_lift_bind
  intro channel _
  apply leads_get_bind
  split
  · exact leads_pure _ bot
  · exact leads_modify_bind (fun archives' => archives'.parting channel) (leads_saveConfig absorbs _)

/-- Whatever the read strand does. -/
theorem strand_archives (libraries : env.Unbroken) :
    ReadStrand.AbsorbsStrand env (Maintains (BotState.Archives env)) where
  message := by
    intro msg rest bot queue archives
    have clean : NoLineBreak msg.data := archives.queued msg (by rw [queue]; exact List.mem_cons_self)
    exact leads_archives libraries clean archives
  consumed _ archives := archives.queue fun msg member => archives.queued msg (List.mem_of_mem_tail member)
  filled _ _ archives := ⟨archives.kept, archives.queued, archives.posted⟩
  emplaced _ _ clean archives := archives.queue (List.forall_mem_append.mpr ⟨archives.queued, by simpa using clean⟩)
  reads _ _ archives := ⟨archives.kept, archives.queued, archives.posted⟩
  resumed _ archives := ⟨archives.kept, archives.queued, archives.posted⟩
  greeting _ _ _ archives := archives.posting trivial
  started _ _ archives := ⟨archives.kept, archives.queued, archives.posted⟩
  taken _ _ _ _ posted archives := archives.take (by rw [posted]; simp)
  inserted := by
    intro bot msg before after posted archives
    have clean : NoLineBreak msg.data := archives.posted (.insertMessage msg.data) (by rw [posted]; simp)
    have rest : BotState.Archives env { bot with posted := before ++ after } := archives.take (by rw [posted]; simp)
    exact rest.queue (List.forall_mem_append.mpr ⟨archives.queued, by simpa using clean⟩)

/-! Clips under way. -/

namespace Errand

variable (env)

/-- What is uploaded is a clip. -/
def Archived : Errand → Prop
  | .clip ircMsg uploader => ∃ text, uploader.request = packBody text ∧ Clips env text ircMsg
  | _ => True

variable {env}

theorem Archived.step {errand errand' : Errand} {event : Finding.Event} {lines : List Bytes}
    (archived : errand.Archived env) (stepped : errand.step event = some (errand', lines)) : errand'.Archived env := by
  cases moves_of_step stepped with
  | count | find => trivial
  | clip moved =>
    obtain ⟨text, request, clips⟩ := archived
    exact ⟨text, (NuulsUploader.step_texts moved).1.trans request, clips⟩

/-- A clip posts the link, where the clip was asked for. -/
theorem clip_posts {channel : Bytes} {ircMsg : IRCMessage} (speaks : Speaks channel ircMsg) {uploader : NuulsUploader}
    {event : Finding.Event} {errand' : Errand} {lines : List Bytes}
    (stepped : (Errand.clip ircMsg uploader).step event = some (errand', lines)) :
    lines = [] ∨ lines = [privmsg channel (ircMsg.getNick ++ ascii ", " ++ uploader.response)] := by
  cases moves_of_step stepped with
  | @clip _ _ _ _ _ _ called moved =>
    cases called with
    | none => exact .inl rfl
    | some str =>
      obtain ⟨rfl, -⟩ := (NuulsUploader.step_texts moved).2.2 str rfl
      have link : clipCommandCallback ircMsg uploader.response =
          .ok (privmsg channel (ircMsg.getNick ++ ascii ", " ++ uploader.response)) := by
        rw [clipCommandCallback, IRCMessage.replyLine, if_pos speaks.1, speaks.2]
        rfl
      right
      simp [link, Except.toOption]

end Errand

namespace System

variable {start s : System}

def clippedTwice : BotState :=
  final (ReadStrand.onRead clipEnvironment (clipMessage.data ++ crlf ++ (clipMessage.data ++ crlf))
    (ReadStrand.completeRead connected.bot))

def secondClip : Bytes := ascii " u: saiv clip -lines_from_now 1\n"

end System

end SaivBot
