import SaivBot.Bot.Effects
import SaivBot.Bot.Reading
import SaivBot.Message.LineBreaks

/-! What holds across everything the read strand does.

A handler of the read strand cuts lines, processes messages and starts reads. A relation
that holds across each of these holds across every step, whatever throws in it.
-/

set_option autoImplicit false

namespace SaivBot
open Program BotState ReadBuffer DelimitedLines

namespace ReadStrand

/-- The lines of a handshake: a greeting in the bot's own channel, and the channels it follows. -/
inductive Greeting (bot : BotState) : Bytes → Prop where
  | own : Greeting bot (joinLine (formatIRCChannelName bot.nick))
  | text : Greeting bot (privmsg (formatIRCChannelName bot.nick) (ascii "monkaMEGA"))
  | joins {channel : Bytes} : channel ∈ bot.channels → Greeting bot (joinLine channel)

variable (env : Environment)

/-- The relation holds across each thing that a handler of the read strand does. A message that is processed is the
first of the queue, and one that is put there was cut from the buffer or posted. -/
structure AbsorbsStrand (R : BotState → BotState → Prop) : Prop where
  message : ∀ {msg : IRCMessage} {rest : List IRCMessage} {bot : BotState}, bot.msgPreBuffer = msg :: rest →
    Leads R (processMessage env (commandContainers env) msg) bot
  consumed : ∀ bot : BotState, R bot { bot with msgPreBuffer := bot.msgPreBuffer.tail }
  filled : ∀ (bot : BotState) (buffer : Bytes), R bot { bot with buffer := buffer }
  emplaced : ∀ (bot : BotState) {msg : IRCMessage}, NoLineBreak msg.data →
    R bot { bot with msgPreBuffer := bot.msgPreBuffer ++ [msg] }
  reads : ∀ (bot : BotState) (pending : Nat), R bot { bot with pendingReads := pending }
  resumed : ∀ bot : BotState, R bot { bot with suspendRead := false }
  greeting : ∀ (bot : BotState) {line : Bytes}, Greeting bot line → R bot (bot.posting (.sendIRC line))
  started : ∀ (bot : BotState) (time : TimePoint), R bot { bot with timeStarted := time }
  taken : ∀ (bot : BotState) {str : Bytes} {before after : List Posted},
    bot.posted = before ++ .insertMessage str :: after → R bot { bot with posted := before ++ after }
  inserted : ∀ (bot : BotState) {msg : IRCMessage} {before after : List Posted},
    bot.posted = before ++ .insertMessage msg.data :: after →
    R bot { bot with posted := before ++ after, msgPreBuffer := bot.msgPreBuffer ++ [msg] }

variable {env} {R : BotState → BotState → Prop} [IsPreorder BotState R]

section

variable (absorbs : AbsorbsStrand env R)

include absorbs

theorem leads_emplace {line : Bytes} (clean : NoLineBreak line) (bot : BotState) :
    Leads R (emplaceMessage env line) bot := by
  apply leads_get_bind
  apply leads_lift_bind
  intro msg made
  exact absorbs.emplaced bot (IRCMessage.data_ofLine (mapError_eq_ok.mp made) ▸ clean)

/-- The line that is cut off ends in front of the first line break. -/
theorem leads_cut (bot : BotState) : Leads R (parseLine env) bot := by
  apply leads_get_bind
  split
  · exact leads_pure _ bot
  · next n found =>
    apply leads_ite _ fun _ => leads_throw _ bot
    intro _
    have clean : NoLineBreak (bot.buffer.take n) := by
      obtain ⟨line, c, rest, text, rfl, -, misses⟩ := StringView.findChar_split found
      rw [text, List.take_left]
      exact (noLineBreak_iff line).mpr misses
    apply leads_modify_bind (absorbs.filled bot _)
    exact leads_bind (leads_emplace absorbs clean _) fun _ bot' _ => leads_pure _ bot'

theorem leads_consume (bot : BotState) : Leads R (consumeMsgBuffer env (commandContainers env)) bot := by
  refine leads_get_bind (leads_loop (fun bot => ?_) _ bot)
  apply leads_get_bind
  split
  · exact leads_pure _ bot
  · next msg rest queue =>
    apply leads_bind (absorbs.message queue)
    intro _ bot' _
    exact leads_modify_bind (absorbs.consumed bot') (leads_pure _ _)

theorem leads_read (chunk : Bytes) (bot : BotState) : Leads R (onRead env chunk) bot := by
  apply leads_modify_bind (absorbs.filled bot _)
  apply leads_bind (leads_get_bind (leads_loop (leads_cut absorbs) _ _))
  intro _ parsed _
  apply leads_bind (leads_consume absorbs parsed)
  intro _ consumed _
  apply leads_get_bind
  exact leads_ite (fun _ => absorbs.reads consumed _) fun _ => leads_pure _ consumed

/-- The text is taken off what is posted, and its message put behind the queue. -/
theorem strand_insert {bot : BotState} {str : Bytes} {before after : List Posted}
    (posted : bot.posted = before ++ .insertMessage str :: after) :
    R bot (final (insertMessage env str { bot with posted := before ++ after })) := by
  cases made : (IRCMessage.ofLine (env.now { bot with posted := before ++ after }) str).mapError Abort.ofView with
  | error abort =>
    have stopped : final (insertMessage env str { bot with posted := before ++ after }) =
        { bot with posted := before ++ after } := by
      simp only [insertMessage, emplaceMessage]
      rw [bind_error (by rw [get_bind, made]; rfl)]
      rfl
    rw [stopped]
    exact absorbs.taken bot posted
  | ok msg =>
    have data : msg.data = str := IRCMessage.data_ofLine (mapError_eq_ok.mp made)
    have goesOn : insertMessage env str { bot with posted := before ++ after } =
        consumeMsgBuffer env (commandContainers env)
          { bot with posted := before ++ after, msgPreBuffer := bot.msgPreBuffer ++ [msg] } := by
      simp only [insertMessage, emplaceMessage]
      rw [bind_ok (by rw [get_bind, made]; rfl)]
    rw [goesOn]
    exact IsTrans.trans _ _ _ (absorbs.inserted bot (data ▸ posted)) (leads_consume absorbs _)

omit [IsPreorder BotState R] in
theorem leads_send {bot : BotState} {line : Bytes} (greeting : Greeting bot line) : Leads R (postSendIRC line) bot :=
  absorbs.greeting bot greeting

theorem leads_joins {channels : List Bytes} {bot : BotState} (known : ∀ channel ∈ channels, channel ∈ bot.channels) :
    Leads R (channels.forM sendJOIN) bot := by
  induction channels generalizing bot with
  | nil => exact leads_pure _ bot
  | cons channel channels ih =>
    apply leads_bind (leads_send absorbs (.joins (known channel List.mem_cons_self)))
    rintro _ bot' ⟨⟩
    exact ih fun other member => known other (List.mem_cons_of_mem channel member)

theorem leads_handshake (bot : BotState) : Leads R (onHandshake env) bot := by
  apply leads_modify_bind (absorbs.resumed bot)
  apply leads_get_bind
  -- Neither the nick nor the channels change on the way.
  apply leads_bind (leads_send absorbs .own)
  rintro _ bot' ⟨⟩
  apply leads_bind (leads_send absorbs .text)
  rintro _ bot' ⟨⟩
  apply leads_bind (leads_joins absorbs fun channel member => AList.mem_keys.mpr member)
  intro _ bot' _
  exact leads_modify_bind (absorbs.started bot' _) (absorbs.reads _ _)

/-- One case for each handler. -/
theorem strand_step {bot bot' : BotState} {event : Event} (step : Step env bot event bot') : R bot bot' := by
  cases step with
  | @read chunk _ =>
    exact IsTrans.trans _ _ _ (absorbs.reads bot _) (leads_read absorbs chunk (completeRead bot))
  | readError _ => exact absorbs.reads bot _
  | insertMessage posted => exact strand_insert absorbs posted
  | handshake => exact leads_handshake absorbs bot

end

/-! Work of one kind. -/

variable {kind : Posted → Prop}

theorem posted_posting {bot : BotState} {work : Posted} (all : ∀ work ∈ bot.posted, kind work) (fine : kind work) :
    ∀ other ∈ (bot.posting work).posted, kind other := by
  refine List.forall_mem_append.mpr ⟨all, ?_⟩
  intro other member
  rw [List.mem_singleton.mp member]
  exact fine

theorem mem_posted {work other : Posted} {posted before after : List Posted} (split : posted = before ++ other :: after)
    (member : work ∈ before ++ after) : work ∈ posted := by
  rw [split]
  exact ((List.sublist_cons_self other after).append_left before).subset member

/-- If all that messages and handshakes post is of the kind, then so is all that is posted. -/
theorem strand_posted (caused : ∀ {msg : IRCMessage} {bot : BotState} {work : Posted}, Causes env msg bot work → kind work)
    (greets : ∀ {bot : BotState} {line : Bytes}, Greeting bot line → kind (.sendIRC line)) :
    AbsorbsStrand env (Maintains fun bot => ∀ work ∈ bot.posted, kind work) where
  message _ := leads_processMessage {
    posting := fun _ _ causes all => posted_posting all (caused causes)
    configFile := fun _ _ all => all
    whitelist := fun _ _ _ _ all => all
    channels := fun _ _ _ all => all
    suspendRead := fun _ _ all => all }
  consumed _ all := all
  filled _ _ all := all
  emplaced _ _ _ all := all
  reads _ _ all := all
  resumed _ all := all
  greeting _ _ greeting all := posted_posting all (greets greeting)
  started _ _ all := all
  taken _ _ _ _ posted all := fun work member => all work (mem_posted posted member)
  inserted _ _ _ _ posted all := fun work member => all work (mem_posted posted member)

end ReadStrand

end SaivBot
