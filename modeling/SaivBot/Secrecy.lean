import Mathlib.Data.List.Forall2
import SaivBot.Bot.Independence
import SaivBot.Bot.Saving
import SaivBot.System

/-! What the password has an effect on.

Two bots whose configuration files differ in the host, the port and the password are
run with the same events. They say the same, but for the lines that log them in.
-/

set_option autoImplicit false

namespace SaivBot
open Program BotState Transition

/-- All of the bot but the login and the place it logs in at, and the file it keeps them in. -/
def BotState.concealed (bot : BotState) : BotState :=
  { bot with host := [], port := [], password := [], configFile := [] }

/-- Where and as whom the bot logs in. -/
structure Credentials where
  host : Bytes
  port : Bytes
  password : Bytes

def BotState.credentials (bot : BotState) : Credentials := ⟨bot.host, bot.port, bot.password⟩

def ConfigFile.credentials (file : ConfigFile) : Credentials := ⟨file.host, file.port, file.password⟩

/-- Texts that can stand in the configuration file. -/
structure Credentials.Serialisable (credentials : Credentials) : Prop where
  host : IsUtf8 credentials.host
  port : IsUtf8 credentials.port
  password : IsUtf8 credentials.password

/-- Neither the clock nor the file system looks at the login, and nothing of it is left in memory that has been given
back. The serialiser gets through exactly those configurations that are UTF-8. -/
structure Environment.Unwitting (env : Environment) : Prop where
  now : ∀ {bot bot'}, Alike concealed bot bot' → env.now bot = env.now bot'
  opensConfig : ∀ {bot bot'}, Alike concealed bot bot' → env.opensConfig bot = env.opensConfig bot'
  stale : ∀ {bot bot'}, Alike concealed bot bot' → env.stale bot = env.stale bot'
  complete : ∀ config, (env.dump config).2 = true ↔ config.Serialisable

/-- Two bots that differ in the login only. -/
structure Concealed (login login' : Credentials) (bot bot' : BotState) : Prop where
  alike : Alike concealed bot bot'
  first : bot.credentials = login
  second : bot'.credentials = login'

theorem BotState.concealed_buffering (bot : BotState) (channel : Bytes) (msg : IRCMessage) :
    (bot.buffering channel msg).concealed = bot.concealed.buffering channel msg := by
  have same : bot.concealed.channels = bot.channels := rfl
  cases known : bot.channels.lookup channel with
  | none => rw [buffering_none known, buffering_none (same ▸ known)]
  | some buffer =>
    rw [buffering_some known, buffering_some (same ▸ known)]
    rfl

variable {env : Environment} {login login' : Credentials}

/-- A change that commutes with concealing and leaves the login alone. -/
theorem Concealed.update (f : BotState → BotState) (commutes : ∀ bot, (f bot).concealed = (f bot.concealed).concealed)
    (keeps : ∀ bot, (f bot).credentials = bot.credentials) {bot bot' : BotState} (same : Concealed login login' bot bot') :
    Concealed login login' (f bot) (f bot') := by
  refine ⟨?_, (keeps bot).trans same.first, (keeps bot').trans same.second⟩
  calc (f bot').concealed
    _ = (f bot'.concealed).concealed := commutes bot'
    _ = (f bot.concealed).concealed := congrArg (fun bot => (f bot).concealed) same.alike
    _ = (f bot).concealed := (commutes bot).symm

theorem BotState.credentials_buffering (bot : BotState) (channel : Bytes) (msg : IRCMessage) :
    (bot.buffering channel msg).credentials = bot.credentials := by
  unfold BotState.buffering
  split <;> rfl

/-- With a login that can be written, what else there is decides whether all of it can be. -/
theorem BotState.serialisable_iff {bot : BotState} (login : bot.credentials.Serialisable) :
    bot.config.Serialisable ↔
      ∀ text ∈ insert bot.nick (bot.modlist ∪ bot.whitelist ∪ bot.channels.keys.toFinset), IsUtf8 text := by
  obtain ⟨host, port, password⟩ := login
  constructor
  · intro all text member
    apply all
    simp only [Config.strings, BotState.config, Finset.mem_union, Finset.mem_insert, Finset.mem_singleton] at member ⊢
    tauto
  · intro rest text member
    simp only [Config.strings, BotState.config, Finset.mem_union, Finset.mem_insert, Finset.mem_singleton] at member
    rcases member with (((rfl | rfl | rfl | rfl) | moderator) | user) | channel
    · exact host
    · exact port
    · exact rest _ (Finset.mem_insert_self _ _)
    · exact password
    · exact rest text (by simp [moderator])
    · exact rest text (by simp [user])
    · exact rest text (Finset.mem_insert_of_mem (Finset.mem_union_right _ channel))

/-- No handler of the read strand looks at the login. -/
theorem shares_concealed (unwitting : env.Unwitting) (own : login.Serialisable) (other : login'.Serialisable) :
    ReadStrand.SharesStrand env (Concealed login login') where
  nick same := (congrArg BotState.nick same.alike).symm
  modlist same := (congrArg BotState.modlist same.alike).symm
  whitelist same := (congrArg BotState.whitelist same.alike).symm
  known same channel := iff_of_eq (congrArg (fun bot : BotState => channel ∈ bot.channels) same.alike).symm
  clipping := by
    intro bot bot' channel buffer buffer' lineCount msg _ same known known'
    have channels : bot.channels = bot'.channels := (congrArg BotState.channels same.alike).symm
    rw [← channels, known] at known'
    cases known'
    rw [unwitting.stale same.alike]
    exact same.update (·.posting _) (fun _ => rfl) fun _ => rfl
  channels same := (congrArg BotState.channels same.alike).symm
  timeStarted same _ := (congrArg BotState.timeStarted same.alike).symm
  now same := unwitting.now same.alike
  opensConfig same := unwitting.opensConfig same.alike
  dumps := by
    intro bot bot' same
    rw [Bool.eq_iff_iff, unwitting.complete, unwitting.complete, serialisable_iff (same.first ▸ own),
      serialisable_iff (same.second ▸ other)]
    have seen : bot'.concealed = bot.concealed := same.alike
    exact iff_of_eq (congrArg (fun bot : BotState =>
      ∀ text ∈ insert bot.nick (bot.modlist ∪ bot.whitelist ∪ bot.channels.keys.toFinset), IsUtf8 text) seen).symm
  posting work same := same.update (·.posting work) (fun _ => rfl) fun _ => rfl
  promoting users same := same.update (fun bot => { bot with whitelist := users }) (fun _ => rfl) fun _ => rfl
  saving same := ⟨same.alike, same.first, same.second⟩
  suspending same := same.update (fun bot => { bot with suspendRead := true }) (fun _ => rfl) fun _ => rfl
  buffering channel msg same := by
    refine same.update (·.buffering channel msg) (fun bot => ?_) fun bot => credentials_buffering bot channel msg
    rw [← concealed_buffering]
    rfl
  joining channel same := same.update
    (fun bot => { bot with channels := bot.channels.insert channel (.empty messageBufferSize) }) (fun _ => rfl) fun _ => rfl
  parting channel same :=
    same.update (fun bot => { bot with channels := bot.channels.erase channel }) (fun _ => rfl) fun _ => rfl
  buffer same := (congrArg BotState.buffer same.alike).symm
  msgPreBuffer same := (congrArg BotState.msgPreBuffer same.alike).symm
  suspendRead same := (congrArg BotState.suspendRead same.alike).symm
  pendingReads same := (congrArg BotState.pendingReads same.alike).symm
  posted same := (congrArg BotState.posted same.alike).symm
  filling text same := same.update (fun bot => { bot with buffer := text }) (fun _ => rfl) fun _ => rfl
  queueing messages same := same.update (fun bot => { bot with msgPreBuffer := messages }) (fun _ => rfl) fun _ => rfl
  reading pending same := same.update (fun bot => { bot with pendingReads := pending }) (fun _ => rfl) fun _ => rfl
  resuming same := same.update (fun bot => { bot with suspendRead := false }) (fun _ => rfl) fun _ => rfl
  starting time same := same.update (fun bot => { bot with timeStarted := time }) (fun _ => rfl) fun _ => rfl
  taking posted same := same.update (fun bot => { bot with posted := posted }) (fun _ => rfl) fun _ => rfl

namespace Sender

/-- A line that gives a password. -/
def Login (line : Bytes) : Prop := ascii "PASS " <+: line

/-- The same line, or two passwords. -/
inductive Veiled : Bytes → Bytes → Prop where
  | same (line : Bytes) : Veiled line line
  | login {line line' : Bytes} : Login line → Login line' → Veiled line line'

theorem Login.append {line : Bytes} (login : Login line) (suffix : Bytes) : Login (line ++ suffix) :=
  login.trans (List.prefix_append _ _)

theorem Veiled.append {line line' : Bytes} (veiled : Veiled line line') (suffix : Bytes) :
    Veiled (line ++ suffix) (line' ++ suffix) := by
  cases veiled with
  | same => exact .same _
  | login first second => exact .login (first.append suffix) (second.append suffix)

/-- Two senders in the same position whose lines differ in passwords only. -/
inductive Veils (s : Sender) : Sender → Prop where
  | mk {password last : Bytes} {queue pushed written : List Bytes} : List.Forall₂ Veiled s.sendQueue queue →
      Veiled s.lastMessageSendt last → List.Forall₂ Veiled s.pushed pushed → List.Forall₂ Veiled s.written written →
      Veils s { s with password := password, sendQueue := queue, lastMessageSendt := last, pushed, written }

/-- Both end without undefined behaviour, and in the same position, or neither. -/
inductive Answers : Except Fault Sender → Except Fault Sender → Prop where
  | ok {s s' : Sender} : Veils s s' → Answers (.ok s) (.ok s')
  | error (fault : Fault) : Answers (.error fault) (.error fault)

variable {s s' : Sender}

theorem answers_ite {c : Prop} [Decidable c] {yes yes' no no' : Except Fault Sender} (first : Answers yes yes')
    (second : Answers no no') : Answers (if c then yes else no) (if c then yes' else no') := by
  split
  · exact first
  · exact second

theorem forall₂_append_same {lines lines' : List Bytes} (veiled : List.Forall₂ Veiled lines lines') (line : Bytes) :
    List.Forall₂ Veiled (lines ++ [line]) (lines' ++ [line]) :=
  List.rel_append veiled (.cons (.same line) .nil)

/-- The suffix does not give a password away. -/
theorem veiled_lineText {last last' msg msg' : Bytes} (veiled : Veiled msg msg') (lasts : Veiled last last') :
    Veiled (if msg = last then msg ++ transparent else msg) (if msg' = last' then msg' ++ transparent else msg') := by
  cases veiled with
  | login first second =>
    refine .login ?_ ?_
    · split
      · exact first.append _
      · exact first
    · split
      · exact second.append _
      · exact second
  | same =>
    -- Whether the line is marked depends on the one before, which may be a password that is not shared.
    by_cases login : Login msg
    · refine .login ?_ ?_
      · split
        · exact login.append _
        · exact login
      · split
        · exact login.append _
        · exact login
    · cases lasts with
      | same => exact .same _
      | login first second =>
        have other : msg ≠ last := fun same => login (same ▸ first)
        have other' : msg ≠ last' := fun same => login (same ▸ second)
        rw [if_neg other, if_neg other']
        exact .same msg

theorem Veils.writeFront (veils : Veils s s') {msg msg' : Bytes} {rest rest' : List Bytes} (first : Veiled msg msg')
    (others : List.Forall₂ Veiled rest rest') : Veils (s.writeFront msg rest) (s'.writeFront msg' rest') := by
  cases veils with
  | mk _ lasts pushes writes =>
    have text := veiled_lineText first lasts
    have line := text.append crlf
    exact .mk (.cons line others) text pushes (List.rel_append writes (.cons line .nil))

theorem Veils.sendHandler (veils : Veils s s') : Answers s.sendHandler s'.sendHandler := by
  have written : ∀ msg msg' rest rest', Veiled msg msg' → List.Forall₂ Veiled rest rest' →
      Veils (s.writeFront msg rest) (s'.writeFront msg' rest') := fun _ _ _ _ first others => veils.writeFront first others
  cases veils with
  | @mk _ _ queue _ _ queues _ _ _ =>
    cases shape : s.sendQueue with
    | nil =>
      rw [shape] at queues
      cases queues
      unfold Sender.sendHandler
      rw [shape]
      exact .error _
    | cons msg rest =>
      rw [shape] at queues
      cases queues with
      | cons first others =>
        rw [sendHandler_cons shape, sendHandler_cons rfl]
        exact .ok (written _ _ _ _ first others)

theorem Veils.doSendQueue (veils : Veils s s') (now : TimePoint) : Answers (s.doSendQueue now) (s'.doSendQueue now) := by
  have sends := veils.sendHandler
  cases veils with
  | mk queues lasts pushes writes => exact answers_ite (.ok (.mk queues lasts pushes writes)) sends

/-- A line is put at the end of both queues. -/
theorem Veils.pushHandler (veils : Veils s s') (line : Bytes) (now : TimePoint) :
    Answers (s.pushHandler line now) (s'.pushHandler line now) := by
  cases veils with
  | @mk password _ _ _ _ queues lasts pushes writes =>
    have queued := forall₂_append_same queues line
    have noted := forall₂_append_same pushes line
    have idle := @Veils.mk
      { s with sendQueue := s.sendQueue ++ [line], pushed := s.pushed ++ [line], sendQueueBusy := true }
      password _ _ _ _ queued lasts noted writes
    exact answers_ite (.ok (.mk queues lasts pushes writes))
      (answers_ite (.ok (.mk queued lasts noted writes)) (idle.doSendQueue now))

/-- The front of the queue is done with, and the next line is looked at. -/
theorem Veils.onSendQueue (veils : Veils s s') (ec : Bool) (now later : TimePoint) :
    Answers (s.onSendQueue ec now later) (s'.onSendQueue ec now later) := by
  cases veils with
  | @mk password _ _ _ _ queues lasts pushes writes =>
    refine answers_ite (.ok (.mk queues lasts pushes writes)) (answers_ite (.ok (.mk queues lasts pushes writes)) ?_)
    dsimp only
    cases shape : s.sendQueue with
    | nil =>
      rw [shape] at queues
      cases queues
      exact .error _
    | cons msg rest =>
      rw [shape] at queues
      cases queues with
      | cons first others =>
        cases others with
        | nil => exact .ok (.mk .nil lasts pushes writes)
        | cons second behind =>
          have next := @Veils.mk { s with lastMessageSendtTime := now, sendQueue := _ :: _ } password _ _ _ _
            (.cons second behind) lasts pushes writes
          exact next.doSendQueue later

theorem Veils.onHandshake (veils : Veils s s') : Veils s.onHandshake s'.onHandshake := by
  cases veils with
  | @mk password _ _ _ _ queues lasts pushes writes =>
    -- This is where the passwords come in.
    have login : List.Forall₂ Veiled [ascii "PASS " ++ s.password, ascii "NICK " ++ s.nick]
        [ascii "PASS " ++ password, ascii "NICK " ++ s.nick] :=
      .cons (.login (List.prefix_append _ _) (List.prefix_append _ _)) (.cons (.same _) .nil)
    exact .mk (List.rel_append queues login) lasts login .nil

theorem rel_guarded {c : Prop} [Decidable c] {result result' : Option (Except Fault Sender)}
    (related : Option.Rel Answers result result') :
    Option.Rel Answers (if c then result else none) (if c then result' else none) := by
  split
  · exact related
  · exact .none

theorem rel_map {α : Type} {found : Option α} {f f' : α → Except Fault Sender}
    (each : ∀ a, Answers (f a) (f' a)) : Option.Rel Answers (found.map f) (found.map f') := by
  cases found with
  | none => exact .none
  | some a => exact .some (each a)

/-- One case for each kind of event: what can run in the one can run in the other. -/
theorem Veils.outcome (veils : Veils s s') (event : Event) : Option.Rel Answers (s.outcome event) (s'.outcome event) := by
  cases veils with
  | @mk password _ _ _ _ queues lasts pushes writes =>
    cases event with
    | post work =>
      refine .some (.ok ?_)
      cases work with
      | sendIRC | suspendWrite | shutdown | insertMessage | download | upload => exact .mk queues lasts pushes writes
    | push index now =>
      refine rel_map fun line => ?_
      have taken := @Veils.mk { s with sendHandlers := s.sendHandlers.eraseIdx index } password _ _ _ _ queues lasts
        pushes writes
      exact taken.pushHandler line now
    | suspend index =>
      refine rel_map fun connection => .ok ?_
      unfold suspendWriteHandler
      dsimp only
      split
      · exact .mk queues lasts pushes writes
      · exact .mk queues lasts pushes writes
    | expire | delay => exact rel_guarded (.some (.ok (.mk queues lasts pushes writes)))
    | send =>
      have taken := @Veils.mk { s with delayedHandlers := s.delayedHandlers - 1 } password _ _ _ _ queues lasts pushes
        writes
      exact rel_guarded (.some taken.sendHandler)
    | complete ec now later =>
      have taken := @Veils.mk { s with writes := s.writes - 1 } password _ _ _ _ queues lasts pushes writes
      exact rel_guarded (.some (taken.onSendQueue ec now later))
    | reconnect =>
      exact rel_guarded (.some (answers_ite (.ok (.mk .nil lasts pushes writes)) (.error _)))
    | resolve ec | connect ec => exact rel_guarded (.some (.ok (.mk queues lasts pushes writes)))
    | handshake ec =>
      have taken := @Veils.mk { s with handshakes := s.handshakes - 1 } password _ _ _ _ queues lasts pushes writes
      refine rel_guarded ?_
      cases ec with
      | true => exact .some (.ok taken)
      | false => exact .some (.ok taken.onHandshake)

theorem Veils.step (veils : Veils s s') {event : Event} {next : Sender} (ran : s.step event = some next) :
    ∃ next', s'.step event = some next' ∧ Veils next next' := by
  have related := veils.outcome event
  rw [step_iff.mp ran] at related
  generalize answered : s'.outcome event = result at related
  cases related with
  | some answers =>
    cases answers with
    | ok next' => exact ⟨_, step_iff.mpr answered, next'⟩

theorem Veils.written (veils : Veils s s') : List.Forall₂ Veiled s.written s'.written := by
  cases veils with
  | mk _ _ _ writes => exact writes

theorem Veils.accept (veils : Veils s s') (work : Posted) : Veils (s.accept work) (s'.accept work) := by
  obtain ⟨next, ran, veils'⟩ := veils.step (show s.step (.post work) = some (s.accept work) from rfl)
  cases ran
  exact veils'

end Sender

namespace System

/-- Two systems that differ in the login, and in what follows from it. -/
structure Veils (login login' : Credentials) (s t : System) : Prop where
  bot : Concealed login login' s.bot t.bot
  sender : s.sender.Veils t.sender
  errands : t.errands = s.errands

variable {s s' t start : System}

theorem veils_accepted {sender sender' : Sender} (veils : sender.Veils sender') (lines : List Bytes) :
    (accepted sender lines).Veils (accepted sender' lines) := by
  induction lines generalizing sender sender' with
  | nil => exact veils
  | cons line lines ih => exact ih (veils.accept _)

theorem Veils.posted (veils : Veils login login' s t) : t.bot.posted = s.bot.posted := by
  have same : t.bot.concealed = s.bot.concealed := veils.bot.alike
  have posted := congrArg BotState.posted same
  exact posted

theorem Veils.taken (veils : Veils login login' s t) (index : Nat) :
    Concealed login login' (System.taken s.bot index) (System.taken t.bot index) :=
  veils.bot.update (fun bot => System.taken bot index) (fun _ => rfl) fun _ => rfl

/-- One case for each party. -/
theorem Veils.step (unwitting : env.Unwitting) (own : login.Serialisable) (other : login'.Serialisable)
    (veils : Veils login login' s t) {event : Event} (step : Step env s event s') :
    ∃ t', Step env t event t' ∧ Veils login login' s' t' := by
  have shares := shares_concealed unwitting own other
  obtain ⟨bot, sender, errands⟩ := veils
  cases step with
  | reading other step =>
    obtain ⟨bot', step', same⟩ := shares.step bot step
    exact ⟨_, .reading other step', same, sender, errands⟩
  | sending own ran =>
    obtain ⟨sender', ran', veils⟩ := sender.step ran
    exact ⟨_, .sending own ran', bot, veils, errands⟩
  | handshake ran step =>
    obtain ⟨bot', step', same⟩ := shares.step bot step
    obtain ⟨sender', ran', veils⟩ := sender.step ran
    exact ⟨_, .handshake ran' step', same, veils, errands⟩
  | @dispatch index work found sends =>
    have found' : t.bot.posted[index]? = some work := by rw [Veils.posted ⟨bot, sender, errands⟩, found]
    exact ⟨_, .dispatch found' sends, Veils.taken ⟨bot, sender, errands⟩ index, sender.accept work, errands⟩
  | @start index work errand found starts =>
    have found' : t.bot.posted[index]? = some work := by rw [Veils.posted ⟨bot, sender, errands⟩, found]
    refine ⟨_, .start found' starts, Veils.taken ⟨bot, sender, errands⟩ index, sender, ?_⟩
    dsimp only
    rw [errands]
  | @running index event errand errand' lines found ran =>
    -- The errands are the same, and so is what they post.
    rw [← errands] at found
    refine ⟨_, .running found ran, bot, veils_accepted sender lines, ?_⟩
    dsimp only
    rw [errands]

/-- The same start with another login. -/
def relocated (start : System) (file : ConfigFile) (login : Credentials) (text : Bytes) : System where
  bot := loaded { file with host := login.host, port := login.port, password := login.password } text
  sender := { start.sender with password := login.password }
  errands := []

theorem veils_relocated {file : ConfigFile} (started : Started file start) (login : Credentials) (text : Bytes) :
    Veils file.credentials login start (relocated start file login text) := by
  obtain ⟨original, same⟩ := started.bot
  have lines (lines : List Bytes) : List.Forall₂ Sender.Veiled lines lines := List.forall₂_same.mpr fun line _ => .same line
  refine ⟨?_, .mk (lines _) (.same _) (lines _) (lines _), by rw [started.errands]; rfl⟩
  rw [same]
  exact ⟨rfl, rfl, rfl⟩

/-- Whatever happens: with another login that can stand in the file the same can happen, the bot posts and starts the
same, and it writes the same lines, but for those that give a password. -/
theorem password_unspoken {file : ConfigFile} (unwitting : env.Unwitting) (started : Started file start)
    (own : file.credentials.Serialisable) {events : List Event} (trace : Trace (Step env) start events s)
    (login : Credentials) (other : login.Serialisable) (text : Bytes) :
    ∃ t, Trace (Step env) (relocated start file login text) events t ∧
      t.bot.posted = s.bot.posted ∧ t.errands = s.errands ∧
      List.Forall₂ (fun line line' => line = line' ∨ Sender.Login line ∧ Sender.Login line') s.sender.written
        t.sender.written := by
  have simulates : ∀ {s t event s'}, Veils file.credentials login s t → Step env s event s' →
      ∃ t', Step env t event t' ∧ Veils file.credentials login s' t' :=
    fun veils step => Veils.step unwitting own other veils step
  obtain ⟨t, trace', veils⟩ := trace.simulated simulates (veils_relocated started login text)
  refine ⟨t, trace', veils.posted, veils.errands, ?_⟩
  refine veils.sender.written.imp ?_
  intro line line' veiled
  cases veiled with
  | same => exact .inl rfl
  | login first second => exact .inr ⟨first, second⟩

/-! The bot logs in and writes three lines. -/

/-- The send strand runs on its own. -/
theorem trace_sending {events : List Sender.Event} {sender : Sender} (own : ∀ event ∈ events, Own event)
    (ran : run Sender.step start.sender events = some sender) :
    Trace (Step env) start (events.map .sending) { start with sender } := by
  refine @run_invariant _ _ _ _ (fun events sender => (∀ event ∈ events, Own event) →
    Trace (Step env) start (events.map .sending) { start with sender }) ?_ ?_ _ _ ran own
  · exact fun _ => .nil
  · intro events sender event sender' trace stepped own
    rw [List.map_append]
    exact (trace fun other member => own other (by simp [member])).snoc (.sending (own event (by simp)) stepped)

/-- The serialiser stops at what is not UTF-8. -/
def utf8Environment : Environment := { clipEnvironment with dump := fun config => ([], decide config.Serialisable) }

theorem unwitting_utf8Environment : utf8Environment.Unwitting :=
  ⟨fun _ => rfl, fun _ => rfl, fun _ => rfl, fun _ => decide_eq_true_iff⟩

theorem password_unspoken_sample : ∃ events s t, Trace (Step utf8Environment) sampleSystem events s ∧
    Trace (Step utf8Environment) (relocated sampleSystem clipFile ⟨[], [], ascii "hidden"⟩ []) events t ∧
    s.sender.written.length = 3 ∧
    List.Forall₂ (fun line line' => line = line' ∨ Sender.Login line ∧ Sender.Login line') s.sender.written
      t.sender.written := by
  let shaking : Sender := { Sender.sampleSender with resolves := 0, handshakes := 1 }
  let dispatched : System := { connected with
    bot := taken connected.bot 0
    sender := connected.sender.accept (.sendIRC (ascii "JOIN #saiv")) }
  have connects : Trace (Step utf8Environment) sampleSystem _ { sampleSystem with sender := shaking } :=
    @trace_sending utf8Environment sampleSystem [.resolve false, .connect false] shaking (by simp [Own]) rfl
  have shakes : Step utf8Environment { sampleSystem with sender := shaking } .handshake connected :=
    .handshake rfl .handshake
  have dispatch : Step utf8Environment connected (.dispatch 0) dispatched := .dispatch rfl rfl
  have written : (run Sender.step dispatched.sender threeWrites).map (·.written.length) = some 3 := by decide
  obtain ⟨sender, ran, three⟩ := Option.map_eq_some_iff.mp written
  have trace := ((connects.snoc shakes).snoc dispatch).append
    (@trace_sending utf8Environment dispatched _ sender (fun event member => (own_threeWrites event member).1) ran)
  obtain ⟨t, trace', -, -, lines⟩ :=
    password_unspoken unwitting_utf8Environment started_sampleSystem ⟨by decide, by decide, by decide⟩ trace
      ⟨[], [], ascii "hidden"⟩ ⟨by decide, by decide, by decide⟩ []
  exact ⟨_, _, t, trace, trace', three, lines⟩

end System

end SaivBot
