import SaivBot.Bot.Harmless
import SaivBot.Bot.Reading

/-! When the bot goes on reading after a chunk.

The read is started again at the very end of `onRead`, and a message leaves the
queue after it has been processed. Whatever leaves the handler early therefore
leaves the bot without a read and with the message still in front.
-/

set_option autoImplicit false

namespace SaivBot
open Program BotState Transition

namespace ReadStrand

variable (env : Environment)

/-- What is to hold once `onRead` has been left: besides the reads that were pending anyway there is
exactly one, or a reconnect has been requested, and no message is left. -/
def Rearmed (others : Nat) (bot : BotState) : Prop :=
  bot.msgPreBuffer = [] ∧ (bot.pendingReads = others + 1 ∨ bot.suspendRead = true)

instance (others : Nat) (bot : BotState) : Decidable (Rearmed others bot) :=
  inferInstanceAs (Decidable (_ ∧ _))

/-- The next line break is not the first byte of the buffer, and not its last. -/
def HarmlessLine (bot : BotState) : Prop :=
  ∀ n, StringView.findChar ReadBuffer.isLineBreak bot.buffer = some n →
    0 < n ∧ n + crlf.length ≤ bot.buffer.length

/-- The message in front of the queue is processed to the end. -/
def HarmlessFront (bot : BotState) : Prop :=
  ∀ msg rest, bot.msgPreBuffer = msg :: rest → Harmless env msg bot

abbrev Consuming : BotState → BotState → Prop := Turns (consumeFront env (commandContainers env))

/-- Every line that is cut and every message that is met is harmless, in the state in which it is. -/
structure HarmlessRead (bot : BotState) : Prop where
  lines : ∀ bot', Turns (parseLine env) bot bot' → HarmlessLine bot'
  messages : ∀ parsed, Turns (parseLine env) bot parsed → ReadBuffer.NoLineBreak parsed.buffer →
    ∀ bot', Consuming env parsed bot' → HarmlessFront env bot'

/-! The turns of the two loops. -/

variable {env} {bot bot' : BotState}

/-- A turn finds no line break, cuts off the line before one, or cannot cut it. -/
theorem parseLine_cases (env : Environment) (bot : BotState) :
    (ReadBuffer.NoLineBreak bot.buffer ∧ parseLine env bot = .ok false bot) ∨
      (HarmlessLine bot ∧ ∃ n msg, n + crlf.length ≤ bot.buffer.length ∧ msg.data = bot.buffer.take n ∧
        parseLine env bot = .ok true
          { bot with buffer := bot.buffer.drop (n + crlf.length), msgPreBuffer := bot.msgPreBuffer ++ [msg] }) ∨
      (¬ HarmlessLine bot ∧ ∃ e bot', parseLine env bot = .error e bot') := by
  cases found : StringView.findChar ReadBuffer.isLineBreak bot.buffer with
  | none =>
    have clean := (ReadBuffer.noLineBreak_iff _).mpr (StringView.findChar_eq_none.mp found)
    exact Or.inl ⟨clean, parseLine_clean clean⟩
  | some n =>
    have inside := StringView.findChar_lt found
    by_cases harmless : HarmlessLine bot
    · obtain ⟨positive, long⟩ := harmless n found
      have nonempty : bot.buffer.take n ≠ [] := by
        rw [ne_eq, List.take_eq_nil_iff, ← List.length_eq_zero_iff]
        omega
      obtain ⟨msg, data, emplaced⟩ := emplaceMessage_ok env nonempty
        { bot with buffer := bot.buffer.drop (n + crlf.length) }
      refine Or.inr (Or.inl ⟨harmless, n, msg, long, data, ?_⟩)
      rw [parseLine, get_bind, found]
      dsimp only
      rw [if_pos long, modify_bind, bind_ok emplaced]
      rfl
    · refine Or.inr (Or.inr ⟨harmless, ?_⟩)
      rw [parseLine, get_bind, found]
      dsimp only
      by_cases long : n + crlf.length ≤ bot.buffer.length
      · -- What is left is a line break at position 0: the message of an empty line.
        have zero : n = 0 := by
          by_contra positive
          apply harmless
          intro m same
          obtain rfl : n = m := Option.some.inj (found.symm.trans same)
          exact ⟨Nat.pos_of_ne_zero positive, long⟩
        subst zero
        rw [if_pos long]
        exact ⟨_, _, rfl⟩
      · rw [if_neg long]
        exact ⟨_, _, rfl⟩

theorem returns_parseLine_iff (env : Environment) : Returns (parseLine env) bot ↔ HarmlessLine bot := by
  rcases parseLine_cases env bot with ⟨clean, ran⟩ | ⟨harmless, n, msg, -, -, ran⟩ | ⟨harmful, e, bot', ran⟩
  · refine iff_of_true ⟨_, _, ran⟩ ?_
    intro n found
    rw [StringView.findChar_eq_none.mpr ((ReadBuffer.noLineBreak_iff _).mp clean)] at found
    cases found
  · exact iff_of_true ⟨_, _, ran⟩ harmless
  · refine iff_of_false ?_ harmful
    rintro ⟨_, _, returned⟩
    rw [ran] at returned
    cases returned

theorem parseLine_ok {again : Bool} (ran : parseLine env bot = .ok again bot') :
    again = false ∧ bot' = bot ∧ ReadBuffer.NoLineBreak bot.buffer ∨
      again = true ∧ ∃ n msg, n + crlf.length ≤ bot.buffer.length ∧ msg.data = bot.buffer.take n ∧
        bot' = { bot with buffer := bot.buffer.drop (n + crlf.length), msgPreBuffer := bot.msgPreBuffer ++ [msg] } := by
  rcases parseLine_cases env bot with ⟨clean, ran'⟩ | ⟨-, n, msg, long, data, ran'⟩ | ⟨-, e, bot', ran'⟩
  · rw [ran'] at ran
    cases ran
    exact Or.inl ⟨rfl, rfl, clean⟩
  · rw [ran'] at ran
    cases ran
    exact Or.inr ⟨rfl, n, msg, long, data, rfl⟩
  · rw [ran'] at ran
    cases ran

theorem parseLine_shorter (again : parseLine env bot = .ok true bot') :
    bot'.buffer.length < bot.buffer.length := by
  rcases parseLine_ok again with ⟨stopped, -⟩ | ⟨-, n, msg, long, -, rfl⟩
  · cases stopped
  · simp only [List.length_drop, crlf, List.length_cons, List.length_nil] at long ⊢
    omega

theorem preserves_emplaceMessage (line : Bytes) :
    Preserves (fun bot => (bot.pendingReads, bot.suspendRead)) (emplaceMessage env line) := by
  apply preserves_bind preserves_get
  intro bot
  apply preserves_bind (preserves_lift _)
  exact fun msg => preserves_modify fun _ => rfl

/-- A turn touches nothing that a rearmed bot is judged by. -/
theorem preserves_parseLine : Preserves (fun bot => (bot.pendingReads, bot.suspendRead)) (parseLine env) := by
  apply preserves_bind preserves_get
  intro bot
  split
  · exact preserves_pure _
  · apply preserves_ite _ (preserves_throw _)
    apply preserves_bind
    · exact preserves_modify fun _ => rfl
    · intro _
      exact preserves_bind (preserves_emplaceMessage _) fun _ => preserves_pure _

theorem consumeFront_nil {containers : List CommandContainer} (queue : bot.msgPreBuffer = []) :
    consumeFront env containers bot = .ok false bot := by
  rw [consumeFront, get_bind, queue]
  rfl

theorem consumeFront_cons {containers : List CommandContainer} {msg : IRCMessage} {rest : List IRCMessage}
    (queue : bot.msgPreBuffer = msg :: rest) :
    consumeFront env containers bot = (do
      processMessage env containers msg
      modify fun bot => { bot with msgPreBuffer := bot.msgPreBuffer.tail }
      return true : BotM Bool) bot := by
  rw [consumeFront, get_bind, queue]

theorem returns_consumeFront_iff :
    Returns (consumeFront env (commandContainers env)) bot ↔ HarmlessFront env bot := by
  unfold HarmlessFront
  cases queue : bot.msgPreBuffer with
  | nil => exact iff_of_true ⟨_, _, consumeFront_nil queue⟩ (by simp)
  | cons msg rest =>
    simp only [List.cons.injEq, and_imp, ← returns_processMessage_iff, Returns, consumeFront_cons queue]
    constructor
    · rintro returns _ _ rfl rfl
      obtain ⟨_, _, ran, -⟩ := returns_bind_iff.mp returns
      exact ⟨_, _, ran⟩
    · intro returns
      obtain ⟨_, _, ran⟩ := returns msg rest rfl rfl
      rw [bind_ok ran]
      exact ⟨_, _, rfl⟩

/-- A turn finds the queue empty, or takes the message in front off it. -/
theorem consumeFront_ok {again : Bool} (ran : consumeFront env (commandContainers env) bot = .ok again bot') :
    again = false ∧ bot' = bot ∧ bot.msgPreBuffer = [] ∨
      again = true ∧ bot'.pendingReads = bot.pendingReads ∧
        ∃ msg, bot.msgPreBuffer = msg :: bot'.msgPreBuffer := by
  cases queue : bot.msgPreBuffer with
  | nil =>
    rw [consumeFront_nil queue] at ran
    cases ran
    exact Or.inl ⟨rfl, rfl, rfl⟩
  | cons msg rest =>
    rw [consumeFront_cons queue] at ran
    have kept := reading_processMessage env msg bot
    cases processed : processMessage env (commandContainers env) msg bot with
    | error e s =>
      rw [bind_error processed] at ran
      cases ran
    | ok _ middle =>
      rw [processed] at kept
      rw [bind_ok processed] at ran
      simp only [reading, final, Prod.mk.injEq] at kept
      cases ran
      refine Or.inr ⟨rfl, kept.2.2, msg, ?_⟩
      change msg :: rest = msg :: middle.msgPreBuffer.tail
      rw [kept.2.1, queue, List.tail_cons]

/-- A message whose processing fails stays in front. -/
theorem consumeFront_error {e : Abort} (failed : consumeFront env (commandContainers env) bot = .error e bot') :
    bot'.msgPreBuffer ≠ [] := by
  cases queue : bot.msgPreBuffer with
  | nil =>
    rw [consumeFront_nil queue] at failed
    cases failed
  | cons msg rest =>
    rw [consumeFront_cons queue] at failed
    have kept := reading_processMessage env msg bot
    cases processed : processMessage env (commandContainers env) msg bot with
    | ok _ middle =>
      rw [bind_ok processed] at failed
      cases failed
    | error other middle =>
      rw [processed] at kept
      rw [bind_error processed] at failed
      cases failed
      simp only [reading, final, Prod.mk.injEq] at kept
      rw [kept.2.1, queue]
      exact List.cons_ne_nil _ _

theorem consumeFront_shorter (again : consumeFront env (commandContainers env) bot = .ok true bot') :
    bot'.msgPreBuffer.length < bot.msgPreBuffer.length := by
  rcases consumeFront_ok again with ⟨stopped, -⟩ | ⟨-, -, msg, queue⟩
  · cases stopped
  · rw [queue, List.length_cons]
    exact Nat.lt_succ_self _

/-! The loops. -/

theorem returns_parseBuffer_iff (env : Environment) (bot : BotState) :
    Returns (parseBuffer env) bot ↔ ∀ bot', Turns (parseLine env) bot bot' → HarmlessLine bot' := by
  simp only [parseBuffer, returns_get_bind, ← returns_parseLine_iff env]
  exact returns_loop_iff _ (fun bot : BotState => bot.buffer.length) (fun _ _ => parseLine_shorter)
    (Nat.lt_succ_self _)

theorem parseBuffer_ok (returned : parseBuffer env bot = .ok () bot') :
    Turns (parseLine env) bot bot' ∧ ReadBuffer.NoLineBreak bot'.buffer := by
  change loop (parseLine env) (bot.buffer.length + 1) bot = _ at returned
  obtain ⟨last, turns, stop⟩ := loop_ok (fun bot : BotState => bot.buffer.length)
    (fun _ _ => parseLine_shorter) (Nat.lt_succ_self _) returned
  rcases parseLine_ok stop with ⟨-, rfl, clean⟩ | ⟨again, -⟩
  · exact ⟨turns, clean⟩
  · cases again

/-- Consuming the queue to its end, or stopping at a message that stays. -/
theorem consumeMsgBuffer_cases (env : Environment) (bot : BotState) :
    (∃ bot', consumeMsgBuffer env (commandContainers env) bot = .ok () bot' ∧ bot'.msgPreBuffer = [] ∧
        bot'.pendingReads = bot.pendingReads ∧ ∀ met, Consuming env bot met → HarmlessFront env met) ∨
      ∃ e bot', consumeMsgBuffer env (commandContainers env) bot = .error e bot' ∧ bot'.msgPreBuffer ≠ [] ∧
        ¬ ∀ met, Consuming env bot met → HarmlessFront env met := by
  have all := returns_loop_iff (consumeFront env (commandContainers env))
    (fun bot : BotState => bot.msgPreBuffer.length) (fun _ _ => consumeFront_shorter)
    (Nat.lt_succ_self bot.msgPreBuffer.length)
  simp only [returns_consumeFront_iff] at all
  change Returns _ bot ↔ ∀ met, Consuming env bot met → HarmlessFront env met at all
  rw [← all]
  change (∃ bot', loop _ (bot.msgPreBuffer.length + 1) bot = _ ∧ _) ∨
    ∃ e bot', loop _ (bot.msgPreBuffer.length + 1) bot = _ ∧ _
  obtain ⟨last, turns, ⟨s', stop, ended⟩ | ⟨e, s', failed, ended⟩⟩ := loop_last
    (fun bot : BotState => bot.msgPreBuffer.length) (fun _ _ => consumeFront_shorter)
    (Nat.lt_succ_self bot.msgPreBuffer.length)
  · rcases consumeFront_ok stop with ⟨-, rfl, empty⟩ | ⟨again, -⟩
    · refine Or.inl ⟨s', ended, empty, ?_, ⟨_, _, ended⟩⟩
      -- No turn touches the reads that are pending.
      clear ended empty stop
      induction turns with
      | refl => rfl
      | tail _ next ih =>
        rcases consumeFront_ok next with ⟨stopped, -⟩ | ⟨-, kept, -⟩
        · cases stopped
        · exact kept.trans ih
    · cases again
  · refine Or.inr ⟨e, s', ended, consumeFront_error failed, ?_⟩
    rintro ⟨_, _, returned⟩
    rw [ended] at returned
    cases returned

theorem parseLine_stop (clean : ReadBuffer.NoLineBreak bot.buffer) (bot' : BotState) :
    parseLine env bot ≠ .ok true bot' := by
  intro again
  rw [parseLine_clean clean] at again
  cases again

theorem preserves_parseBuffer (env : Environment) :
    Preserves (fun bot => (bot.pendingReads, bot.suspendRead)) (parseBuffer env) := by
  apply preserves_bind preserves_get
  intro bot
  exact preserves_loop preserves_parseLine _

/-! The handlers. -/

/-- The end of `onRead`. -/
def resumed (bot : BotState) : BotState :=
  if bot.suspendRead then bot else { bot with pendingReads := bot.pendingReads + 1 }

/-- `onRead` reaches its end and starts a read unless a reconnect has been requested, or it is left
early, in one of the two loops. -/
theorem onRead_cases (env : Environment) (chunk : Bytes) (bot : BotState) :
    (HarmlessRead env (appended chunk bot) ∧ ∃ consumed,
        consumed.msgPreBuffer = [] ∧ consumed.pendingReads = bot.pendingReads ∧
        final (onRead env chunk bot) = resumed consumed) ∨
      ¬ HarmlessRead env (appended chunk bot) ∧
        ((final (onRead env chunk bot)).msgPreBuffer ≠ [] ∨
          (final (onRead env chunk bot)).pendingReads = bot.pendingReads ∧
            (final (onRead env chunk bot)).suspendRead = bot.suspendRead) := by
  have returns := returns_parseBuffer_iff env (appended chunk bot)
  have kept := preserves_parseBuffer env (appended chunk bot)
  rw [onRead, modify_bind]
  cases parse : parseBuffer env (appended chunk bot) with
  | error e failed =>
    rw [parse] at kept
    rw [bind_error parse]
    refine Or.inr ⟨?_, Or.inr (Prod.mk.injEq _ _ _ _ ▸ kept)⟩
    intro harmless
    obtain ⟨_, _, returned⟩ := returns.mpr harmless.lines
    rw [parse] at returned
    cases returned
  | ok _ parsed =>
    have lines := returns.mp ⟨_, _, parse⟩
    obtain ⟨turns, clean⟩ := parseBuffer_ok parse
    have pending : parsed.pendingReads = bot.pendingReads := by
      rw [parse] at kept
      exact congrArg Prod.fst kept
    rw [bind_ok parse]
    rcases consumeMsgBuffer_cases env parsed with
      ⟨consumed, consume, empty, same, harmless⟩ | ⟨e, failed, consume, left, harmful⟩
    · refine Or.inl ⟨⟨lines, ?_⟩, consumed, empty, same.trans pending, ?_⟩
      · intro other turns' clean'
        rw [turns.stop_unique (parseLine_stop clean) turns' (parseLine_stop clean')]
        exact harmless
      · rw [bind_ok consume, get_bind, resumed]
        by_cases suspended : consumed.suspendRead = true
        · rw [if_pos suspended, suspended]
          rfl
        · have off := Bool.eq_false_iff.mpr suspended
          rw [if_neg suspended, if_pos (by rw [off]; rfl)]
          rfl
    · rw [bind_error consume]
      exact Or.inr ⟨fun harmless => harmful (harmless.messages parsed turns clean), Or.inl left⟩

/-- While no reconnect is requested: the bot reads on exactly when the chunk is harmless. -/
theorem rearmed_iff {others : Nat} (pending : bot.pendingReads = others) (active : bot.suspendRead = false)
    (env : Environment) (chunk : Bytes) :
    Rearmed others (final (onRead env chunk bot)) ↔
      HarmlessRead env (appended chunk bot) := by
  rcases onRead_cases env chunk bot with
    ⟨harmless, consumed, empty, same, ended⟩ | ⟨harmful, left | ⟨same, suspend⟩⟩
  · refine iff_of_true ?_ harmless
    rw [ended, resumed]
    cases suspended : consumed.suspendRead with
    | true => exact ⟨empty, Or.inr suspended⟩
    | false => exact ⟨empty, Or.inl (by rw [← pending, ← same]; rfl)⟩
  · exact iff_of_false (fun rearmed => left rearmed.1) harmful
  · refine iff_of_false ?_ harmful
    rintro ⟨-, again | requested⟩
    · omega
    · rw [suspend, active] at requested
      cases requested

/-- A text that is inserted becomes a message, and it and those it is behind are harmless. -/
structure HarmlessInsert (env : Environment) (str : Bytes) (bot : BotState) : Prop where
  nonempty : str ≠ []
  messages : ∀ received, emplaceMessage env str bot = .ok () received →
    ∀ bot', Consuming env received bot' → HarmlessFront env bot'

theorem onRead_empty {chunk : Bytes} (harmless : HarmlessRead env (appended chunk bot)) :
    (final (onRead env chunk bot)).msgPreBuffer = [] := by
  rcases onRead_cases env chunk bot with ⟨-, consumed, empty, -, ended⟩ | ⟨harmful, -⟩
  · rw [ended, resumed]
    split
    · exact empty
    · exact empty
  · exact absurd harmless harmful

theorem insertMessage_empty {str : Bytes} (harmless : HarmlessInsert env str bot) :
    (final (insertMessage env str bot)).msgPreBuffer = [] := by
  obtain ⟨msg, -, emplaced⟩ := emplaceMessage_ok env harmless.nonempty bot
  have messages := harmless.messages _ emplaced
  rw [insertMessage, bind_ok emplaced]
  rcases consumeMsgBuffer_cases env { bot with msgPreBuffer := bot.msgPreBuffer ++ [msg] } with
    ⟨consumed, consume, empty, -⟩ | ⟨e, failed, consume, left, harmful⟩
  · rw [consume]
    exact empty
  · exact absurd messages harmful

theorem blind_msgPreBuffer : Blind BotState.msgPreBuffer where
  posting _ _ _ := rfl
  whitelist _ _ := rfl
  configFile _ _ := rfl

theorem preserves_onHandshake : Preserves BotState.msgPreBuffer (onHandshake env) := by
  apply preserves_bind
  · exact preserves_modify fun _ => rfl
  intro _
  apply preserves_bind preserves_get
  intro bot
  apply preserves_bind (preserves_postSendIRC blind_msgPreBuffer _)
  intro _
  apply preserves_bind (preserves_postSendIRC blind_msgPreBuffer _)
  intro _
  apply preserves_bind
  · exact preserves_forM fun channel => preserves_postSendIRC blind_msgPreBuffer _
  intro _
  apply preserves_bind
  · exact preserves_modify fun _ => rfl
  · exact fun _ => preserves_modify fun _ => rfl

/-! Runs. -/

variable (env)

/-- A step whose handler meets harmless lines and messages only. -/
inductive HarmlessStep : BotState → Event → BotState → Prop where
  | read {bot bot' : BotState} {chunk : Bytes} : Step env bot (.read chunk) bot' →
      HarmlessRead env (appended chunk (completeRead bot)) → HarmlessStep bot (.read chunk) bot'
  | readError {bot : BotState} : 0 < bot.pendingReads → HarmlessStep bot .readError (completeRead bot)
  | insertMessage {bot : BotState} {str : Bytes} {before after : List Posted} :
      bot.posted = before ++ .insertMessage str :: after →
      HarmlessInsert env str { bot with posted := before ++ after } →
      HarmlessStep bot (.insertMessage str) (final (insertMessage env str { bot with posted := before ++ after }))
  | handshake {bot : BotState} : HarmlessStep bot .handshake (final (onHandshake env bot))

variable {env}

theorem HarmlessStep.step {event : Event} (harmless : HarmlessStep env bot event bot') :
    Step env bot event bot' := by
  cases harmless with
  | read step _ => exact step
  | readError pending => exact .readError pending
  | insertMessage posted _ => exact .insertMessage posted
  | handshake => exact .handshake

theorem HarmlessStep.empty {event : Event} (step : HarmlessStep env bot event bot')
    (empty : bot.msgPreBuffer = []) : bot'.msgPreBuffer = [] := by
  cases step with
  | read step harmless =>
    cases step with
    | read => exact onRead_empty harmless
  | readError _ => exact empty
  | insertMessage _ harmless => exact insertMessage_empty harmless
  | handshake => exact (preserves_onHandshake bot).trans empty

/-! A bot whose whitelisted user can ask for a pattern that does not compile. -/

/-- The words of a line, for a parser that knows options by their names only. -/
def words (line : Bytes) : List Bytes :=
  (line.splitOn Byte.space).filter fun word => !word.isEmpty

def wordAfter (name : Bytes) : List Bytes → Option Bytes
  | first :: second :: rest => if first = name then some second else wordAfter name (second :: rest)
  | _ => none

def wordParser : OptionParser where
  extractFirstWordDestructive line :=
    match words line with
    | [] => none
    | first :: _ => some (first, (line.dropWhile (· == Byte.space)).drop first.length)
  extractFirstWord line := ((words line).head?.getD [], line)
  parse options line := {
    text index := match options[index]? with
      | some option => if option.kinds = [.word] then wordAfter option.name (words line) else none
      | none => none
    texts _ := none
    pair _ := none
    number _ := none
    flag index := match options[index]? with
      | some option => decide (option.name ∈ words line)
      | none => false }

def sampleEnvironment : Environment := { bareEnvironment with optionParser := wordParser }

def sampleBot : BotState := { bareBot (ascii "saiv") with whitelist := {ascii "u"} }

def sampleConnected : BotState := final (onHandshake sampleEnvironment sampleBot)

def sampleListening : BotState :=
  final (onRead sampleEnvironment (ascii "PING\r\n") (completeRead sampleConnected))

theorem constructed_sampleBot : Constructed sampleBot := ⟨rfl, rfl, rfl, rfl, rfl⟩

end ReadStrand

end SaivBot
