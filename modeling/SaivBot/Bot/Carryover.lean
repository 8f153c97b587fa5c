import SaivBot.Bot.Rearming

/-! What one connection leaves to the next.

The lines cut out of the bytes of a connection are those of its chunks and of what
`m_buffer` held when it began. A reconnect clears the send queue only, so an unfinished
line of the old connection opens the first line of the new one.
-/

set_option autoImplicit false

namespace SaivBot
open Program BotState Transition

namespace ReadStrand

variable (env : Environment)

/-- The texts `parseBuffer` appends to `m_msg_pre_buffer` when this chunk is read. -/
def pushedLines (chunk : Bytes) (bot : BotState) : List Bytes :=
  ((final (parseBuffer env (appended chunk bot))).msgPreBuffer.drop bot.msgPreBuffer.length).map (·.data)

/-- The bot with what has arrived on its connection and the lines pushed from that. -/
structure Link where
  bot : BotState
  /-- What `m_buffer` held when the connection began. -/
  left : Bytes
  chunks : List Bytes
  lines : List Bytes

/-- A connection that begins. -/
def Link.start (bot : BotState) : Link := ⟨bot, bot.buffer, [], []⟩

/-- The steps of the read strand. A chunk that cannot be parsed ends the run in a fault. -/
inductive LinkStep : Link → Event → Link → Prop where
  | read {link : Link} {chunk : Bytes} {bot' : BotState} : Step env link.bot (.read chunk) bot' →
      Returns (parseBuffer env) (appended chunk (completeRead link.bot)) →
      LinkStep link (.read chunk)
        { link with
          bot := bot'
          chunks := link.chunks ++ [chunk]
          lines := link.lines ++ pushedLines env chunk (completeRead link.bot) }
  | readError {link : Link} {bot' : BotState} : Step env link.bot .readError bot' →
      LinkStep link .readError { link with bot := bot' }
  | insertMessage {link : Link} {str : Bytes} {bot' : BotState} : Step env link.bot (.insertMessage str) bot' →
      LinkStep link (.insertMessage str) { link with bot := bot' }
  | handshake {link : Link} {bot' : BotState} : Step env link.bot .handshake bot' →
      LinkStep link .handshake (Link.start bot')

/-- A step in which no connection begins on an unfinished line. -/
def RenewedStep (link : Link) (event : Event) (link' : Link) : Prop :=
  LinkStep env link event link' ∧ (event = .handshake → link.bot.buffer = [])

variable {env} {bot bot' : BotState}

/-! The loop on the bot is the loop on the text, seen from the bot. -/

theorem returns_of_loop {fuel : Nat} (returned : loop (parseLine env) (fuel + 1) bot = .ok () bot') :
    Returns (parseLine env) bot := by
  cases turn : parseLine env bot with
  | ok again next => exact ⟨again, next, turn⟩
  | error e next =>
    rw [loop_fail turn] at returned
    cases returned

/-- Induction along the text, as the loop goes through it. -/
theorem parseLines_of_loop {fuel : Nat} (enough : bot.buffer.length ≤ fuel)
    (returned : loop (parseLine env) (fuel + 1) bot = .ok () bot') :
    ∃ msgs, bot'.msgPreBuffer = bot.msgPreBuffer ++ msgs ∧
      ReadBuffer.parseLines fuel bot.buffer = .ok (msgs.map (·.data), bot'.buffer) := by
  have harmless := (returns_parseLine_iff env).mp (returns_of_loop returned)
  generalize text : bot.buffer = buffer at *
  induction ReadBuffer.shape buffer generalizing fuel bot with
  | clean clean =>
    subst text
    rw [loop_stop (parseLine_clean clean)] at returned
    cases returned
    exact ⟨[], by simp, ReadBuffer.parseLines_clean clean fuel⟩
  | @last line c clean hit =>
    have found : StringView.findChar ReadBuffer.isLineBreak bot.buffer = some line.length := by
      rw [text]
      exact StringView.findChar_append ((ReadBuffer.noLineBreak_iff line).mp clean) hit []
    have long := (harmless _ found).2
    simp [text, crlf] at long
  | @more line c d tail clean hit _ ih =>
    have found : StringView.findChar ReadBuffer.isLineBreak bot.buffer = some line.length := by
      rw [text]
      exact StringView.findChar_append ((ReadBuffer.noLineBreak_iff line).mp clean) hit (d :: tail)
    have nonempty : line ≠ [] := List.length_pos_iff.mp (harmless _ found).1
    obtain ⟨msg, data, cut⟩ := parseLine_more env clean hit nonempty text
    simp only [List.length_append, List.length_cons] at enough
    obtain ⟨less, rfl⟩ : ∃ n, fuel = n + 1 := ⟨fuel - 1, by omega⟩
    rw [loop_again cut] at returned
    have behind := (returns_parseLine_iff env).mp (returns_of_loop returned)
    obtain ⟨msgs, queue, parsed⟩ := @ih
      { bot with buffer := tail, msgPreBuffer := bot.msgPreBuffer ++ [msg] } less returned behind rfl (by omega)
    refine ⟨msg :: msgs, by rw [queue, List.append_assoc]; rfl, ?_⟩
    rw [ReadBuffer.parseLines_more clean hit, parsed, List.map_cons, data]
    rfl

/-- What a chunk that can be parsed pushes and leaves. -/
theorem onRead_of_returns {chunk : Bytes} (returns : Returns (parseBuffer env) (appended chunk bot))
    (lines : List Bytes) :
    ReadBuffer.onRead (lines, bot.buffer) chunk =
      .ok (lines ++ pushedLines env chunk bot, (final (parseBuffer env (appended chunk bot))).buffer) := by
  obtain ⟨_, after, returned⟩ := returns
  obtain ⟨msgs, queue, parsed⟩ := parseLines_of_loop (Nat.le_refl _) returned
  have pushed : pushedLines env chunk bot = msgs.map (·.data) := by
    rw [pushedLines, returned, final, queue]
    simp [appended]
  have text : ReadBuffer.parseBuffer (bot.buffer ++ chunk) = .ok (msgs.map (·.data), after.buffer) := parsed
  rw [ReadBuffer.onRead, text, pushed, returned]
  rfl

/-! Nothing but a read touches the buffer. -/

theorem buffer_consumeMsgBuffer : Preserves BotState.buffer (consumeMsgBuffer env (commandContainers env)) := by
  apply preserves_bind preserves_get
  intro bot
  apply preserves_loop
  apply preserves_bind preserves_get
  intro bot
  split
  · exact preserves_pure _
  · apply preserves_bind
    · exact fun bot => congrArg (fun read => read.1) (reading_processMessage env _ bot)
    · exact fun _ => preserves_bind (preserves_modify fun _ => rfl) fun _ => preserves_pure _

theorem buffer_onRead (chunk : Bytes) :
    (final (onRead env chunk bot)).buffer = (final (parseBuffer env (appended chunk bot))).buffer := by
  have rest : Preserves BotState.buffer (do
      consumeMsgBuffer env (commandContainers env)
      if !(← get).suspendRead then asyncReadSome else return ()) := by
    apply preserves_bind buffer_consumeMsgBuffer
    intro _
    apply preserves_bind preserves_get
    intro bot
    exact preserves_ite (preserves_modify fun _ => rfl) (preserves_pure _)
  exact view_final_bind (fun _ => rest) (appended chunk bot)

theorem buffer_insertMessage (str : Bytes) : Preserves BotState.buffer (insertMessage env str) := by
  apply preserves_bind
  · apply preserves_bind preserves_get
    intro bot
    exact preserves_bind (preserves_lift _) fun _ => preserves_modify fun _ => rfl
  · exact fun _ => buffer_consumeMsgBuffer

theorem buffer_onHandshake : Preserves BotState.buffer (onHandshake env) := by
  have posting (line : Bytes) : Preserves BotState.buffer (postSendIRC line) := preserves_modify fun _ => rfl
  apply preserves_bind
  · exact preserves_modify fun _ => rfl
  intro _
  apply preserves_bind preserves_get
  intro bot
  apply preserves_bind (posting _)
  intro _
  apply preserves_bind (posting _)
  intro _
  apply preserves_bind
  · exact preserves_forM fun channel => posting _
  intro _
  apply preserves_bind
  · exact preserves_modify fun _ => rfl
  · exact fun _ => preserves_modify fun _ => rfl

/-! The lines of a connection. -/

/-- The lines pushed and the buffer are what the chunks make of what was left. -/
def Reading (link : Link) : Prop :=
  ReadBuffer.onReads ([], link.left) link.chunks = .ok (link.lines, link.bot.buffer)

theorem reading_start (bot : BotState) : Reading (Link.start bot) := rfl

theorem LinkStep.reading {link link' : Link} {event : Event} (step : LinkStep env link event link')
    (reading : Reading link) : Reading link' := by
  cases step with
  | @read chunk bot' step returns =>
    cases step with
    | read pending =>
      have pushed := onRead_of_returns returns link.lines
      unfold Reading at reading ⊢
      rw [ReadBuffer.onReads, List.foldlM_append, ← ReadBuffer.onReads, reading, buffer_onRead]
      exact (bind_pure _).trans pushed
  | readError step =>
    cases step with
    | readError pending => exact reading
  | @insertMessage str bot' step =>
    cases step with
    | @insertMessage _ before after posted =>
      have kept : Preserves BotState.buffer (ReadStrand.insertMessage env str) := buffer_insertMessage str
      unfold Reading at reading ⊢
      rw [reading, kept]
  | handshake step => exact reading_start _

/-- In every run the lines of the connection are those of its chunks behind what was left. -/
theorem reading_reached {start link : Link} (reading : Reading start) (reached : Reaches (LinkStep env) start link) :
    Reading link :=
  reached.invariant reading fun reading step => step.reading reading

/-- Where every connection begins on an empty buffer, its lines are those of its chunks. -/
theorem lines_renewed {start : BotState} {link : Link} (constructed : Constructed start)
    (reached : Reaches (RenewedStep env) (Link.start start) link) :
    ReadBuffer.onReads ([], []) link.chunks = .ok (link.lines, link.bot.buffer) := by
  have reading : Reading link := reading_reached (reading_start start) (reached.weaken fun step => step.1)
  have left : link.left = [] := by
    refine @Reaches.invariant _ _ _ _ _ (fun link => link.left = []) reached constructed.buffer ?_
    rintro link event link' left ⟨step, renewed⟩
    cases step with
    | read _ _ | readError _ | insertMessage _ => exact left
    | handshake step =>
      cases step with
      | handshake =>
        have kept : Preserves BotState.buffer (onHandshake env) := buffer_onHandshake
        exact (kept link.bot).trans (renewed rfl)
  unfold Reading at reading
  rwa [left] at reading

/-- What is left decides the lines of the next connection, unless it is nothing. -/
theorem left_iff {left : Bytes} (clean : ReadBuffer.NoLineBreak left) :
    (∀ chunks, (ReadBuffer.onReads ([], left) chunks).map (·.1) = (ReadBuffer.onReads ([], []) chunks).map (·.1)) ↔
      left = [] := by
  constructor
  · intro same
    -- A chunk of one line, which opens with what is left.
    have chunk : ascii "x\r\n" = 120 :: Byte.carriageReturn :: Byte.newline :: [] := by decide
    have pairs : ReadBuffer.WholePairs (ascii "x\r\n") := by
      rw [chunk]
      exact .other (by decide) (by decide) (.pair .nil)
    have read {text : Bytes} (clean : ReadBuffer.NoLineBreak text) :
        (ReadBuffer.onReads ([], text) [ascii "x\r\n"]).map (·.1) = .ok [text ++ [120]] := by
      have line : ReadBuffer.NoLineBreak (text ++ [120]) := by
        intro c member
        rcases List.mem_append.mp member with old | new
        · exact clean c old
        · rw [List.mem_singleton.mp new]
          exact ⟨by decide, by decide⟩
      have whole (c : Bytes) (member : c ∈ [ascii "x\r\n"]) : ReadBuffer.WholePairs c := by
        rw [List.mem_singleton.mp member]
        exact pairs
      rw [ReadBuffer.onReads_paired whole clean]
      have split := DelimitedLines.splitPairs_line line []
      simp only [List.flatten_cons, List.flatten_nil, List.append_nil, chunk, List.append_assoc,
        List.singleton_append] at split ⊢
      simp [ReadBuffer.splitLines, split, Except.map, DelimitedLines.splitPairs]
    have empty := same [ascii "x\r\n"]
    rw [read clean, read (by simp [DelimitedLines.Clean])] at empty
    simpa using empty
  · rintro rfl chunks
    rfl

/-- Two runs whose connections all begin on an empty buffer push the same lines when the same chunks arrive. -/
theorem same_lines {env env' : Environment} {start start' : BotState} {link link' : Link}
    (constructed : Constructed start) (constructed' : Constructed start')
    (reached : Reaches (RenewedStep env) (Link.start start) link)
    (reached' : Reaches (RenewedStep env') (Link.start start') link') (same : link.chunks = link'.chunks) :
    link.lines = link'.lines := by
  have lines := lines_renewed constructed reached
  rw [same, lines_renewed constructed' reached'] at lines
  exact (congrArg Prod.fst (Except.ok.inj lines)).symm

/-! Two connections: the first brings a RECONNECT, the second a PING. -/

def beforeReconnect (chunk : Bytes) : BotState := final (onRead sampleEnvironment chunk (completeRead sampleConnected))

def afterReconnect (chunk : Bytes) : BotState := final (onHandshake sampleEnvironment (beforeReconnect chunk))

def relinked (chunk : Bytes) : Link where
  bot := final (onRead sampleEnvironment (ascii "PING\r\n") (completeRead (afterReconnect chunk)))
  left := (afterReconnect chunk).buffer
  chunks := [ascii "PING\r\n"]
  lines := pushedLines sampleEnvironment (ascii "PING\r\n") (completeRead (afterReconnect chunk))

theorem relinked_steps {chunk : Bytes}
    (parsed : Returns (parseBuffer sampleEnvironment) (appended chunk (completeRead sampleConnected)))
    (pending : 0 < (afterReconnect chunk).pendingReads)
    (again : Returns (parseBuffer sampleEnvironment) (appended (ascii "PING\r\n") (completeRead (afterReconnect chunk)))) :
    ∃ link : Link, link.bot = beforeReconnect chunk ∧
      LinkStep sampleEnvironment (Link.start sampleBot) .handshake (Link.start sampleConnected) ∧
      LinkStep sampleEnvironment (Link.start sampleConnected) (.read chunk) link ∧
      LinkStep sampleEnvironment link .handshake (Link.start (afterReconnect chunk)) ∧
      LinkStep sampleEnvironment (Link.start (afterReconnect chunk)) (.read (ascii "PING\r\n")) (relinked chunk) :=
  ⟨_, rfl, .handshake .handshake, .read (.read (by decide)) parsed, .handshake .handshake, .read (.read pending) again⟩

theorem reaches_relinked {chunk : Bytes}
    (parsed : Returns (parseBuffer sampleEnvironment) (appended chunk (completeRead sampleConnected)))
    (pending : 0 < (afterReconnect chunk).pendingReads)
    (again : Returns (parseBuffer sampleEnvironment) (appended (ascii "PING\r\n") (completeRead (afterReconnect chunk)))) :
    Reaches (LinkStep sampleEnvironment) (Link.start sampleBot) (relinked chunk) := by
  obtain ⟨link, -, connect, read, reconnect, readAgain⟩ := relinked_steps parsed pending again
  exact .tail (.tail (.tail (.single ⟨_, connect⟩) ⟨_, read⟩) ⟨_, reconnect⟩) ⟨_, readAgain⟩

theorem reaches_renewed {chunk : Bytes}
    (parsed : Returns (parseBuffer sampleEnvironment) (appended chunk (completeRead sampleConnected)))
    (pending : 0 < (afterReconnect chunk).pendingReads)
    (again : Returns (parseBuffer sampleEnvironment) (appended (ascii "PING\r\n") (completeRead (afterReconnect chunk))))
    (empty : (beforeReconnect chunk).buffer = []) :
    Reaches (RenewedStep sampleEnvironment) (Link.start sampleBot) (relinked chunk) := by
  obtain ⟨link, same, connect, read, reconnect, readAgain⟩ := relinked_steps parsed pending again
  have renewed : link.bot.buffer = [] := by rw [same, empty]
  exact .tail (.tail (.tail (.single ⟨_, connect, fun _ => rfl⟩) ⟨_, read, nofun⟩) ⟨_, reconnect, fun _ => renewed⟩)
    ⟨_, readAgain, nofun⟩

theorem same_lines_sample :
    (relinked (ascii "RECONNECT\r\n")).lines = (relinked (ascii "PING\r\nRECONNECT\r\n")).lines :=
  same_lines constructed_sampleBot constructed_sampleBot
    (reaches_renewed (by decide +kernel) (by decide +kernel) (by decide +kernel) (by decide +kernel))
    (reaches_renewed (by decide +kernel) (by decide +kernel) (by decide +kernel) (by decide +kernel)) rfl

/-- `PI` behind the RECONNECT makes `PIPING` of the first line of the next connection. -/
theorem unfinished_line_carried :
    ¬ ∀ (env env' : Environment) (start start' : BotState) (link link' : Link),
      Constructed start → Constructed start' → Reaches (LinkStep env) (Link.start start) link →
      Reaches (LinkStep env') (Link.start start') link' → link.chunks = link'.chunks → link.lines = link'.lines := by
  intro same
  have lines := same sampleEnvironment sampleEnvironment sampleBot sampleBot (relinked (ascii "RECONNECT\r\n"))
    (relinked (ascii "RECONNECT\r\nPI")) constructed_sampleBot constructed_sampleBot
    (reaches_relinked (by decide +kernel) (by decide +kernel) (by decide +kernel))
    (reaches_relinked (by decide +kernel) (by decide +kernel) (by decide +kernel)) rfl
  revert lines
  decide +kernel

end ReadStrand

end SaivBot
