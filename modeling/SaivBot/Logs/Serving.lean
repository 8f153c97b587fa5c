import SaivBot.Logs.Naming

/-! `LogDownloader` and a service that answers what it is asked.

Downloading and calling back overlap, and an error may come in between. Whatever the
order, the shared data has been through one callback after the other, in the order of
the targets, with the error handler behind them or in front of the last.
-/

set_option autoImplicit false

namespace SaivBot
open Transition

namespace LogDownloader

open Downloading (Operation Event)
open LogRequest (received received_eq)

variable {σ : Type} (client : DownloadClient σ) (answer : Target → Bytes)

/-- A read without an error has read the answer to its target. -/
def Served (s : LogDownloader σ) : Event → Prop
  | .completes ec body => ec = false → ∀ it target, s.pending = some (.read it) →
      client.request.targets[it]? = some target → body = answer target
  | .calls => True

def ServedStep (s : LogDownloader σ) (event : Event) (s' : LogDownloader σ) : Prop :=
  step client s event = some s' ∧ Served client answer s event

/-- The callback over some logs, one after the other. -/
def callbacks (logs : List Log) (shared : σ) : Except Abort σ :=
  logs.foldlM (fun shared log => client.callback log shared) shared

/-! What a step can do. -/

/-- How many events an operation and what follows it can still make. -/
def eventsFrom : Option Operation → Nat
  | none => 0
  | some .shutdown => 1
  | some (.read it) => 3 * (targetCount client - it - 1) + 3
  | some (.write it) => 3 * (targetCount client - it - 1) + 4
  | some .handshake => 3 * targetCount client + 2
  | some .connect => 3 * targetCount client + 3
  | some .resolve => 3 * targetCount client + 4

/-- From one operation to the next, or from the last one to the end. -/
inductive Follows : Operation → Option Operation → Prop where
  | connect : Follows .resolve (some .connect)
  | handshake : Follows .connect (some .handshake)
  | write : 0 < targetCount client → Follows .handshake (some (.write 0))
  | read (it : Nat) : Follows (.write it) (some (.read it))
  | ended : Follows .shutdown none

/-- The kinds of steps: an operation without a log, an error, a log that is read, and the callback. -/
inductive Moves (s : LogDownloader σ) : Event → LogDownloader σ → Prop where
  | goesOn {operation : Operation} {next : Option Operation} {ec : Bool} {body : Bytes} :
      s.pending = some operation → Follows client operation next →
      Moves s (.completes ec body) { s with pending := next }
  | fails {operation : Operation} {refused : σ} {body : Bytes} :
      s.pending = some operation → operation ≠ .shutdown → client.errorHandler s.shared = .ok refused →
      Moves s (.completes true body) { s with pending := none, shared := refused }
  | reads {it : Nat} {body : Bytes} {target : Target} {log : Log} {next : Operation} :
      s.pending = some (.read it) → s.callback = none → client.request.targets[it]? = some target →
      startNext client it = .ok next →
      Log.ofData target.period target.channelName body client.request.parser = .ok log →
      Moves s (.completes false body)
        { s with pending := some next, callback := some log, downloaded := s.downloaded ++ [log] }
  | called {log : Log} {shared : σ} : s.callback = some log → client.callback log s.shared = .ok shared →
      Moves s .calls { s with callback := none, shared }

variable {client answer} {start : σ} {s s' : LogDownloader σ}

theorem errorHandler_eq_ok (handled : errorHandler client s = .ok s') :
    ∃ refused, client.errorHandler s.shared = .ok refused ∧ s' = { s with pending := none, shared := refused } := by
  obtain ⟨refused, ran, same⟩ := Program.except_bind_eq_ok.mp handled
  cases same
  exact ⟨refused, ran, rfl⟩

theorem fillHttpRequest_eq_ok {it : Nat} {target : Target} (filled : fillHttpRequest client it = .ok target) :
    client.request.targets[it]? = some target := by
  unfold fillHttpRequest at filled
  cases found : client.request.targets[it]? with
  | none =>
    rw [found] at filled
    cases filled
  | some other =>
    rw [found] at filled
    cases filled
    rfl

/-- An operation without a log. -/
theorem moves_of_branch {operation : Operation} {next : Option Operation} {ec : Bool} (body : Bytes)
    (pending : s.pending = some operation) (other : operation ≠ .shutdown) (follows : Follows client operation next)
    (moved : (if ec then errorHandler client s else .ok { s with pending := next }) = .ok s') :
    Moves client s (.completes ec body) s' := by
  cases ec with
  | true =>
    obtain ⟨refused, ran, rfl⟩ := errorHandler_eq_ok moved
    exact .fails pending other ran
  | false =>
    cases moved
    exact .goesOn pending follows

/-- One case for each outstanding operation. -/
theorem moves_of_step {event : Event} (stepped : step client s event = some s') : Moves client s event s' := by
  obtain ⟨result, handled, done⟩ := Option.bind_eq_some_iff.mp stepped
  obtain rfl : result = .ok s' := by
    cases result with
    | error abort => cases done
    | ok next =>
      cases done
      rfl
  cases event with
  | calls =>
    obtain ⟨log, called, ran⟩ := Option.map_eq_some_iff.mp handled
    obtain ⟨shared, counted, same⟩ := Program.except_bind_eq_ok.mp ran
    cases same
    exact .called called counted
  | completes ec body =>
    cases pending : s.pending with
    | none => simp [handle, pending] at handled
    | some operation =>
      cases operation with
      | resolve =>
        simp only [handle, pending, Option.some.injEq] at handled
        exact moves_of_branch body pending (by simp) .connect handled
      | connect =>
        simp only [handle, pending, Option.some.injEq] at handled
        exact moves_of_branch body pending (by simp) .handshake handled
      | handshake =>
        simp only [handle, pending, Option.some.injEq, handshakeHandler] at handled
        cases ec with
        | true =>
          obtain ⟨refused, ran, rfl⟩ := errorHandler_eq_ok handled
          exact .fails pending (by simp) ran
        | false =>
          obtain ⟨target, filled, same⟩ := Program.except_bind_eq_ok.mp handled
          cases same
          obtain ⟨inside, -⟩ := List.getElem?_eq_some_iff.mp (fillHttpRequest_eq_ok filled)
          exact .goesOn pending (.write inside)
      | write it =>
        simp only [handle, pending, Option.some.injEq] at handled
        exact moves_of_branch body pending (by simp) (.read it) handled
      | read it =>
        simp only [handle, pending, Option.ite_none_left_eq_some, Option.some.injEq] at handled
        obtain ⟨unlocked, handled⟩ := handled
        cases ec with
        | true =>
          obtain ⟨refused, ran, rfl⟩ := errorHandler_eq_ok handled
          exact .fails pending (by simp) ran
        | false =>
          obtain ⟨target, filled, handled⟩ := Program.except_bind_eq_ok.mp handled
          obtain ⟨next, started, handled⟩ := Program.except_bind_eq_ok.mp handled
          obtain ⟨log, made, same⟩ := Program.except_bind_eq_ok.mp handled
          cases same
          have quiet : s.callback = none := by simpa using unlocked
          exact .reads pending quiet (fillHttpRequest_eq_ok filled) started (Program.mapError_eq_ok.mp made)
      | shutdown =>
        simp only [handle, pending, Option.some.injEq] at handled
        cases handled
        exact .goesOn pending .ended

/-- The next operation has the position of the one before. -/
theorem Follows.position {operation : Operation} {next : Option Operation} {reads : Nat}
    (follows : Follows client operation next) (position : Position client (some operation) reads) :
    Position client next reads := by
  cases follows with
  | connect | handshake => exact position
  | write targets => exact ⟨position, targets⟩
  | read it => exact position
  | ended => exact position

/-- Behind a target comes the next one, or the end. -/
theorem startNext_eq_ok {it : Nat} {next : Operation} (started : startNext client it = .ok next) :
    (it + 1 < targetCount client ∧ next = .write (it + 1)) ∨ (it + 1 = targetCount client ∧ next = .shutdown) := by
  unfold startNext at started
  split at started
  · next more =>
    cases filled : fillHttpRequest client (it + 1) with
    | error abort =>
      rw [filled] at started
      cases started
    | ok target =>
      rw [filled] at started
      cases started
      obtain ⟨inside, -⟩ := List.getElem?_eq_some_iff.mp (fillHttpRequest_eq_ok filled)
      exact .inl ⟨inside, rfl⟩
  · next last =>
    cases started
    exact .inr ⟨not_not.mp last, rfl⟩

/-! The invariant. -/

/-- Nothing has failed: the callback has run over all logs but the one on its way to it. -/
structure InTurn (client : DownloadClient σ) (start : σ) (s : LogDownloader σ) : Prop where
  position : Position client s.pending s.downloaded.length
  seen : ∃ seen, s.downloaded = seen ++ s.callback.toList ∧ callbacks client seen start = .ok s.shared

/-- An operation has failed: the error handler has run behind the callbacks, or before the last of them. -/
structure Interrupted (client : DownloadClient σ) (start : σ) (s : LogDownloader σ) : Prop where
  ended : s.pending = none
  short : client.request.targets ≠ [] → s.downloaded.length < targetCount client
  seen : ∃ before after between refused, s.downloaded = before ++ (after ++ s.callback.toList) ∧
    (after ++ s.callback.toList).length ≤ 1 ∧ callbacks client before start = .ok between ∧
    client.errorHandler between = .ok refused ∧ callbacks client after refused = .ok s.shared

/-- The logs are those of the first targets, in order. -/
def Received (client : DownloadClient σ) (answer : Target → Bytes) (s : LogDownloader σ) : Prop :=
  s.downloaded =
    (client.request.targets.take s.downloaded.length).map (received client.request.parser answer)

/-- The run is one callback after the other. -/
structure Serial (client : DownloadClient σ) (answer : Target → Bytes) (start : σ) (s : LogDownloader σ) : Prop where
  received : Received client answer s
  order : InTurn client start s ∨ Interrupted client start s

theorem callbacks_append {logs : List Log} {log : Log} {shared shared' : σ}
    (ran : callbacks client logs start = .ok shared) (called : client.callback log shared = .ok shared') :
    callbacks client (logs ++ [log]) start = .ok shared' := by
  unfold callbacks at ran ⊢
  rw [List.foldlM_append, ran]
  simp only [List.foldlM_cons, List.foldlM_nil, called, bind, Except.bind, pure, Except.pure]

/-- With nothing left to come there have been reads for every target; before that one more is missing. -/
theorem Position.short {operation : Operation} {reads : Nat} (position : Position client (some operation) reads)
    (other : operation ≠ .shutdown) (targets : client.request.targets ≠ []) : reads < targetCount client := by
  have nonzero : 0 < targetCount client := List.length_pos_iff.mpr targets
  cases operation with
  | resolve | connect | handshake => exact lt_of_eq_of_lt position nonzero
  | write it | read it => exact position.1 ▸ position.2
  | shutdown => exact absurd rfl other

theorem InTurn.goesOn {operation : Operation} {next : Option Operation} (inTurn : InTurn client start s)
    (pending : s.pending = some operation) (follows : Follows client operation next) :
    InTurn client start { s with pending := next } :=
  ⟨follows.position (pending ▸ inTurn.position), inTurn.seen⟩

theorem InTurn.fails {operation : Operation} {refused : σ} (inTurn : InTurn client start s)
    (pending : s.pending = some operation) (other : operation ≠ .shutdown)
    (ran : client.errorHandler s.shared = .ok refused) :
    Interrupted client start { s with pending := none, shared := refused } := by
  obtain ⟨position, seen, split, called⟩ := inTurn
  refine ⟨rfl, (pending ▸ position : Position client (some operation) _).short other, ?_⟩
  refine ⟨seen, [], s.shared, refused, split, ?_, called, ran, rfl⟩
  cases s.callback <;> simp

theorem InTurn.reads {it : Nat} {log : Log} {next : Operation} (inTurn : InTurn client start s)
    (pending : s.pending = some (.read it)) (quiet : s.callback = none)
    (started : startNext client it = .ok next) :
    InTurn client start
      { s with pending := some next, callback := some log, downloaded := s.downloaded ++ [log] } := by
  obtain ⟨position, seen, split, called⟩ := inTurn
  rw [pending] at position
  rw [quiet, Option.toList_none, List.append_nil] at split
  constructor
  · rw [List.length_append, List.length_singleton, position.1]
    rcases startNext_eq_ok started with ⟨more, rfl⟩ | ⟨last, rfl⟩
    · exact ⟨rfl, more⟩
    · exact last
  · exact ⟨seen, by rw [split, Option.toList_some], called⟩

theorem InTurn.called {log : Log} {shared : σ} (inTurn : InTurn client start s) (waiting : s.callback = some log)
    (ran : client.callback log s.shared = .ok shared) : InTurn client start { s with callback := none, shared } := by
  obtain ⟨position, seen, split, called⟩ := inTurn
  rw [waiting, Option.toList_some] at split
  exact ⟨position, seen ++ [log], by rw [split, Option.toList_none, List.append_nil], callbacks_append called ran⟩

theorem Interrupted.called {log : Log} {shared : σ} (interrupted : Interrupted client start s)
    (waiting : s.callback = some log) (ran : client.callback log s.shared = .ok shared) :
    Interrupted client start { s with callback := none, shared } := by
  obtain ⟨ended, short, before, after, between, refused, split, one, called, handled, later⟩ := interrupted
  rw [waiting, Option.toList_some] at split one
  refine ⟨ended, short, before, after ++ [log], between, refused, ?_, ?_, called, handled,
    callbacks_append later ran⟩
  · rw [split, Option.toList_none, List.append_nil]
  · rw [Option.toList_none, List.append_nil]
    exact one

theorem order_step {event : Event} (order : InTurn client start s ∨ Interrupted client start s)
    (moves : Moves client s event s') : InTurn client start s' ∨ Interrupted client start s' := by
  rcases order with inTurn | interrupted
  · cases moves with
    | goesOn pending follows => exact .inl (inTurn.goesOn pending follows)
    | fails pending other ran => exact .inr (inTurn.fails pending other ran)
    | reads pending quiet _ started _ => exact .inl (inTurn.reads pending quiet started)
    | called waiting ran => exact .inl (inTurn.called waiting ran)
  · -- No operation is left, so only the callback can run.
    have ended := interrupted.ended
    cases moves with
    | goesOn pending _ => rw [ended] at pending; cases pending
    | fails pending _ _ => rw [ended] at pending; cases pending
    | reads pending _ _ _ _ => rw [ended] at pending; cases pending
    | called waiting ran => exact .inr (interrupted.called waiting ran)

theorem Received.step {event : Event} (received : Received client answer s)
    (reads : ∀ it, s.pending = some (.read it) → s.downloaded.length = it) (moves : Moves client s event s')
    (served : Served client answer s event) : Received client answer s' := by
  cases moves with
  | goesOn _ _ => exact received
  | fails _ _ _ => exact received
  | called _ _ => exact received
  | @reads it body target log next pending quiet found started made =>
    obtain rfl : body = answer target := served rfl it target pending found
    change s.downloaded ++ [log] = (client.request.targets.take (s.downloaded ++ [log]).length).map _
    rw [List.length_append, List.length_singleton, reads it pending, List.take_add_one, found, List.map_append,
      ← reads it pending, ← received, Option.toList_some, List.map_singleton, received_eq made]

theorem reads_of_order (order : InTurn client start s ∨ Interrupted client start s) {it : Nat}
    (pending : s.pending = some (.read it)) : s.downloaded.length = it := by
  rcases order with inTurn | interrupted
  · have position := inTurn.position
    rw [pending] at position
    exact position.1
  · rw [interrupted.ended] at pending
    cases pending

theorem Serial.run : Serial client answer start (run start) := ⟨rfl, .inl ⟨rfl, [], rfl, rfl⟩⟩

theorem Serial.step {event : Event} (serial : Serial client answer start s)
    (stepped : ServedStep client answer s event s') : Serial client answer start s' := by
  obtain ⟨received, order⟩ := serial
  have moves := moves_of_step stepped.1
  exact ⟨received.step (fun _ => reads_of_order order) moves stepped.2, order_step order moves⟩

theorem received_run (reached : Reaches (ServedStep client answer) (run start) s) : Received client answer s :=
  (reached.invariant Serial.run fun serial stepped => serial.step stepped).received

/-- Whatever the order of events: the logs are the answers to the first targets, and the shared data has been
through one callback after the other, and where an operation has failed through the error handler. -/
theorem serial_run (reached : Reaches (ServedStep client answer) (run start) s) : Serial client answer start s :=
  reached.invariant Serial.run fun serial stepped => serial.step stepped

theorem Received.all (received : Received client answer s) (all : s.downloaded.length = targetCount client) :
    s.downloaded = client.request.targets.map (LogRequest.received client.request.parser answer) := by
  rwa [Received, all, targetCount, List.take_length] at received

/-- A finished request that nothing has interrupted has called back with every log. -/
theorem InTurn.terminal (inTurn : InTurn client start s) (terminal : s.Terminal) :
    s.downloaded.length = targetCount client ∧ callbacks client s.downloaded start = .ok s.shared := by
  obtain ⟨position, seen, split, called⟩ := inTurn
  rw [terminal.1] at position
  rw [terminal.2, Option.toList_none, List.append_nil] at split
  exact ⟨position, split ▸ called⟩

/-! How long a request takes. -/

/-- The events a run can still make, with the callback of the log on its way. -/
def eventsLeft (client : DownloadClient σ) (s : LogDownloader σ) : Nat :=
  eventsFrom client s.pending + s.callback.toList.length

theorem Follows.fewer {operation : Operation} {next : Option Operation} (follows : Follows client operation next) :
    eventsFrom client next < eventsFrom client (some operation) := by
  cases follows with
  | connect | handshake | read it | ended => simp [eventsFrom]
  | write targets =>
    simp only [eventsFrom]
    omega

theorem startNext_fewer {it : Nat} {next : Operation} (started : startNext client it = .ok next) :
    eventsFrom client (some next) + 1 < eventsFrom client (some (.read it)) := by
  rcases startNext_eq_ok started with ⟨more, rfl⟩ | ⟨last, rfl⟩
  · simp only [eventsFrom]
    omega
  · simp only [eventsFrom]
    omega

/-- Every event uses one up. -/
theorem Moves.fewer {event : Event} (moves : Moves client s event s') : eventsLeft client s' < eventsLeft client s := by
  cases moves with
  | goesOn pending follows =>
    rw [eventsLeft, eventsLeft, pending]
    exact Nat.add_lt_add_right follows.fewer _
  | @fails operation _ _ pending _ _ =>
    have nonzero : 0 < eventsFrom client (some operation) := by cases operation <;> simp [eventsFrom]
    rw [eventsLeft, eventsLeft, pending]
    exact Nat.add_lt_add_right nonzero _
  | @reads it _ _ _ next pending quiet _ started _ =>
    have fewer := startNext_fewer started
    rw [eventsLeft, eventsLeft, pending, quiet]
    simpa using fewer
  | called waiting _ =>
    rw [eventsLeft, eventsLeft, waiting]
    simp

theorem length_run {events : List Event} (ran : Transition.run (step client) s events = some s') :
    events.length + eventsLeft client s' ≤ eventsLeft client s :=
  Transition.length_run (fun stepped => (moves_of_step stepped).fewer) ran

/-! A request that nothing goes wrong with. -/

theorem served_other {ec : Bool} {body : Bytes} {operation : Operation} (pending : s.pending = some operation)
    (other : ∀ it, operation ≠ .read it) : Served client answer s (.completes ec body) := by
  intro _ it _ reading
  rw [pending] at reading
  exact absurd (Option.some.inj reading) (other it)

variable {Counted : List Log → σ → Prop} {Refused : σ → Prop}

/-- The log of an answer is one that the parser has made. -/
theorem made_received {request : LogRequest} {target : Target}
    (parsed : ∀ target ∈ request.targets,
      ∃ log, Log.ofData target.period target.channelName (answer target) request.parser = .ok log)
    (member : target ∈ request.targets) : Made request (received request.parser answer target) := by
  obtain ⟨log, made⟩ := parsed target member
  rw [received_eq made]
  exact ⟨target, member, answer target, made⟩

/-- The service's answers are parsed, and the callback returns from their logs. -/
structure Serves (client : DownloadClient σ) (answer : Target → Bytes) (Counted : List Log → σ → Prop) : Prop where
  parsed : ∀ target ∈ client.request.targets,
    ∃ log, Log.ofData target.period target.channelName (answer target) client.request.parser = .ok log
  returns : ∀ {logs shared target}, Counted logs shared → logs.length < client.request.targets.length →
    target ∈ client.request.targets →
    ∃ next, client.callback (received client.request.parser answer target) shared = .ok next

/-- The log of one target is asked for, read, and handed to the callback. -/
theorem completes_target (contract : Contract client Counted Refused) (serves : Serves client answer Counted) {it : Nat}
    (working : Working client Counted s) (writing : s.pending = some (.write it)) (quiet : s.callback = none) :
    ∃ next s', startNext client it = .ok next ∧ Reaches (ServedStep client answer) s s' ∧ Working client Counted s' ∧
      s'.pending = some next ∧ s'.callback = none := by
  have position := working.position
  rw [writing] at position
  obtain ⟨reads, inside⟩ := position
  obtain ⟨target, member, filled⟩ := fillHttpRequest_ok inside
  obtain ⟨next, started, after⟩ := startNext_position inside
  obtain ⟨log, made⟩ := serves.parsed target member
  obtain ⟨counted, split, shared⟩ := working.counting
  rw [quiet, Option.toList_none, List.append_nil] at split
  have short : counted.length < client.request.targets.length := split ▸ reads ▸ inside
  obtain ⟨shared', called⟩ := serves.returns shared short member
  rw [received_eq made] at called
  have counts := contract.callback shared short ⟨target, member, answer target, made⟩ called
  -- The three states on the way.
  let asked : LogDownloader σ := { s with pending := some (.read it) }
  let got : LogDownloader σ :=
    { s with pending := some next, callback := some log, downloaded := s.downloaded ++ [log] }
  let handed : LogDownloader σ := { got with callback := none, shared := shared' }
  have writes : ServedStep client answer s (.completes false []) asked := by
    refine ⟨?_, served_other writing (by simp)⟩
    simp only [step, handle, writing, writeHandler, asked]
    rfl
  have reading : ServedStep client answer asked (.completes false (answer target)) got := by
    have ran : readHandler client it false (answer target) asked = .ok got := by
      simp only [readHandler, Bool.false_eq_true, ↓reduceIte, filled, started, made, bind, Except.bind]
      rfl
    refine ⟨?_, ?_⟩
    · simp only [step, handle, asked, quiet, Option.isSome_none, Bool.false_eq_true, and_false, ↓reduceIte]
      exact congrArg Except.toOption ran
    · intro _ index other pending found
      obtain rfl : it = index := by simpa [asked] using pending
      rw [fillHttpRequest_eq_ok filled] at found
      rw [Option.some.inj found]
  have calls : ServedStep client answer got .calls handed := by
    have ran : call client log got = .ok handed := by
      simp only [call, got, called, handed]
      rfl
    exact ⟨congrArg Except.toOption ran, trivial⟩
  refine ⟨next, handed, started, ((Relation.ReflTransGen.single ⟨_, writes⟩).tail ⟨_, reading⟩).tail ⟨_, calls⟩,
    ⟨?_, ⟨counted ++ [log], ?_, counts⟩, ?_⟩, rfl, rfl⟩
  · change Position client (some next) (s.downloaded ++ [log]).length
    rw [List.length_append, List.length_singleton, reads]
    exact after
  · change s.downloaded ++ [log] = counted ++ [log] ++ (none : Option Log).toList
    rw [split, Option.toList_none, List.append_nil]
  · intro other inside
    rcases List.mem_append.mp inside with old | new
    · exact working.made other old
    · rw [List.mem_singleton.mp new]
      exact ⟨target, member, answer target, made⟩

/-- Induction on the targets that are left. -/
theorem completes_targets (contract : Contract client Counted Refused) (serves : Serves client answer Counted)
    (left : Nat) {it : Nat} (ends : it + left + 1 = targetCount client) (working : Working client Counted s)
    (writing : s.pending = some (.write it)) (quiet : s.callback = none) :
    ∃ s', Reaches (ServedStep client answer) s s' ∧ Working client Counted s' ∧
      s'.pending = some .shutdown ∧ s'.callback = none := by
  induction left generalizing it s with
  | zero =>
    obtain ⟨next, s', started, reached, working', pending, quiet'⟩ :=
      completes_target contract serves working writing quiet
    rcases startNext_eq_ok started with ⟨more, rfl⟩ | ⟨-, rfl⟩
    · omega
    · exact ⟨s', reached, working', pending, quiet'⟩
  | succ left ih =>
    obtain ⟨next, s', started, reached, working', pending, quiet'⟩ :=
      completes_target contract serves working writing quiet
    rcases startNext_eq_ok started with ⟨-, rfl⟩ | ⟨last, rfl⟩
    · obtain ⟨s'', later, finished⟩ := ih (by omega) working' pending quiet'
      exact ⟨s'', reached.trans later, finished⟩
    · omega

/-- With a service whose answers are parsed, a request can finish with every log. -/
theorem completes (contract : Contract client Counted Refused) (initial : Counted [] start)
    (serves : Serves client answer Counted) :
    ∃ s, Reaches (ServedStep client answer) (run start) s ∧ s.Terminal ∧ s.downloaded.length = targetCount client := by
  have targets : 0 < targetCount client := List.length_pos_iff.mpr contract.nonempty
  obtain ⟨target, -, filled⟩ := fillHttpRequest_ok targets
  let waiting (operation : Operation) : LogDownloader σ := { run start with pending := some operation }
  have resolves : Next (ServedStep client answer) (waiting .resolve) (waiting .connect) :=
    ⟨.completes false [], rfl, served_other rfl (by simp)⟩
  have connects : Next (ServedStep client answer) (waiting .connect) (waiting .handshake) :=
    ⟨.completes false [], rfl, served_other rfl (by simp)⟩
  have shakes : Next (ServedStep client answer) (waiting .handshake) (waiting (.write 0)) := by
    have ran : handshakeHandler client false (waiting .handshake) = .ok (waiting (.write 0)) := by
      simp only [handshakeHandler, Bool.false_eq_true, ↓reduceIte, filled]
      rfl
    exact ⟨.completes false [], congrArg Except.toOption ran, served_other rfl (by simp)⟩
  have working : Working client Counted (waiting (.write 0)) :=
    ⟨⟨rfl, targets⟩, ⟨[], rfl, initial⟩, by simp [waiting, run]⟩
  obtain ⟨s, reached, working, shutting, quiet⟩ :=
    completes_targets contract serves (targetCount client - 1) (by omega) working rfl rfl
  have shuts : Next (ServedStep client answer) s { s with pending := none } := by
    refine ⟨.completes false [], ?_, served_other shutting (by simp)⟩
    simp only [step, handle, shutting]
    rfl
  have position := working.position
  rw [shutting] at position
  exact ⟨_, ((((Relation.ReflTransGen.single resolves).tail connects).tail shakes).trans reached).tail shuts,
    ⟨rfl, quiet⟩, position⟩

/-! One day that is searched. -/

def servedLog (_ : Target) : Bytes := ascii "[2019-02-08 12:34:56] #pajlada saiv: hello\n"

theorem serial_run_sample : ∃ s, s.Terminal ∧ s.downloaded.length = 1 ∧
    Serial (Finding.client Finding.sampleJob) servedLog (FindQuery.start 1) s := by
  have parsed : ∀ target ∈ Finding.sampleJob.request.targets, ∃ log,
      Log.ofData target.period target.channelName (servedLog target) Finding.sampleJob.request.parser = .ok log := by
    intro target member
    rw [List.mem_singleton.mp member]
    exact ⟨_, rfl⟩
  have initial : Finding.Searched Finding.sampleJob False [] (FindQuery.start 1) :=
    ⟨rfl, rfl, fun _ => ⟨id, rfl, rfl⟩, fun nothing => absurd nothing (by decide), by simp⟩
  have serves : Serves (Finding.client Finding.sampleJob) servedLog (Finding.Searched Finding.sampleJob False) :=
    ⟨parsed, fun searched short member =>
      (Finding.searched_next searched short (made_received parsed member)).imp fun _ => And.left⟩
  obtain ⟨s, reached, terminal, all⟩ := completes (Finding.contract Finding.sampleJob False) initial serves
  exact ⟨s, terminal, all, serial_run reached⟩

end LogDownloader

end SaivBot
