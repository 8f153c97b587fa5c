import SaivBot.Program
import SaivBot.Transition
import SaivBot.Logs.Request

/-! `LogDownloader` with the two callbacks of its request as parameters.

One asynchronous operation is outstanding at a time. `readHandler` starts the
request for the next target before it hands the log it has just read to the
callback, so that request may fail first. A second `readHandler` waits for the
mutex, so at most one log is on its way to the callback.
-/

set_option autoImplicit false

namespace SaivBot
open Transition

namespace Downloading

/-- The operations of the handler chain; `it` is the index of the target. -/
inductive Operation where
  | resolve
  | connect
  | handshake
  | write (it : Nat)
  | read (it : Nat)
  | shutdown
  deriving DecidableEq, Repr

inductive Event where
  /-- The outstanding operation completes, with or without an error, having read `body`. -/
  | completes (ec : Bool) (body : Bytes)
  /-- `readHandler` goes on to call the callback. -/
  | calls

end Downloading

open Downloading (Operation Event)

/-- A request with its callbacks, which share data behind a mutex. -/
structure DownloadClient (σ : Type) where
  request : LogRequest
  callback : Log → σ → Except Abort σ
  errorHandler : σ → Except Abort σ

structure LogDownloader (σ : Type) where
  /-- The operation whose handler has not run yet. -/
  pending : Option Operation
  /-- The log `readHandler` is about to pass to the callback; it holds the mutex meanwhile. -/
  callback : Option Log
  shared : σ
  /-- Every log read so far, in order. -/
  downloaded : List Log

namespace LogDownloader

variable {σ : Type} (client : DownloadClient σ)

def run (shared : σ) : LogDownloader σ where
  pending := some .resolve
  callback := none
  shared := shared
  downloaded := []

/-- The request's error handler runs; the exception thrown then leaves the handler, so the chain
ends. -/
def errorHandler (s : LogDownloader σ) : Except Abort (LogDownloader σ) := do
  let shared ← client.errorHandler s.shared
  return { s with pending := none, shared }

def resolveHandler (ec : Bool) (s : LogDownloader σ) : Except Abort (LogDownloader σ) :=
  if ec then errorHandler client s else return { s with pending := some .connect }

def connectHandler (ec : Bool) (s : LogDownloader σ) : Except Abort (LogDownloader σ) :=
  if ec then errorHandler client s else return { s with pending := some .handshake }

/-- `fillHttpRequest(*it)`, for what it reads. -/
def fillHttpRequest (it : Nat) : Except Abort Target :=
  match client.request.targets[it]? with
  | none => .error (.fault .endIterator)
  | some target => .ok target

def handshakeHandler (ec : Bool) (s : LogDownloader σ) : Except Abort (LogDownloader σ) :=
  if ec then errorHandler client s
  else do
    let _ ← fillHttpRequest client 0
    return { s with pending := some (.write 0) }

def writeHandler (it : Nat) (ec : Bool) (s : LogDownloader σ) : Except Abort (LogDownloader σ) :=
  if ec then errorHandler client s else return { s with pending := some (.read it) }

/-- The operation started before the log is made: the next request, or the shutdown. -/
def startNext (it : Nat) : Except Abort Operation :=
  if it + 1 ≠ client.request.targets.length then
    (fillHttpRequest client (it + 1)).map fun _ => .write (it + 1)
  else .ok .shutdown

/-- Up to the point where the log is complete. -/
def readHandler (it : Nat) (ec : Bool) (body : Bytes) (s : LogDownloader σ) :
    Except Abort (LogDownloader σ) :=
  if ec then errorHandler client s
  else do
    let target ← fillHttpRequest client it
    -- The next request is under way before this log is made.
    let pending ← startNext client it
    let log ← (Log.ofData target.period target.channelName body client.request.parser).mapError Abort.ofView
    return { s with pending := some pending, callback := some log, downloaded := s.downloaded ++ [log] }

def shutdownHandler (s : LogDownloader σ) : Except Abort (LogDownloader σ) := return { s with pending := none }

def call (log : Log) (s : LogDownloader σ) : Except Abort (LogDownloader σ) := do
  let shared ← client.callback log s.shared
  return { s with callback := none, shared }

def handle (s : LogDownloader σ) : Event → Option (Except Abort (LogDownloader σ))
  | .completes ec body =>
    match s.pending with
    | none => none
    | some .resolve => some (resolveHandler client ec s)
    | some .connect => some (connectHandler client ec s)
    | some .handshake => some (handshakeHandler client ec s)
    | some (.write it) => some (writeHandler client it ec s)
    | some (.read it) =>
      -- without an error the handler waits for the mutex first
      if ec = false ∧ s.callback.isSome then none else some (readHandler client it ec body s)
    | some .shutdown => some (shutdownHandler s)
  | .calls => s.callback.map fun log => call client log s

/-- A handler that does not return has no next state. That happens only where the log parser or the callback
does not return (`handle_spec`). -/
def step (s : LogDownloader σ) (event : Event) : Option (LogDownloader σ) :=
  (handle client s event).bind Except.toOption

/-- No operation outstanding and no log on its way. -/
def Terminal (s : LogDownloader σ) : Prop := s.pending = none ∧ s.callback = none

/-! The invariant. As long as nothing has failed, the position in the chain tells how many logs have
been read, and the shared data which of them the callback has seen. -/

/-- A log that the request's parser has made of what was read for one of its targets. -/
def Made (request : LogRequest) (log : Log) : Prop :=
  ∃ target ∈ request.targets, ∃ body, Log.ofData target.period target.channelName body request.parser = .ok log

/-- What the request and its callbacks promise: there is something to download, and the data is `Counted` after
the callback has returned from these logs and `Refused` after an error. -/
structure Contract (Counted : List Log → σ → Prop) (Refused : σ → Prop) : Prop where
  nonempty : client.request.targets ≠ []
  callback : ∀ {logs shared log next}, Counted logs shared → logs.length < client.request.targets.length →
    Made client.request log → client.callback log shared = .ok next → Counted (logs ++ [log]) next
  errorHandler : ∀ {logs shared}, Counted logs shared → logs.length < client.request.targets.length →
    ∃ next, client.errorHandler shared = .ok next ∧ Refused next
  ignored : ∀ {shared log next}, Refused shared → client.callback log shared = .ok next → Refused next

def targetCount : Nat := client.request.targets.length

/-- The number of logs read when this operation is outstanding. -/
def Position : Option Operation → Nat → Prop
  | some .resolve, reads => reads = 0
  | some .connect, reads => reads = 0
  | some .handshake, reads => reads = 0
  | some (.write it), reads => reads = it ∧ it < targetCount client
  | some (.read it), reads => reads = it ∧ it < targetCount client
  | some .shutdown, reads => reads = targetCount client
  | none, reads => reads = targetCount client

structure Working (Counted : List Log → σ → Prop) (s : LogDownloader σ) : Prop where
  position : Position client s.pending s.downloaded.length
  counting : ∃ counted, s.downloaded = counted ++ s.callback.toList ∧ Counted counted s.shared
  made : ∀ log ∈ s.downloaded, Made client.request log

structure Failed (Refused : σ → Prop) (s : LogDownloader σ) : Prop where
  ended : s.pending = none
  refused : Refused s.shared
  short : s.downloaded.length < targetCount client

def Invariant (Counted : List Log → σ → Prop) (Refused : σ → Prop) (s : LogDownloader σ) : Prop :=
  Working client Counted s ∨ Failed client Refused s

variable {client} {Counted : List Log → σ → Prop} {Refused : σ → Prop} {s s' : LogDownloader σ}

theorem counted_le {counted : List Log} (split : s.downloaded = counted ++ s.callback.toList) :
    counted.length ≤ s.downloaded.length := by
  rw [split, List.length_append]
  exact Nat.le_add_right _ _

/-- No position in the chain has read more logs than there are targets. -/
theorem Position.le {pending : Option Operation} {reads : Nat} (position : Position client pending reads) :
    reads ≤ targetCount client := by
  cases pending with
  | none => exact Nat.le_of_eq position
  | some operation =>
    cases operation with
    | resolve | connect | handshake => exact (Nat.le_of_eq position).trans (Nat.zero_le _)
    | write it | read it => exact position.1 ▸ Nat.le_of_lt position.2
    | shutdown => exact Nat.le_of_eq position

/-- Moving on in the chain without reading anything. -/
theorem Working.advance (working : Working client Counted s) {pending : Option Operation}
    (position : Position client pending s.downloaded.length) :
    Working client Counted { s with pending } :=
  ⟨position, working.counting, working.made⟩

theorem fillHttpRequest_ok {it : Nat} (inside : it < targetCount client) :
    ∃ target ∈ client.request.targets, fillHttpRequest client it = .ok target := by
  refine ⟨client.request.targets[it], List.getElem_mem inside, ?_⟩
  simp only [fillHttpRequest, List.getElem?_eq_getElem inside]

theorem startNext_position {it : Nat} (inside : it < targetCount client) :
    ∃ next, startNext client it = .ok next ∧ Position client (some next) (it + 1) := by
  unfold startNext
  by_cases more : it + 1 ≠ client.request.targets.length
  · have insideNext : it + 1 < targetCount client := lt_of_le_of_ne inside more
    obtain ⟨target, -, filled⟩ := fillHttpRequest_ok insideNext
    rw [if_pos more, filled]
    exact ⟨.write (it + 1), rfl, rfl, insideNext⟩
  · rw [if_neg more]
    exact ⟨.shutdown, rfl, not_not.mp more⟩

section

variable (contract : Contract client Counted Refused)

include contract

theorem errorHandler_failed (working : Working client Counted s)
    (short : s.downloaded.length < targetCount client) :
    ∃ next, errorHandler client s = .ok next ∧ Failed client Refused next := by
  obtain ⟨counted, split, shared⟩ := working.counting
  have bound := counted_le split
  obtain ⟨next, handled, refused⟩ := contract.errorHandler shared (lt_of_le_of_lt bound short)
  exact ⟨{ s with pending := none, shared := next }, by simp only [errorHandler, handled]; rfl, rfl, refused, short⟩

/-- An operation that reads nothing either moves the chain on or ends it with the error handler. -/
theorem advance_or_fail (working : Working client Counted s) {ec : Bool} (pending : Option Operation)
    (short : s.downloaded.length < targetCount client)
    (position : Position client pending s.downloaded.length) :
    ∃ next, (if ec then errorHandler client s else .ok { s with pending }) = .ok next ∧
      Invariant client Counted Refused next := by
  cases ec with
  | true =>
    obtain ⟨next, handled, failed⟩ := errorHandler_failed contract working short
    exact ⟨next, by simpa using handled, .inr failed⟩
  | false => exact ⟨{ s with pending }, rfl, .inl (working.advance position)⟩

/-- Reading a log ends the chain, moves it on, or stops where the parser does. -/
theorem readHandler_spec (working : Working client Counted s) {it : Nat}
    (reading : s.pending = some (.read it)) {ec : Bool} {body : Bytes}
    (mutex : ec = false → s.callback = none) :
    (∃ next, readHandler client it ec body s = .ok next ∧ Invariant client Counted Refused next) ∨
      ∃ target ∈ client.request.targets, ∃ fault,
        Log.ofData target.period target.channelName body client.request.parser = .error fault ∧
          readHandler client it ec body s = .error (Abort.ofView fault) := by
  have position := working.position
  rw [reading] at position
  obtain ⟨reads, inside⟩ := position
  cases ec with
  | true =>
    obtain ⟨next, handled, failed⟩ := errorHandler_failed contract working (reads ▸ inside)
    exact .inl ⟨next, by simpa [readHandler] using handled, .inr failed⟩
  | false =>
    obtain ⟨target, member, filled⟩ := fillHttpRequest_ok inside
    obtain ⟨next, started, position⟩ := startNext_position inside
    obtain ⟨counted, split, shared⟩ := working.counting
    rw [mutex rfl, Option.toList_none, List.append_nil] at split
    cases made : Log.ofData target.period target.channelName body client.request.parser with
    | error fault =>
      refine .inr ⟨target, member, fault, made, ?_⟩
      simp only [readHandler, Bool.false_eq_true, ↓reduceIte, filled, started, made, bind, Except.bind]
      rfl
    | ok log =>
      refine .inl ⟨{ s with
        pending := some next, callback := some log, downloaded := s.downloaded ++ [log] }, ?_, .inl ⟨?_, ?_, ?_⟩⟩
      · simp only [readHandler, Bool.false_eq_true, ↓reduceIte, filled, started, made, bind, Except.bind]
        rfl
      · rw [List.length_append, List.length_singleton, reads]
        exact position
      · exact ⟨counted, by rw [split, Option.toList_some], shared⟩
      · intro other inside
        rcases List.mem_append.mp inside with old | new
        · exact working.made other old
        · rw [List.mem_singleton.mp new]
          exact ⟨target, member, body, made⟩

/-- The callback keeps the invariant, or does not return. -/
theorem call_spec {log : Log} (called : s.callback = some log)
    (invariant : Invariant client Counted Refused s) :
    (∃ next, call client log s = .ok next ∧ Invariant client Counted Refused next) ∨
      ∃ abort, client.callback log s.shared = .error abort ∧ call client log s = .error abort := by
  cases handled : client.callback log s.shared with
  | error abort => exact .inr ⟨abort, rfl, by simp only [call, handled]; rfl⟩
  | ok next =>
    refine .inl ⟨{ s with callback := none, shared := next }, by simp only [call, handled]; rfl, ?_⟩
    rcases invariant with working | failed
    · obtain ⟨counted, split, shared⟩ := working.counting
      rw [called, Option.toList_some] at split
      have more : counted.length < targetCount client := by
        have reads := working.position.le
        rw [split, List.length_append, List.length_singleton] at reads
        exact reads
      have made : Made client.request log := working.made log (by rw [split]; simp)
      refine .inl ⟨working.position, ⟨counted ++ [log], ?_, contract.callback shared more made handled⟩, working.made⟩
      rw [split, Option.toList_none, List.append_nil]
    · exact .inr ⟨failed.ended, contract.ignored failed.refused handled, failed.short⟩

/-- Every handler returns and keeps the invariant, unless the parser fails or the callback does not return: one
case for each outstanding operation. -/
theorem handle_spec (invariant : Invariant client Counted Refused s) {event : Event}
    {result : Except Abort (LogDownloader σ)} (handled : handle client s event = some result) :
    (∃ next, result = .ok next ∧ Invariant client Counted Refused next) ∨
      (∃ target ∈ client.request.targets, ∃ body fault,
        Log.ofData target.period target.channelName body client.request.parser = .error fault ∧
          result = .error (Abort.ofView fault)) ∨
      ∃ log ∈ s.callback, ∃ abort, client.callback log s.shared = .error abort ∧ result = .error abort := by
  have targets : 0 < targetCount client := List.length_pos_iff.mpr contract.nonempty
  cases event with
  | calls =>
    simp only [handle, Option.map_eq_some_iff] at handled
    obtain ⟨log, called, rfl⟩ := handled
    rcases call_spec contract called invariant with returned | ⟨abort, failed, same⟩
    · exact .inl returned
    · exact .inr (.inr ⟨log, called, abort, failed, same⟩)
  | completes ec body =>
    rcases invariant with working | failed
    · have position := working.position
      cases pending : s.pending with
      | none => simp [handle, pending] at handled
      | some operation =>
        rw [pending] at position
        cases operation with
        | resolve =>
          simp only [handle, pending, Option.some.injEq] at handled
          have start : s.downloaded.length = 0 := position
          subst handled
          exact .inl (advance_or_fail contract working (some .connect) (start ▸ targets) position)
        | connect =>
          simp only [handle, pending, Option.some.injEq] at handled
          have start : s.downloaded.length = 0 := position
          subst handled
          exact .inl (advance_or_fail contract working (some .handshake) (start ▸ targets) position)
        | handshake =>
          obtain ⟨target, -, filled⟩ := fillHttpRequest_ok targets
          simp only [handle, pending, Option.some.injEq, handshakeHandler, filled] at handled
          have start : s.downloaded.length = 0 := position
          subst handled
          exact .inl (advance_or_fail contract working (some (.write 0)) (start ▸ targets) ⟨start, targets⟩)
        | write it =>
          simp only [handle, pending, Option.some.injEq] at handled
          subst handled
          exact .inl (advance_or_fail contract working (some (.read it)) (position.1 ▸ position.2) position)
        | read it =>
          simp only [handle, pending, Option.ite_none_left_eq_some, Option.some.injEq] at handled
          obtain ⟨unlocked, rfl⟩ := handled
          have mutex : ec = false → s.callback = none := by
            intro success
            simpa [success] using unlocked
          rcases readHandler_spec contract working pending mutex with returned | ⟨target, member, fault, failed⟩
          · exact .inl returned
          · exact .inr (.inl ⟨target, member, body, fault, failed⟩)
        | shutdown =>
          simp only [handle, pending, Option.some.injEq] at handled
          subst handled
          exact .inl ⟨{ s with pending := none }, rfl, .inl (working.advance position)⟩
    · simp [handle, failed.ended] at handled

theorem step_invariant {event : Event} (invariant : Invariant client Counted Refused s)
    (stepped : step client s event = some s') : Invariant client Counted Refused s' := by
  obtain ⟨result, handled, done⟩ := Option.bind_eq_some_iff.mp stepped
  cases result with
  | error abort => cases done
  | ok next =>
    cases done
    rcases handle_spec contract invariant handled with ⟨_, same, kept⟩ | ⟨_, _, _, _, _, same⟩ | ⟨_, _, _, _, same⟩
    · cases same
      exact kept
    · cases same
    · cases same

end

theorem errorHandler_ok (handled : errorHandler client s = .ok s') : client.errorHandler s.shared = .ok s'.shared := by
  obtain ⟨shared, refused, same⟩ := Program.except_bind_eq_ok.mp handled
  cases same
  exact refused

/-- The shared data changes in the two callbacks only. -/
theorem step_shared {event : Event} (stepped : step client s event = some s') :
    s'.shared = s.shared ∨ (∃ log, client.callback log s.shared = .ok s'.shared) ∨
      client.errorHandler s.shared = .ok s'.shared := by
  obtain ⟨result, handled, done⟩ := Option.bind_eq_some_iff.mp stepped
  obtain rfl : result = .ok s' := by
    cases result with
    | error abort => cases done
    | ok next =>
      cases done
      rfl
  have advance {ec : Bool} {pending : Option Operation}
      (moved : (if ec then errorHandler client s else .ok { s with pending }) = .ok s') :
      s'.shared = s.shared ∨ client.errorHandler s.shared = .ok s'.shared := by
    cases ec with
    | true => exact .inr (errorHandler_ok moved)
    | false =>
      cases moved
      exact .inl rfl
  cases event with
  | calls =>
    obtain ⟨log, -, called⟩ := Option.map_eq_some_iff.mp handled
    obtain ⟨shared, counted, same⟩ := Program.except_bind_eq_ok.mp called
    cases same
    exact .inr (.inl ⟨log, counted⟩)
  | completes ec body =>
    unfold handle at handled
    dsimp only at handled
    split at handled
    · cases handled
    · exact (advance (Option.some.inj handled)).imp_right .inr
    · exact (advance (Option.some.inj handled)).imp_right .inr
    · have handled := Option.some.inj handled
      unfold handshakeHandler at handled
      split at handled
      · exact .inr (.inr (errorHandler_ok handled))
      · obtain ⟨_, -, same⟩ := Program.except_bind_eq_ok.mp handled
        cases same
        exact .inl rfl
    · exact (advance (Option.some.inj handled)).imp_right .inr
    · obtain ⟨-, handled⟩ := Option.ite_none_left_eq_some.mp handled
      have handled := Option.some.inj handled
      unfold readHandler at handled
      split at handled
      · exact .inr (.inr (errorHandler_ok handled))
      · obtain ⟨_, -, handled⟩ := Program.except_bind_eq_ok.mp handled
        obtain ⟨_, -, handled⟩ := Program.except_bind_eq_ok.mp handled
        obtain ⟨_, -, same⟩ := Program.except_bind_eq_ok.mp handled
        cases same
        exact .inl rfl
    · cases handled
      exact .inl rfl

theorem run_invariant {shared : σ} (start : Counted [] shared) :
    Invariant client Counted Refused (run shared) :=
  .inl ⟨rfl, ⟨[], rfl, start⟩, by simp [run]⟩

/-- In a finished chain the callback has seen every log, or the error handler has run. -/
theorem Invariant.terminal (invariant : Invariant client Counted Refused s) (terminal : Terminal s) :
    (s.downloaded.length = targetCount client ∧ Counted s.downloaded s.shared) ∨
      (s.downloaded.length < targetCount client ∧ Refused s.shared) := by
  obtain ⟨ended, quiet⟩ := terminal
  rcases invariant with working | failed
  · have reads := working.position
    rw [ended] at reads
    obtain ⟨counted, split, shared⟩ := working.counting
    rw [quiet, Option.toList_none, List.append_nil] at split
    exact .inl ⟨reads, split ▸ shared⟩
  · exact .inr ⟨failed.short, failed.refused⟩

end LogDownloader

end SaivBot
