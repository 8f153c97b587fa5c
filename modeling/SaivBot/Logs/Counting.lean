import SaivBot.Message.Replying
import SaivBot.Logs.Parsing
import SaivBot.Program

/-! What `count` does with each downloaded log.

The callbacks of one request share a counter of outstanding logs and a running
sum in `size_t`, which wraps at `2 ^ 64`.
-/

set_option autoImplicit false

namespace SaivBot
open StringView

/-- `Log::ParserFunc`. -/
abbrev ParserFunc := Bytes → Except ViewFault (Bool × List LineView)

structure Log where
  period : TimeDetail.TimePeriod
  channelName : Bytes
  data : Bytes
  valid : Bool
  lines : List LineView

/-- The constructor runs the parser over the downloaded data. -/
def Log.ofData (period : TimeDetail.TimePeriod) (channelName data : Bytes) (parser : ParserFunc) :
    Except ViewFault Log := do
  let (valid, lines) ← parser data
  return { period, channelName, data, valid, lines }

/-- Time, author and message of every line. -/
def Log.contents (log : Log) : List (TimePoint × Bytes × Bytes) := log.lines.map (·.content log.data)

def sizeLimit : Nat := 2 ^ 64

/-- `+=` on a `std::size_t`. -/
def addSize (a b : Nat) : Nat := (a + b) % sizeLimit

/-- The part of `CountCallbackSharedData` that stays as the command set it. The search counts, throws, or does
not come to its end, which is a fault. -/
structure CountQuery where
  countFunc : Bytes → Except Abort Nat
  period : TimeDetail.TimePeriod
  request : Request

/-- The part of `CountCallbackSharedData` behind the mutex, and the lines posted so far. -/
structure CountShared where
  referenceCount : Nat
  sharedCount : Nat
  posted : List Bytes
  deriving DecidableEq

namespace CountQuery

/-- The loop over the lines. An exception of the search ends it, and the sum so far stays. -/
def countLines (query : CountQuery) (data : Bytes) : List LineView → Nat → Except Abort Nat
  | [], count => .ok count
  | line :: lines, count =>
    if query.period.isInside line.time then
      match query.countFunc (line.messageView.text data) with
      | .ok more => countLines query data lines (addSize count more)
      | .error (.raise _) => .ok count
      | .error (.fault fault) => .error (.fault fault)
    else countLines query data lines count

/-- The sum over the lines inside the period. -/
def countLog (query : CountQuery) (log : Log) : Except Abort Nat :=
  if log.valid then query.countLines log.data log.lines 0 else .ok 0

def countReply (query : CountQuery) (count : Nat) : Bytes :=
  query.request.ircMsg.getNick ++ ascii ", count: " ++ decimal count

def errorReply (query : CountQuery) : Bytes :=
  query.request.ircMsg.getNick ++ ascii ", " ++ ascii "Error while downloading log NaM"

def countCommandCallback (query : CountQuery) (log : Log) (shared : CountShared) :
    Except Abort CountShared := do
  -- Counting happens in front of the lock.
  let count ← query.countLog log
  -- An error handler sets the counter to zero; what comes later is dropped.
  if shared.referenceCount > 0 then
    let shared := { shared with
      sharedCount := addSize shared.sharedCount count
      referenceCount := shared.referenceCount - 1 }
    if shared.referenceCount = 0 then
      let channel ← query.request.ircMsg.firstParam
      return { shared with
        posted := shared.posted ++ [privmsg channel (query.countReply shared.sharedCount)] }
    else return shared
  else return shared

def countCommandErrorHandler (query : CountQuery) (shared : CountShared) : Except Abort CountShared := do
  let line ← query.request.ircMsg.replyLine query.errorReply
  return { shared with referenceCount := 0, posted := shared.posted ++ [line] }

/-- The state the command hands to the downloader. -/
def start (targets : Nat) : CountShared := { referenceCount := targets, sharedCount := 0, posted := [] }

/-! What the two handlers leave, once the log has been counted. -/

variable {query : CountQuery} {log : Log} {shared : CountShared} {count : Nat}

theorem callback_waiting (counted : query.countLog log = .ok count) (more : 1 < shared.referenceCount) :
    query.countCommandCallback log shared =
      .ok { shared with
        sharedCount := addSize shared.sharedCount count
        referenceCount := shared.referenceCount - 1 } := by
  have positive : shared.referenceCount > 0 := by omega
  have left : shared.referenceCount - 1 ≠ 0 := by omega
  simp only [countCommandCallback, counted, positive, left, ↓reduceIte]
  rfl

theorem callback_last (counted : query.countLog log = .ok count) (last : shared.referenceCount = 1) :
    query.countCommandCallback log shared =
      .ok {
        sharedCount := addSize shared.sharedCount count
        referenceCount := 0
        posted := shared.posted ++ [privmsg query.request.channel
          (query.countReply (addSize shared.sharedCount count))] } := by
  simp only [countCommandCallback, counted, last, Nat.zero_lt_one, gt_iff_lt, Nat.sub_self, ↓reduceIte,
    query.request.firstParam]
  rfl

/-- After an error the counter is zero and later logs are ignored. -/
theorem callback_ignored (counted : query.countLog log = .ok count) (spent : shared.referenceCount = 0) :
    query.countCommandCallback log shared = .ok shared := by
  simp only [countCommandCallback, counted, spent, Nat.lt_irrefl, gt_iff_lt, ↓reduceIte]
  rfl

/-- The callback returns where the count does. -/
theorem callback_returns_iff : (∃ next, query.countCommandCallback log shared = .ok next) ↔
    ∃ count, query.countLog log = .ok count := by
  constructor
  · rintro ⟨next, called⟩
    obtain ⟨count, counted, -⟩ := Program.except_bind_eq_ok.mp called
    exact ⟨count, counted⟩
  · rintro ⟨count, counted⟩
    rcases Nat.lt_trichotomy shared.referenceCount 1 with spent | last | more
    · exact ⟨_, callback_ignored counted (Nat.lt_one_iff.mp spent)⟩
    · exact ⟨_, callback_last counted last⟩
    · exact ⟨_, callback_waiting counted more⟩

theorem callback_error {abort : Abort} (failed : query.countLog log = .error abort) :
    query.countCommandCallback log shared = .error abort := by
  rw [countCommandCallback, failed]
  rfl

theorem countLog_of_callback_error {abort : Abort} (failed : query.countCommandCallback log shared = .error abort) :
    ∃ abort, query.countLog log = .error abort := by
  cases counted : query.countLog log with
  | error abort => exact ⟨abort, rfl⟩
  | ok count =>
    obtain ⟨next, called⟩ := callback_returns_iff.mpr ⟨count, counted⟩
    cases called.symm.trans failed

theorem errorHandler_ok (query : CountQuery) (shared : CountShared) :
    query.countCommandErrorHandler shared =
      .ok { shared with
        referenceCount := 0
        posted := shared.posted ++ [privmsg query.request.channel query.errorReply] } := by
  simp only [countCommandErrorHandler, query.request.replyLine]
  rfl

/-! What is counted in a log. -/

/-- What the search counts on each of these lines inside the period, up to the first that it throws on. -/
def counts (query : CountQuery) : List (TimePoint × Bytes × Bytes) → List Nat
  | [] => []
  | content :: contents =>
    if query.period.isInside content.1 then
      match query.countFunc content.2.2 with
      | .ok count => count :: counts query contents
      | .error _ => []
    else counts query contents

/-- What is counted in a log; an invalid one counts for nothing. -/
def worth (query : CountQuery) (log : Log) : Nat := if log.valid then (query.counts log.contents).sum else 0

/-- Over every line inside the period of every valid log. -/
def countLogs (query : CountQuery) (logs : List Log) : Nat := (logs.map query.worth).sum

/-- Induction on the lines: one outside the period leaves the sum, and one inside adds to it modulo the limit. -/
theorem countLines_eq {data : Bytes} {lines : List LineView} {start : Nat} (small : start < sizeLimit)
    (counted : query.countLines data lines start = .ok count) :
    count = (start + (query.counts (lines.map (·.content data))).sum) % sizeLimit := by
  induction lines generalizing start with
  | nil =>
    cases counted
    simp [counts, Nat.mod_eq_of_lt small]
  | cons line lines ih =>
    have content : line.content data = (line.time, line.nameView.text data, line.messageView.text data) := rfl
    rw [List.map_cons, content, counts]
    unfold countLines at counted
    dsimp only
    split at counted
    · next inside =>
      rw [if_pos inside]
      cases found : query.countFunc (line.messageView.text data) with
      | ok more =>
        simp only [found] at counted ⊢
        have bound : addSize start more < sizeLimit := Nat.mod_lt _ (by decide)
        rw [ih bound counted, addSize, Nat.mod_add_mod, List.sum_cons, Nat.add_assoc]
      | error abort =>
        -- An exception leaves the sum, and after a fault there is none.
        cases abort with
        | raise exception =>
          simp only [found] at counted ⊢
          cases counted
          simp [Nat.mod_eq_of_lt small]
        | fault fault =>
          simp only [found] at counted
          cases counted
    · next outside =>
      rw [if_neg outside]
      exact ih small counted

theorem countLog_eq (counted : query.countLog log = .ok count) : count = query.worth log % sizeLimit := by
  unfold countLog at counted
  unfold worth
  split at counted
  · next valid =>
    rw [if_pos valid, countLines_eq (by decide) counted, Nat.zero_add]
    rfl
  · next invalid =>
    cases counted
    rw [if_neg invalid]
    rfl

theorem countLogs_append (query : CountQuery) (logs : List Log) (counted : query.countLog log = .ok count) :
    query.countLogs (logs ++ [log]) % sizeLimit = addSize (query.countLogs logs % sizeLimit) count := by
  rw [addSize, countLog_eq counted]
  simp [countLogs]

/-- A count that does not return has met a message inside the period on which the search does not. -/
theorem countLines_error {data : Bytes} {lines : List LineView} {start : Nat} {abort : Abort}
    (failed : query.countLines data lines start = .error abort) :
    ∃ line ∈ lines, query.period.isInside line.time = true ∧ ∃ fault, abort = .fault fault ∧
      query.countFunc (line.messageView.text data) = .error (.fault fault) := by
  induction lines generalizing start with
  | nil => cases failed
  | cons line lines ih =>
    have later {start : Nat} (failed : query.countLines data lines start = .error abort) :
        ∃ other ∈ line :: lines, query.period.isInside other.time = true ∧ ∃ fault, abort = .fault fault ∧
          query.countFunc (other.messageView.text data) = .error (.fault fault) := by
      obtain ⟨other, member, rest⟩ := ih failed
      exact ⟨other, List.mem_cons_of_mem line member, rest⟩
    unfold countLines at failed
    split at failed
    · next inside =>
      split at failed
      · exact later failed
      · cases failed
      · next fault endless =>
        cases failed
        exact ⟨line, List.mem_cons_self, inside, fault, rfl, endless⟩
    · exact later failed

theorem countLog_error {abort : Abort} (failed : query.countLog log = .error abort) :
    ∃ line ∈ log.lines, query.period.isInside line.time = true ∧ ∃ fault, abort = .fault fault ∧
      query.countFunc (line.messageView.text log.data) = .error (.fault fault) := by
  unfold countLog at failed
  split at failed
  · exact countLines_error failed
  · cases failed

/-- Something is counted in the valid logs with a line inside the period only. -/
theorem exists_of_worth (adds : query.worth log ≠ 0) :
    log.valid = true ∧ ∃ content ∈ log.contents, query.period.isInside content.1 = true := by
  unfold worth at adds
  split at adds
  · next valid =>
    refine ⟨valid, ?_⟩
    by_contra outside
    push Not at outside
    refine adds ?_
    generalize log.contents = contents at outside ⊢
    induction contents with
    | nil => rfl
    | cons content contents ih =>
      rw [counts, if_neg (outside content List.mem_cons_self)]
      exact ih fun other member => outside other (List.mem_cons_of_mem content member)
  · exact absurd rfl adds

/-- The search comes to its end on every message, with a count or an exception. -/
def Ends (query : CountQuery) : Prop := ∀ message fault, query.countFunc message ≠ .error (.fault fault)

theorem Ends.countLog (ends : query.Ends) (log : Log) : ∃ count, query.countLog log = .ok count := by
  cases counted : query.countLog log with
  | ok count => exact ⟨count, rfl⟩
  | error abort =>
    obtain ⟨_, _, _, fault, _, endless⟩ := countLog_error counted
    exact absurd endless (ends _ fault)

/-- What `count` says of a line of this content. -/
def countContent (query : CountQuery) (count : Bytes → Nat) (content : TimePoint × Bytes × Bytes) : Nat :=
  if query.period.isInside content.1 then count content.2.2 else 0

/-- The search counts what `count` says on the lines of these contents that lie inside the period. -/
def Tells (query : CountQuery) (count : Bytes → Nat) (contents : List (TimePoint × Bytes × Bytes)) : Prop :=
  ∀ content ∈ contents, query.period.isInside content.1 = true →
    query.countFunc content.2.2 = .ok (count content.2.2)

theorem Tells.sum_counts {value : Bytes → Nat} {contents : List (TimePoint × Bytes × Bytes)}
    (tells : query.Tells value contents) :
    (query.counts contents).sum = (contents.map (query.countContent value)).sum := by
  induction contents with
  | nil => rfl
  | cons content contents ih =>
    have rest := ih fun other member => tells other (List.mem_cons_of_mem content member)
    unfold counts
    rw [List.map_cons, List.sum_cons, countContent]
    split
    · next inside => rw [tells content List.mem_cons_self inside, List.sum_cons, rest]
    · rw [rest, Nat.zero_add]

/-- On these lines inside the period the search neither throws nor loops, and counts what `count` says. -/
def CountsOn (query : CountQuery) (count : Bytes → Nat) (history : List ChatLine) : Prop :=
  ∀ line ∈ history, query.period.isInside line.time = true → query.countFunc line.message = .ok (count line.message)

theorem CountsOn.mono {value : Bytes → Nat} {lines history : List ChatLine} (counts : query.CountsOn value history)
    (subset : lines ⊆ history) : query.CountsOn value lines :=
  fun line member => counts line (subset member)

theorem CountsOn.tells {value : Bytes → Nat} {history : List ChatLine} (counts : query.CountsOn value history) :
    query.Tells value (history.map (·.content)) := by
  intro content member
  obtain ⟨line, there, rfl⟩ := List.mem_map.mp member
  exact counts line there

/-- A log of such lines is counted to its end. -/
theorem Tells.countLog {value : Bytes → Nat} (tells : query.Tells value log.contents) :
    ∃ count, query.countLog log = .ok count := by
  cases counted : query.countLog log with
  | ok count => exact ⟨count, rfl⟩
  | error abort =>
    obtain ⟨line, member, inside, fault, -, endless⟩ := countLog_error counted
    have found := tells _ (List.mem_map_of_mem member) inside
    cases endless.symm.trans found

end CountQuery

/-- A PRIVMSG of #pajlada asks about most of one day. -/
def sampleQuery : CountQuery where
  countFunc message := .ok message.length
  period := ⟨1549584000000000000, 1549666800000000000⟩
  request := {
    ircMsg := { time := 0, data := ascii "PRIVMSG #pajlada", commandView := some ⟨0, 7⟩, paramsVec := [⟨8, 8⟩] }
    channel := ascii "#pajlada"
    privmsg := by decide
    names := by decide }

end SaivBot
