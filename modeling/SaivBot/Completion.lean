import SaivBot.Inquiries

/-! Errands come to an end.

Whatever the services do, an errand can take a limited number of steps, and as long as
it is not finished there is a step it can take, except for a count of a pattern that
loops on a message for ever.
-/

set_option autoImplicit false

namespace SaivBot
open Program BotState Transition

/-- How many operations an upload has left. -/
def NuulsUploader.operationsLeft (s : NuulsUploader) : Nat :=
  match s.pending with
  | none => 0
  | some .shutdown => 1
  | some .read => 2
  | some .write => 3
  | some .handshake => 4
  | some .connect => 5
  | some .resolve => 6

theorem NuulsUploader.step_fewer {s s' : NuulsUploader} {operation : Uploading.Operation} {ec : ErrorCode}
    {body : Bytes} {called : Option Bytes} (stepped : s.step operation ec body = some (s', called)) :
    s'.operationsLeft < s.operationsLeft := by
  obtain ⟨pending, handled⟩ := Option.ite_none_right_eq_some.mp stepped
  have handled := Option.some.inj handled
  cases operation with
  | shutdown =>
    simp only [handle, shutdownHandler] at handled
    split at handled <;> cases handled <;> simp [operationsLeft, pending, leave]
  | resolve | connect | handshake | write | read =>
    simp only [handle, resolveHandler, connectHandler, handshakeHandler, writeHandler, readHandler] at handled
    split at handled <;> cases handled <;> simp [operationsLeft, pending, leave]

/-- The operation that is outstanding can complete. -/
theorem NuulsUploader.step_pending {s : NuulsUploader} {operation : Uploading.Operation}
    (pending : s.pending = some operation) (ec : ErrorCode) (body : Bytes) :
    s.step operation ec body = some (s.handle ec body operation) := if_pos pending

namespace FindQuery

/-- How many operations of its upload a find request has left; the last log to come decides on one. -/
def operationsLeft (shared : FindShared) : Nat :=
  (if shared.referenceCount = 0 then 0 else 6) + (shared.upload.map NuulsUploader.operationsLeft).getD 0

variable {query : FindQuery} {shared next : FindShared}

theorem callback_operationsLeft {log : Log} (called : query.findCommandCallback log shared = .ok next) :
    operationsLeft next ≤ operationsLeft shared := by
  unfold findCommandCallback at called
  dsimp only at called
  split at called
  · next more =>
    -- An upload can still come.
    have before : operationsLeft shared = 6 + (shared.upload.map NuulsUploader.operationsLeft).getD 0 := by
      rw [operationsLeft, if_neg (Nat.ne_of_gt more)]
    rw [before]
    split at called
    · next last =>
      split at called
      · obtain ⟨str, -, same⟩ := except_bind_eq_ok.mp called
        cases same
        simp [operationsLeft, last, NuulsUploader.run, NuulsUploader.operationsLeft]
      · rw [query.request.replyLine] at called
        cases called
        simp [operationsLeft, last]
    · next several =>
      cases called
      simp [operationsLeft, several]
  · cases called
    exact Nat.le_refl _

/-- Every line that has been found, and every log on its way to the search, is of a known channel. -/
structure Known (query : FindQuery) (request : LogRequest) (s : LogDownloader FindShared) : Prop where
  targets : ∀ target ∈ request.targets, target.channelName ∈ query.channels
  found : ∀ found ∈ s.shared.sharedLinesFound, ∃ channel, found.channel = some channel
  waiting : ∀ log ∈ s.callback, log.channelName ∈ query.channels

/-- The search in a log of a known channel never fails. -/
theorem callback_known {log : Log} (known : ∀ found ∈ shared.sharedLinesFound, ∃ channel, found.channel = some channel)
    (named : log.channelName ∈ query.channels) :
    ∃ next, query.findCommandCallback log shared = .ok next ∧
      ∀ found ∈ next.sharedLinesFound, ∃ channel, found.channel = some channel := by
  have all : ∀ found ∈ shared.sharedLinesFound ++ query.linesFound log, ∃ channel, found.channel = some channel := by
    rw [List.forall_mem_append]
    exact ⟨known, fun found member => ⟨_, Finding.mem_linesFound named member⟩⟩
  -- The request has failed, or this is the last log, or more are to come.
  rcases Nat.lt_trichotomy shared.referenceCount 1 with spent | last | more
  · exact ⟨shared, Finding.callback_ignored log (Nat.lt_one_iff.mp spent), known⟩
  · obtain ⟨next, called, -, found, -⟩ := Finding.callback_last log last all
    exact ⟨next, called, found ▸ all⟩
  · exact ⟨_, Finding.callback_waiting log more, all⟩

end FindQuery

/-! Where an errand stands. -/

namespace LogDownloader

variable {σ : Type} {client : DownloadClient σ} {s s' : LogDownloader σ}

/-- An operation that is outstanding can complete with an error. -/
theorem pending_of_stuck (refuses : ∃ refused, client.errorHandler s.shared = .ok refused)
    (stuck : ∀ event, step client s event = none) : s.pending = none := by
  obtain ⟨refused, handled⟩ := refuses
  have fails : errorHandler client s = .ok { s with pending := none, shared := refused } := by
    simp only [errorHandler, handled]
    rfl
  cases pending : s.pending with
  | none => rfl
  | some operation =>
    have step := stuck (.completes true [])
    cases operation with
    | shutdown =>
      simp only [LogDownloader.step, handle, pending] at step
      cases step
    | resolve | connect | handshake | write it | read it =>
      simp only [LogDownloader.step, handle, pending, resolveHandler, connectHandler, handshakeHandler, writeHandler,
        readHandler, ↓reduceIte, fails, Bool.true_eq_false, false_and] at step
      cases step

/-- A log on its way can be handed on, unless the callback does not return from it. -/
theorem callback_of_stuck (stuck : ∀ event, step client s event = none) :
    ∀ log ∈ s.callback, ∃ abort, client.callback log s.shared = .error abort := by
  intro log waiting
  cases called : client.callback log s.shared with
  | error abort => exact ⟨abort, rfl⟩
  | ok next =>
    have ran : call client log s = .ok { s with callback := none, shared := next } := by
      simp only [call, called]
      rfl
    have step := stuck .calls
    rw [Option.mem_def] at waiting
    simp only [LogDownloader.step, handle, waiting, Option.map_some, ran] at step
    cases step

theorem step_of_failing (ended : s.pending = none)
    (failing : ∀ log ∈ s.callback, ∃ abort, client.callback log s.shared = .error abort)
    (event : Downloading.Event) : step client s event = none := by
  cases event with
  | completes ec body => simp only [step, handle, ended, Option.bind_none]
  | calls =>
    cases waiting : s.callback with
    | none => simp only [step, handle, waiting, Option.map_none, Option.bind_none]
    | some log =>
      obtain ⟨abort, failed⟩ := failing log waiting
      have aborts : call client log s = .error abort := by
        simp only [call, failed]
        rfl
      simp only [step, handle, waiting, Option.map_some, aborts, Option.bind_some]
      rfl

end LogDownloader

namespace Errand

/-- Nothing outstanding, and nothing on its way. -/
def Finished : Errand → Prop
  | .count _ _ s => s.Terminal
  | .find _ _ s => s.Terminal ∧ ∀ upload, s.shared.upload = some upload → upload.pending = none
  | .clip _ uploader => uploader.pending = none

/-- Nothing outstanding any more, and a count that never comes back from the log in its hands. -/
def Hangs : Errand → Prop
  | .count query _ s => s.pending = none ∧ ∃ log ∈ s.callback, ∃ abort, query.countLog log = .error abort
  | _ => False

/-- The log in the hands of the count has a message inside the period on which the pattern of its plan loops. -/
def Loops (env : Environment) : Errand → Prop
  | .count query _ s => ∃ plan : QueryPlan, plan.countQuery env query.request = .ok query ∧
      ∃ log ∈ s.callback, ∃ line ∈ log.lines, plan.period.isInside line.time = true ∧
        plan.target.Loops env.regex (line.messageView.text log.data)
  | _ => False

/-- The events it can still take part in. -/
def eventsLeft : Errand → Nat
  | .count query request s => LogDownloader.eventsLeft (query.client request) s
  | .find query request s => LogDownloader.eventsLeft (query.client request) s + FindQuery.operationsLeft s.shared
  | .clip _ uploader => uploader.operationsLeft

/-- Three events for each target, and a few to connect, to disconnect and to upload. -/
def eventLimit : Errand → Nat
  | .count _ request _ => 3 * request.targets.length + 4
  | .find _ request _ => 3 * request.targets.length + 10
  | .clip .. => 6

def Known (env : Environment) : Errand → Prop
  | .count query _ _ => ∃ plan : QueryPlan, plan.countQuery env query.request = .ok query
  | .find query request s => query.Known request s
  | .clip .. => True

variable {env : Environment} {errand errand' : Errand} {event : Finding.Event} {lines : List Bytes}

/-- Every event uses one up. -/
theorem step_fewer (stepped : errand.step event = some (errand', lines)) : errand'.eventsLeft < errand.eventsLeft := by
  cases moves_of_step stepped with
  | count moved => exact (LogDownloader.moves_of_step moved).fewer
  | @find query request s s' _ moved =>
    cases event with
    | downloads event =>
      have moved : LogDownloader.step (query.client request) s event = some s' := moved
      -- A log that comes can start the upload, for which six operations were put aside.
      have uploads : FindQuery.operationsLeft s'.shared ≤ FindQuery.operationsLeft s.shared := by
        rcases LogDownloader.step_shared moved with same | ⟨log, called⟩ | refused
        · rw [same]
        · exact FindQuery.callback_operationsLeft called
        · change query.findCommandErrorHandler s.shared = _ at refused
          rw [Finding.errorHandler_ok] at refused
          rw [← Except.ok.inj refused]
          simp [FindQuery.operationsLeft]
      exact Nat.add_lt_add_of_lt_of_le (LogDownloader.moves_of_step moved).fewer uploads
    | uploads operation ec body =>
      obtain ⟨shared, uploaded, rfl⟩ := Option.map_eq_some_iff.mp moved
      obtain ⟨upload, next, called, running, advanced, rfl⟩ := FindQuery.uploads_cases uploaded
      have fewer := NuulsUploader.step_fewer advanced
      simpa [eventsLeft, LogDownloader.eventsLeft, FindQuery.operationsLeft, running] using fewer
  | clip moved => exact NuulsUploader.step_fewer moved

/-- The targets stay as they are. -/
theorem step_eventLimit (stepped : errand.step event = some (errand', lines)) :
    errand'.eventLimit = errand.eventLimit := by
  cases moves_of_step stepped with
  | count | find | clip => rfl

theorem Starts.eventsLeft {work : Posted} (starts : Starts env work errand) :
    errand.eventsLeft ≤ errand.eventLimit := by
  cases starts with
  | count _ => exact Nat.le_refl _
  | @find plan asker request sorting query _ =>
    have uploads : FindQuery.operationsLeft (FindQuery.start request.targets.length) ≤ 6 := by
      unfold FindQuery.operationsLeft FindQuery.start
      split <;> simp
    exact Nat.add_le_add_left uploads _
  | clip => exact Nat.le_refl _

theorem Starts.known {work : Posted} (starts : Starts env work errand) (planned : work.Planned env) :
    errand.Known env := by
  cases starts with
  | count made =>
    obtain ⟨-, rfl, -⟩ := QueryPlan.countQuery_spec made
    exact ⟨_, made⟩
  | find made =>
    obtain ⟨-, -, channels, -, -⟩ := QueryPlan.findQuery_spec made
    refine ⟨?_, by simp [LogDownloader.run, FindQuery.start], by simp [LogDownloader.run]⟩
    intro target member
    rw [channels, List.mem_toFinset]
    exact LogRequest.channelName_mem env.calendar planned member
  | clip => trivial

theorem Known.step (known : errand.Known env) (stepped : errand.step event = some (errand', lines)) :
    errand'.Known env := by
  cases moves_of_step stepped with
  | count moved => exact known
  | clip => trivial
  | @find query request s s' _ moved =>
    obtain ⟨targets, found, waiting⟩ := known
    cases event with
    | downloads event =>
      have moves := LogDownloader.moves_of_step moved
      cases moves with
      | goesOn _ _ => exact ⟨targets, found, waiting⟩
      | fails _ _ refused =>
        change query.findCommandErrorHandler s.shared = _ at refused
        rw [Finding.errorHandler_ok] at refused
        cases refused
        exact ⟨targets, found, waiting⟩
      | @reads it body target log next _ _ there _ made =>
        -- The log is of the channel of the target that was asked for.
        refine ⟨targets, found, ?_⟩
        intro other same
        cases same
        obtain ⟨read, -, same⟩ := except_bind_eq_ok.mp made
        cases same
        exact targets target (List.mem_of_getElem? there)
      | @called log shared here called =>
        obtain ⟨next, ran, all⟩ := FindQuery.callback_known found (waiting log here)
        obtain rfl : next = shared := Except.ok.inj (ran.symm.trans called)
        exact ⟨targets, all, by simp⟩
    | uploads operation ec body =>
      obtain ⟨shared, uploaded, rfl⟩ := Option.map_eq_some_iff.mp moved
      obtain ⟨_, _, _, _, _, rfl⟩ := FindQuery.uploads_cases uploaded
      exact ⟨targets, found, waiting⟩

/-- The upload of a find request can go on as long as an operation is outstanding. -/
theorem uploads_pending {query : FindQuery} {shared : FindShared} {upload : NuulsUploader}
    {operation : Uploading.Operation} (running : shared.upload = some upload) (pending : upload.pending = some operation) :
    query.uploads shared operation .failure [] ≠ none := by
  unfold FindQuery.uploads
  rw [running]
  simp only [Option.bind_eq_bind, Option.bind_some, NuulsUploader.step_pending pending]
  cases upload.handle .failure [] operation with
  | mk next called =>
    cases called with
    | none => simp
    | some str =>
      simp [FindQuery.nuulsServerReply, query.request.replyLine, bind, Except.bind, pure, Except.pure, Except.toOption]

theorem stuck_of_finished (finished : errand.Finished) (event : Finding.Event) : errand.step event = none := by
  -- With no log on its way, the callback cannot fail.
  have quiet {σ : Type} {client : DownloadClient σ} {s : LogDownloader σ} (terminal : s.Terminal)
      (event : Downloading.Event) : LogDownloader.step client s event = none :=
    LogDownloader.step_of_failing terminal.1 (by simp [terminal.2]) event
  cases errand with
  | count query request s =>
    cases event with
    | uploads operation ec body => rfl
    | downloads event => exact Option.map_eq_none_iff.mpr (quiet finished event)
  | find query request s =>
    obtain ⟨terminal, uploaded⟩ := finished
    apply Option.map_eq_none_iff.mpr
    cases event with
    | downloads event => exact quiet terminal event
    | uploads operation ec body =>
      apply Option.map_eq_none_iff.mpr
      by_contra moved
      obtain ⟨shared, moved⟩ := Option.ne_none_iff_exists'.mp moved
      obtain ⟨upload, _, _, running, advanced, -⟩ := FindQuery.uploads_cases moved
      have pending := (NuulsUploader.step_cases advanced).1
      rw [uploaded upload running] at pending
      cases pending
  | clip ircMsg uploader =>
    have ended : uploader.pending = none := finished
    cases event with
    | downloads event => rfl
    | uploads operation ec body =>
      apply Option.map_eq_none_iff.mpr
      simp [NuulsUploader.step, ended]

theorem stuck_of_hangs (hangs : errand.Hangs) (event : Finding.Event) : errand.step event = none := by
  cases errand with
  | find | clip => cases hangs
  | count query request s =>
    obtain ⟨ended, log, waiting, abort, failed⟩ := hangs
    cases event with
    | uploads operation ec body => rfl
    | downloads event =>
      refine Option.map_eq_none_iff.mpr (LogDownloader.step_of_failing ended (fun other here => ?_) event)
      obtain rfl : log = other := Option.some.inj (waiting.symm.trans here)
      exact ⟨abort, CountQuery.callback_error failed⟩

/-- What loops there is a pattern of the plan. -/
theorem Hangs.loops (hangs : errand.Hangs) (known : errand.Known env) : errand.Loops env := by
  cases errand with
  | find | clip => cases hangs
  | count query request s =>
    obtain ⟨-, log, waiting, abort, failed⟩ := hangs
    obtain ⟨plan, made⟩ := known
    obtain ⟨line, member, inside, fault, -, endless⟩ := CountQuery.countLog_error failed
    have period := (QueryPlan.countQuery_spec made).1
    exact ⟨plan, made, log, waiting, line, member, period ▸ inside, QueryPlan.loops_of_fault made endless⟩

theorem finished_of_stuck (known : errand.Known env) (stuck : ∀ event, errand.step event = none) :
    errand.Finished ∨ errand.Hangs := by
  cases errand with
  | count query request s =>
    have halted (event : Downloading.Event) : LogDownloader.step (query.client request) s event = none :=
      Option.map_eq_none_iff.mp (stuck (.downloads event))
    have ended := LogDownloader.pending_of_stuck ⟨_, query.errorHandler_ok _⟩ halted
    cases waiting : s.callback with
    | none => exact .inl ⟨ended, waiting⟩
    | some log =>
      obtain ⟨abort, failed⟩ := LogDownloader.callback_of_stuck halted log waiting
      exact .inr ⟨ended, log, waiting, CountQuery.countLog_of_callback_error failed⟩
  | find query request s =>
    obtain ⟨targets, found, waiting⟩ := known
    have halted (event : Downloading.Event) : LogDownloader.step (query.client request) s event = none :=
      Option.map_eq_none_iff.mp (stuck (.downloads event))
    refine .inl ⟨⟨LogDownloader.pending_of_stuck ⟨_, Finding.errorHandler_ok _ _⟩ halted, ?_⟩, ?_⟩
    · by_contra here
      obtain ⟨log, here⟩ := Option.ne_none_iff_exists'.mp here
      obtain ⟨next, called, -⟩ := FindQuery.callback_known found (waiting log here)
      obtain ⟨abort, failed⟩ := LogDownloader.callback_of_stuck halted log here
      cases called.symm.trans failed
    · intro upload running
      cases pending : upload.pending with
      | none => rfl
      | some operation =>
        have halted := Option.map_eq_none_iff.mp (stuck (.uploads operation .failure []))
        exact absurd (Option.map_eq_none_iff.mp halted) (uploads_pending running pending)
  | clip ircMsg uploader =>
    refine .inl ?_
    change uploader.pending = none
    cases pending : uploader.pending with
    | none => rfl
    | some operation =>
      have halted := Option.map_eq_none_iff.mp (stuck (.uploads operation .failure []))
      rw [NuulsUploader.step_pending pending] at halted
      cases halted

end Errand

namespace System

variable {env : Environment} {start s : System}

/-- The errands of a run are within their limits, and their queries known. -/
theorem known_run {file : ConfigFile} (started : Started file start) (reached : Reaches (Step env) start s) :
    ∀ errand ∈ s.errands, errand.Known env ∧ errand.eventsLeft ≤ errand.eventLimit := by
  have initial : Holds (BotState.Planned env)
      (fun errand => errand.Known env ∧ errand.eventsLeft ≤ errand.eventLimit) start :=
    Holds.started started (planned_loaded file)
  have holds := reached.invariant initial fun holds step => by
    refine holds.step strand_planned (fun planned subset => planned.take subset) ?_ ?_ step
    · exact fun begun planned member => ⟨begun.known (planned _ member), begun.eventsLeft⟩
    · rintro index ran errand errand' lines rfl found stepped ⟨known, limit⟩
      have fewer := Errand.step_fewer stepped
      rw [← Errand.step_eventLimit stepped] at limit
      exact ⟨known.step stepped, Nat.le_trans (Nat.le_of_lt fewer) limit⟩
  exact holds.errands

/-- Every errand of a run can still take a limited number of steps, in any order of events, and it can take none
exactly if it is finished, or if it is a count that hangs in a log, on a message on which its pattern loops. -/
theorem errands_end {file : ConfigFile} (started : Started file start) (reached : Reaches (Step env) start s) :
    ∀ errand ∈ s.errands, (errand.Finished ∨ errand.Hangs ↔ ∀ event, errand.step event = none) ∧
      (errand.Hangs → errand.Loops env) ∧ errand.eventsLeft ≤ errand.eventLimit ∧
      ∀ events errand', run (fun errand event => (Errand.step errand event).map Prod.fst) errand events = some errand' →
        events.length + errand'.eventsLeft ≤ errand.eventsLeft := by
  intro errand member
  obtain ⟨known, limit⟩ := known_run started reached errand member
  have stuck_iff : errand.Finished ∨ errand.Hangs ↔ ∀ event, errand.step event = none :=
    ⟨Or.rec Errand.stuck_of_finished Errand.stuck_of_hangs, Errand.finished_of_stuck known⟩
  refine ⟨stuck_iff, fun hangs => hangs.loops known, limit, fun events errand' ran => ?_⟩
  -- Each event of the run is one step.
  refine length_run ?_ ran
  intro before event after moved
  obtain ⟨⟨_, lines⟩, stepped, rfl⟩ := Option.map_eq_some_iff.mp moved
  exact Errand.step_fewer stepped

/-- A count of two targets that has just been started. -/
theorem errands_end_sample : ∃ s errand, Reaches (Step inquiryEnvironment) inquiryStart s ∧ errand ∈ s.errands ∧
    errand.eventsLeft = 10 ∧ ¬ errand.Finished ∧ ∃ event, errand.step event ≠ none := by
  obtain ⟨plan, request, posted, asked⟩ : ∃ plan request,
      inquired.posted[3]? = some (.download .count plan (inquiry (ascii "count")) request) ∧ InquiryPlan plan request :=
    posted_inquired (by decide +kernel)
  let errand : Errand := .count inquiryCount request (LogDownloader.run (CountQuery.start request.targets.length))
  obtain ⟨s, later, errands⟩ := @reaches_started inquiryEnvironment LogRequest.sampleAnswer _ _ 3 _ errand errand posted
    (.count asked.countQuery) .refl
  have ran : Reaches (ServedStep inquiryEnvironment LogRequest.sampleAnswer) inquiryStart s := reaches_inquiring.trans later
  have reached : Reaches (Step inquiryEnvironment) inquiryStart s := ran.weaken fun step => step.1
  have member : errand ∈ s.errands := by simp [errands]
  obtain ⟨finished, -, -⟩ := errands_end started_inquiryStart reached errand member
  have resolving : ¬ errand.Finished := fun terminal => Option.some_ne_none _ terminal.1
  refine ⟨s, errand, reached, member, ?_, resolving, ?_⟩
  · change 3 * request.targets.length + 4 + 0 = 10
    rw [asked.targets]
  · by_contra still
    rcases finished.mpr fun event => not_not.mp (not_exists.mp still event) with ended | hangs
    · exact resolving ended
    · exact Option.some_ne_none _ hangs.1

end System

end SaivBot
