import Mathlib.Data.Finset.Dedup
import Mathlib.Data.List.Sort
import Mathlib.Data.Finset.Basic
import SaivBot.Logs.Downloader
import SaivBot.Logs.Line
import SaivBot.Logs.Matching
import SaivBot.Logs.RoundTrip
import SaivBot.Logs.Uploading

/-! What `find` does with each downloaded log, and with what it has found.

The last log decides: without a hit the requester is told so at once, otherwise the
lines are uploaded and the answer is what the host sends back.
-/

set_option autoImplicit false

namespace SaivBot
open Transition Program

/-- A line found, with the iterator to its channel; `none` is the end of the set. -/
structure FoundLine where
  channel : Option Bytes
  line : LogLine
  deriving DecidableEq

/-- `std::sort` by time: lines of one time may come in any order. -/
structure TimeSort where
  sort : List FoundLine → List FoundLine
  perm : ∀ lines, (sort lines).Perm lines
  sorted : ∀ lines, (sort lines).Pairwise fun a b => a.line.time ≤ b.line.time

/-- The part of `FindCallbackSharedData` that stays as the command set it, and the bot's libraries it
uses. -/
structure FindQuery where
  findFunc : Bytes → Except Exception Bool
  period : TimeDetail.TimePeriod
  request : Request
  channels : Finset Bytes
  sorting : TimeSort
  /-- `<<` of a time point. -/
  showTime : TimePoint → Bytes

/-- The part of `FindCallbackSharedData` behind the mutex, the upload it has started, and the lines posted
so far. -/
structure FindShared where
  referenceCount : Nat
  sharedLinesFound : List FoundLine
  upload : Option NuulsUploader
  posted : List Bytes

namespace FindQuery

variable (query : FindQuery)

/-- The loop over the lines. An exception of the search ends it, and what has been found stays. -/
def findLines (log : Log) (it : Option Bytes) : List LineView → List FoundLine
  | [] => []
  | line :: lines =>
    if query.period.isInside line.time then
      match query.findFunc (line.messageView.text log.data) with
      | .error _ => []
      | .ok true => ⟨it, LogLine.copyLineViewImpl 0 log.data line⟩ :: findLines log it lines
      | .ok false => findLines log it lines
    else findLines log it lines

def linesFound (log : Log) : List FoundLine :=
  if log.valid then
    let it := if log.channelName ∈ query.channels then some log.channelName else none
    query.findLines log it log.lines
  else []

def dumpLine (found : FoundLine) : Except Abort Bytes :=
  match found.channel with
  | none => .error (.fault .endIterator)
  | some channelName =>
    .ok (query.showTime found.line.time ++ ascii " #" ++ channelName ++ ascii " " ++ found.line.getNameView ++
      ascii ": " ++ found.line.getMessageView ++ ascii "\n")

def dumpFunc (lines : List FoundLine) : Except Abort Bytes := do
  let texts ← (query.sorting.sort lines).mapM query.dumpLine
  return texts.flatten

def noHitReply : Bytes := query.request.ircMsg.getNick ++ ascii ", no hit NaM"

def errorReply : Bytes := query.request.ircMsg.getNick ++ ascii ", " ++ ascii "Error while downloading log NaM"

def findCommandCallback (log : Log) (shared : FindShared) : Except Abort FindShared :=
  let linesFound := query.linesFound log
  if shared.referenceCount > 0 then
    let shared := { shared with
      referenceCount := shared.referenceCount - 1
      sharedLinesFound := shared.sharedLinesFound ++ linesFound }
    if shared.referenceCount = 0 then
      if shared.sharedLinesFound ≠ [] then do
        let str ← query.dumpFunc shared.sharedLinesFound
        return { shared with upload := some (NuulsUploader.run str) }
      else do
        let line ← query.request.ircMsg.replyLine query.noHitReply
        return { shared with posted := shared.posted ++ [line] }
    else return shared
  else return shared

def findCommandErrorHandler (shared : FindShared) : Except Abort FindShared := do
  let line ← query.request.ircMsg.replyLine query.errorReply
  return { shared with referenceCount := 0, posted := shared.posted ++ [line] }

/-- The callback of the upload. -/
def nuulsServerReply (str : Bytes) (shared : FindShared) : Except Abort FindShared := do
  let line ← query.request.ircMsg.replyLine (query.request.ircMsg.getNick ++ ascii ", " ++ str)
  return { shared with posted := shared.posted ++ [line] }

/-- The state the command hands to the downloader. -/
def start (targets : Nat) : FindShared :=
  { referenceCount := targets, sharedLinesFound := [], upload := none, posted := [] }

def errorLine : Bytes := privmsg query.request.channel query.errorReply
def noHitLine : Bytes := privmsg query.request.channel query.noHitReply
def linkLine (str : Bytes) : Bytes :=
  privmsg query.request.channel (query.request.ircMsg.getNick ++ ascii ", " ++ str)

end FindQuery

namespace Finding

inductive Event where
  | downloads (event : Downloading.Event)
  /-- An operation of the upload completes. -/
  | uploads (operation : Uploading.Operation) (ec : ErrorCode) (body : Bytes)

end Finding

open Finding (Event)

namespace FindQuery

variable (query : FindQuery)

/-- The downloader of a request with the callbacks of this query. -/
def client (request : LogRequest) : DownloadClient FindShared where
  request := request
  callback := query.findCommandCallback
  errorHandler := query.findCommandErrorHandler

/-- The upload's handler runs, and its callback if it calls it. -/
def uploads (shared : FindShared) (operation : Uploading.Operation) (ec : ErrorCode) (body : Bytes) :
    Option FindShared := do
  let upload ← shared.upload
  let (upload, called) ← upload.step operation ec body
  match called with
  | none => return { shared with upload := some upload }
  | some str => (query.nuulsServerReply str { shared with upload := some upload }).toOption

def step (request : LogRequest) (s : LogDownloader FindShared) : Event → Option (LogDownloader FindShared)
  | .downloads event => LogDownloader.step (query.client request) s event
  | .uploads operation ec body => (query.uploads s.shared operation ec body).map fun shared => { s with shared }

variable {query}

/-- What an operation of the upload does: it moves the upload on, and posts what it calls back with. -/
theorem uploads_cases {shared shared' : FindShared} {operation : Uploading.Operation} {ec : ErrorCode}
    {body : Bytes} (stepped : query.uploads shared operation ec body = some shared') :
    ∃ upload next called, shared.upload = some upload ∧ upload.step operation ec body = some (next, called) ∧
      shared' = { shared with
        upload := some next
        posted := shared.posted ++ (called.map query.linkLine).toList } := by
  obtain ⟨upload, running, stepped⟩ := Option.bind_eq_some_iff.mp stepped
  obtain ⟨⟨next, called⟩, moved, stepped⟩ := Option.bind_eq_some_iff.mp stepped
  refine ⟨upload, next, called, running, moved, ?_⟩
  cases called with
  | none =>
    cases stepped
    simp
  | some str =>
    simp only [nuulsServerReply, query.request.replyLine] at stepped
    cases stepped
    rfl

end FindQuery

/-- A find request with at least one target, as `findCommandFunc` sets it up. -/
structure FindJob where
  calendar : Civil.Calendar
  dateParser : DateParser
  service : LogService
  allUsers : Bool
  channels : List Bytes
  users : List Bytes
  query : FindQuery
  request : LogRequest
  filled : LogRequest.fillLogRequestTargetFields calendar dateParser service allUsers query.period channels users =
    some request
  listed : query.channels = channels.toFinset
  nonempty : request.targets ≠ []

namespace Finding

variable (job : FindJob)

def client : DownloadClient FindShared := job.query.client job.request

def start : LogDownloader FindShared := LogDownloader.run (FindQuery.start job.request.targets.length)

def step : LogDownloader FindShared → Event → Option (LogDownloader FindShared) := job.query.step job.request

/-- No operation of either connection outstanding, and no log on its way. -/
def Terminal (s : LogDownloader FindShared) : Prop :=
  s.Terminal ∧ ∀ upload, s.shared.upload = some upload → upload.pending = none

/-- An operation of the upload fails. -/
def Event.FailsUpload : Event → Prop
  | .downloads _ => False
  | .uploads operation ec _ => NuulsUploader.Fails operation ec

def errorLine : Bytes := job.query.errorLine
def noHitLine : Bytes := job.query.noHitLine
def linkLine (str : Bytes) : Bytes := job.query.linkLine str

/-! The invariant, for runs in which an operation of the upload has `failed` or not. -/

/-- The upload and the replies once every log has been searched. -/
inductive Answer (failed : Prop) : Option NuulsUploader → List Bytes → Prop where
  | noHit : ¬ failed → Answer failed none [noHitLine job]
  | uploading {upload : NuulsUploader} : ¬ failed → upload.pending ≠ none → Answer failed (some upload) []
  | link {upload : NuulsUploader} (str : Bytes) : ¬ failed → upload.pending = none →
      Answer failed (some upload) [linkLine job str]
  | lost {upload : NuulsUploader} : failed → upload.pending = none → Answer failed (some upload) []

structure Searched (failed : Prop) (logs : List Log) (shared : FindShared) : Prop where
  count : shared.referenceCount = job.request.targets.length - logs.length
  found : shared.sharedLinesFound = logs.flatMap job.query.linesFound
  waiting : logs.length < job.request.targets.length → ¬ failed ∧ shared.upload = none ∧ shared.posted = []
  answered : logs.length = job.request.targets.length → Answer job failed shared.upload shared.posted
  known : ∀ log ∈ logs, log.channelName ∈ job.query.channels

structure Refused (failed : Prop) (shared : FindShared) : Prop where
  ignoring : shared.referenceCount = 0
  noUpload : shared.upload = none
  posted : shared.posted = [errorLine job]
  notFailed : ¬ failed

variable {job} {failed : Prop}

theorem mem_findLines {query : FindQuery} {log : Log} {it : Option Bytes} {lines : List LineView}
    {found : FoundLine} (member : found ∈ query.findLines log it lines) : found.channel = it := by
  induction lines with
  | nil => cases member
  | cons line lines ih =>
    unfold FindQuery.findLines at member
    split at member
    · split at member
      · cases member
      · rcases List.mem_cons.mp member with rfl | member
        · rfl
        · exact ih member
      · exact ih member
    · exact ih member

/-- Every line found has its channel. -/
theorem mem_linesFound {query : FindQuery} {log : Log} (known : log.channelName ∈ query.channels)
    {found : FoundLine} (member : found ∈ query.linesFound log) : found.channel = some log.channelName := by
  unfold FindQuery.linesFound at member
  rw [if_pos known] at member
  split at member
  · exact mem_findLines member
  · cases member

theorem dumpFunc_ok {query : FindQuery} {lines : List FoundLine}
    (known : ∀ found ∈ lines, ∃ channel, found.channel = some channel) :
    ∃ text, query.dumpFunc lines = .ok text := by
  have each : ∀ found ∈ query.sorting.sort lines, ∃ text, query.dumpLine found = .ok text := by
    intro found member
    obtain ⟨channel, same⟩ := known found ((query.sorting.perm lines).mem_iff.mp member)
    exact ⟨_, by rw [FindQuery.dumpLine, same]⟩
  obtain ⟨texts, dumped⟩ := mapM_ok each
  exact ⟨texts.flatten, by rw [FindQuery.dumpFunc, dumped]; rfl⟩

/-- Before the last log the callback keeps what it has found. -/
theorem callback_waiting {query : FindQuery} (log : Log) {shared : FindShared} (more : 1 < shared.referenceCount) :
    query.findCommandCallback log shared =
      .ok { shared with
        referenceCount := shared.referenceCount - 1
        sharedLinesFound := shared.sharedLinesFound ++ query.linesFound log } := by
  have positive : shared.referenceCount > 0 := by omega
  have left : shared.referenceCount - 1 ≠ 0 := by omega
  simp only [FindQuery.findCommandCallback, positive, left, ↓reduceIte]
  rfl

theorem callback_ignored {query : FindQuery} (log : Log) {shared : FindShared}
    (spent : shared.referenceCount = 0) : query.findCommandCallback log shared = .ok shared := by
  simp only [FindQuery.findCommandCallback, spent, Nat.lt_irrefl, gt_iff_lt, ↓reduceIte]
  rfl

/-- The last log decides between the answer and the upload. -/
theorem callback_last {query : FindQuery} (log : Log) {shared : FindShared} (last : shared.referenceCount = 1)
    (known : ∀ found ∈ shared.sharedLinesFound ++ query.linesFound log, ∃ channel, found.channel = some channel) :
    ∃ next, query.findCommandCallback log shared = .ok next ∧ next.referenceCount = 0 ∧
      next.sharedLinesFound = shared.sharedLinesFound ++ query.linesFound log ∧
      ((next.upload = shared.upload ∧
          next.posted = shared.posted ++ [privmsg query.request.channel query.noHitReply]) ∨
        ∃ text, next.upload = some (NuulsUploader.run text) ∧ next.posted = shared.posted) := by
  simp only [FindQuery.findCommandCallback, last, Nat.zero_lt_one, gt_iff_lt, Nat.sub_self, ↓reduceIte]
  split
  · obtain ⟨text, dumped⟩ := dumpFunc_ok known
    rw [dumped]
    exact ⟨_, rfl, rfl, rfl, .inr ⟨text, rfl, rfl⟩⟩
  · rw [query.request.replyLine]
    exact ⟨_, rfl, rfl, rfl, .inl ⟨rfl, rfl⟩⟩

theorem errorHandler_ok (query : FindQuery) (shared : FindShared) :
    query.findCommandErrorHandler shared =
      .ok { shared with
        referenceCount := 0
        posted := shared.posted ++ [privmsg query.request.channel query.errorReply] } := by
  simp only [FindQuery.findCommandErrorHandler, query.request.replyLine]
  rfl

theorem known_of_made {log : Log} (made : LogDownloader.Made job.request log) :
    log.channelName ∈ job.query.channels := by
  obtain ⟨target, member, body, made⟩ := made
  obtain ⟨read, -, same⟩ := except_bind_eq_ok.mp made
  cases same
  rw [job.listed, List.mem_toFinset]
  exact LogRequest.channelName_mem job.calendar job.filled member

/-- The search in a log of the request always returns. -/
theorem searched_next {logs : List Log} {shared : FindShared} {log : Log} (searched : Searched job failed logs shared)
    (targets : logs.length < job.request.targets.length) (made : LogDownloader.Made job.request log) :
    ∃ next, job.query.findCommandCallback log shared = .ok next ∧ Searched job failed (logs ++ [log]) next := by
  obtain ⟨notFailed, noUpload, nothing⟩ := searched.waiting targets
  have known : ∀ other ∈ logs ++ [log], other.channelName ∈ job.query.channels := by
    intro other member
    rcases List.mem_append.mp member with old | new
    · exact searched.known other old
    · rw [List.mem_singleton.mp new]
      exact known_of_made made
  have found : shared.sharedLinesFound ++ job.query.linesFound log =
      (logs ++ [log]).flatMap job.query.linesFound := by
    rw [searched.found, List.flatMap_append, List.flatMap_singleton]
  by_cases last : logs.length + 1 = job.request.targets.length
  · have one : shared.referenceCount = 1 := by rw [searched.count]; omega
    have channels : ∀ line ∈ shared.sharedLinesFound ++ job.query.linesFound log,
        ∃ channel, line.channel = some channel := by
      intro line member
      rw [found] at member
      obtain ⟨other, inside, member⟩ := List.mem_flatMap.mp member
      exact ⟨_, mem_linesFound (known other inside) member⟩
    obtain ⟨next, called, count, lines, outcome⟩ := callback_last log one channels
    refine ⟨next, called, ?_, lines.trans found, ?_, fun _ => ?_, known⟩
    · rw [count, List.length_append, List.length_singleton]
      omega
    · intro short
      rw [List.length_append, List.length_singleton] at short
      omega
    · rcases outcome with ⟨upload, posted⟩ | ⟨text, upload, posted⟩
      · rw [upload, noUpload, posted, nothing]
        exact .noHit notFailed
      · rw [upload, posted, nothing]
        exact .uploading notFailed nofun
  · have several : 1 < shared.referenceCount := by rw [searched.count]; omega
    refine ⟨_, callback_waiting log several, ?_, found, fun _ => ⟨notFailed, noUpload, nothing⟩, ?_, known⟩
    · simp only [List.length_append, List.length_singleton, searched.count]
      omega
    · intro all
      rw [List.length_append, List.length_singleton] at all
      omega

theorem contract (job : FindJob) (failed : Prop) :
    LogDownloader.Contract (client job) (Searched job failed) (Refused job failed) where
  nonempty := job.nonempty
  callback := by
    intro logs shared log next searched more made called
    obtain ⟨other, ran, searched'⟩ := searched_next searched more made
    exact Except.ok.inj (ran.symm.trans called) ▸ searched'
  errorHandler := by
    intro logs shared searched short
    obtain ⟨notFailed, noUpload, nothing⟩ := searched.waiting short
    refine ⟨_, errorHandler_ok job.query shared, rfl, noUpload, ?_, notFailed⟩
    rw [nothing, List.nil_append]
    rfl
  ignored := by
    intro shared log next refused called
    exact Except.ok.inj ((callback_ignored log refused.ignoring).symm.trans called) ▸ refused

theorem Answer.uploads {shared shared' : FindShared} {operation : Uploading.Operation} {ec : ErrorCode}
    {body : Bytes} (answer : Answer job failed shared.upload shared.posted)
    (stepped : job.query.uploads shared operation ec body = some shared') :
    Answer job (failed ∨ NuulsUploader.Fails operation ec) shared'.upload shared'.posted := by
  obtain ⟨upload, next, called, running, moved, rfl⟩ := FindQuery.uploads_cases stepped
  obtain ⟨pending, outcome⟩ := NuulsUploader.step_cases moved
  rw [running] at answer
  generalize shared.posted = posted at answer
  cases answer with
  | uploading notFailed _ =>
    rcases outcome with ⟨fails, ended, rfl⟩ | ⟨fine, -, ended, rfl⟩ | ⟨fine, going, rfl⟩
    · exact .lost (.inr fails) ended
    · exact .link _ (not_or.mpr ⟨notFailed, fine⟩) ended
    · exact .uploading (not_or.mpr ⟨notFailed, fine⟩) going
  | link str _ ended | lost _ ended =>
    rw [ended] at pending
    cases pending

/-- The whole invariant, with what has happened to the upload so far. -/
def Invariant (job : FindJob) (failed : Prop) : LogDownloader FindShared → Prop :=
  LogDownloader.Invariant (client job) (Searched job failed) (Refused job failed)

variable {s s' : LogDownloader FindShared}

theorem start_invariant (job : FindJob) : Invariant job False (start job) := by
  apply LogDownloader.run_invariant
  refine ⟨rfl, rfl, fun _ => ⟨id, rfl, rfl⟩, fun nothing => ?_, by simp⟩
  exact absurd (List.eq_nil_of_length_eq_zero nothing.symm) job.nonempty

theorem step_invariant {event : Event} (invariant : Invariant job failed s)
    (stepped : step job s event = some s') : Invariant job (failed ∨ event.FailsUpload) s' := by
  cases event with
  | downloads event =>
    have same : (failed ∨ (Event.downloads event).FailsUpload) = failed := by simp [Event.FailsUpload]
    rw [same]
    exact LogDownloader.step_invariant (contract job failed) invariant stepped
  | uploads operation ec body =>
    obtain ⟨shared, moved, rfl⟩ := Option.map_eq_some_iff.mp stepped
    rcases invariant with working | refused
    · obtain ⟨counted, split, searched⟩ := working.counting
      obtain ⟨upload, next, called, running, -, same⟩ := FindQuery.uploads_cases moved
      have bound := (LogDownloader.counted_le split).trans working.position.le
      -- There is an upload once every log has been searched, and not before.
      have all : counted.length = job.request.targets.length := by
        rcases Nat.lt_or_eq_of_le bound with short | all
        · have waiting := (searched.waiting short).2.1
          rw [running] at waiting
          cases waiting
        · exact all
      refine .inl ⟨working.position, ⟨counted, split, ?_, ?_, ?_, fun all => ?_, searched.known⟩, working.made⟩
      · rw [same]
        exact searched.count
      · rw [same]
        exact searched.found
      · intro short
        exact absurd all (Nat.ne_of_lt short)
      · exact (searched.answered all).uploads moved
    · obtain ⟨upload, _, _, running, -⟩ := FindQuery.uploads_cases moved
      rw [refused.refused.noUpload] at running
      cases running

/-- What has happened to the upload in a run. -/
theorem run_invariant {events : List Event} (ran : run (step job) (start job) events = some s) :
    Invariant job (∃ event ∈ events, event.FailsUpload) s := by
  refine @Transition.run_invariant _ _ _ _ (fun events s => Invariant job (∃ event ∈ events, event.FailsUpload) s)
    ?_ ?_ _ _ ran
  · simpa using start_invariant job
  · intro events s event s' invariant stepped
    simpa [or_and_right, exists_or] using step_invariant invariant stepped

/-- At most one reply, which is one of three. -/
theorem posted_cases (invariant : Invariant job failed s) :
    s.shared.posted = [] ∨ ∃ line, s.shared.posted = [line] ∧
      (line = errorLine job ∨ line = noHitLine job ∨ ∃ str, line = linkLine job str) := by
  rcases invariant with working | refused
  · obtain ⟨counted, split, searched⟩ := working.counting
    rcases Nat.lt_or_eq_of_le ((LogDownloader.counted_le split).trans working.position.le) with short | all
    · exact .inl (searched.waiting short).2.2
    · have answer := searched.answered all
      generalize s.shared.upload = upload, s.shared.posted = posted at answer
      cases answer with
      | noHit _ => exact .inr ⟨_, rfl, .inr (.inl rfl)⟩
      | link str _ _ => exact .inr ⟨_, rfl, .inr (.inr ⟨str, rfl⟩)⟩
      | uploading _ _ | lost _ _ => exact .inl rfl
  · exact .inr ⟨_, refused.refused.posted, .inl rfl⟩

/-- A finished request has been answered unless its upload has failed. -/
theorem terminal_answer (invariant : Invariant job failed s) (terminal : Terminal s) :
    s.shared.posted.length = 1 ↔ ¬ failed := by
  obtain ⟨finished, uploaded⟩ := terminal
  rcases invariant.terminal finished with ⟨all, searched⟩ | ⟨-, refused⟩
  · have answer := searched.answered all
    generalize s.shared.posted = posted at answer
    cases shape : s.shared.upload with
    | none =>
      rw [shape] at answer
      cases answer with
      | noHit notFailed => simp [notFailed]
    | some upload =>
      rw [shape] at answer
      have ended := uploaded upload shape
      cases answer with
      | uploading _ going => exact absurd ended going
      | link _ notFailed _ => simp [notFailed]
      | lost lost _ => simp [lost]
  · simp [refused.posted, refused.notFailed]

/-- In every order of events at most one reply is posted: the error, that there is no hit, or the link. A
finished request has been answered exactly when no operation of its upload has failed. -/
theorem answered_iff (job : FindJob) {events : List Event} {s : LogDownloader FindShared}
    (ran : run (step job) (start job) events = some s) :
    (s.shared.posted.length ≤ 1 ∧
        ∀ line ∈ s.shared.posted, line = errorLine job ∨ line = noHitLine job ∨ ∃ str, line = linkLine job str) ∧
      (Terminal s → (s.shared.posted.length = 1 ↔ ∀ event ∈ events, ¬ event.FailsUpload)) := by
  have invariant := run_invariant ran
  refine ⟨?_, fun terminal => ?_⟩
  · rcases posted_cases invariant with nothing | ⟨line, one, kind⟩
    · simp [nothing]
    · simpa [one] using kind
  · rw [terminal_answer invariant terminal]
    simp

/-! One log with a hit. -/

def sampleSort : TimeSort where
  sort := List.insertionSort fun a b => a.line.time ≤ b.line.time
  perm := List.perm_insertionSort _
  sorted lines := by
    have total : Std.Total fun a b : FoundLine => a.line.time ≤ b.line.time := ⟨fun a b => Int.le_total _ _⟩
    have trans : IsTrans FoundLine fun a b => a.line.time ≤ b.line.time := ⟨fun _ _ _ => Int.le_trans⟩
    exact List.pairwise_insertionSort _ lines

def sampleJob : FindJob where
  calendar := Civil.gregorian
  dateParser := LogParsing.sampleParser
  service := .gempirLog
  allUsers := true
  channels := [ascii "pajlada"]
  users := []
  query := {
    findFunc message := .ok (decide (message = ascii "hello"))
    period := sampleQuery.period
    request := sampleQuery.request
    channels := {ascii "pajlada"}
    sorting := sampleSort
    showTime time := decimalInt time }
  request := {
    parser := LogParsing.gempirLogParser LogParsing.sampleParser
    host := ascii "api.gempir.com"
    port := ascii "443"
    targets := [⟨⟨1549584000000000000, 1549670400000000000⟩, ascii "pajlada", ascii "/channel/pajlada/2019/2/8"⟩] }
  filled := by
    have dates : LogRequest.periodToDates Civil.gregorian sampleQuery.period = some [⟨2019, 2, 8⟩] := by decide
    have period : TimeDetail.createYearMonthDayPeriod Civil.gregorian ⟨2019, 2, 8⟩ =
        ⟨1549584000000000000, 1549670400000000000⟩ := by decide
    have path : LogRequest.createGempirChannelTarget (ascii "pajlada") ⟨2019, 2, 8⟩ =
        ascii "/channel/pajlada/2019/2/8" := by decide
    simp [LogRequest.fillLogRequestTargetFields, LogRequest.generateDateList, dates, period, path]
  listed := by rfl
  nonempty := by simp

/-- The log is downloaded and searched. -/
def sampleDownload : List Event :=
  [.completes false [], .completes false [], .completes false [], .completes false [],
    .completes false (ascii "[2019-02-08 12:34:56] #pajlada saiv: hello\n"), .calls, .completes false []].map .downloads

theorem answered_iff_sample :
    ∃ s, (s.shared.posted.length ≤ 1 ∧ ∀ line ∈ s.shared.posted,
        line = errorLine sampleJob ∨ line = noHitLine sampleJob ∨ ∃ str, line = linkLine sampleJob str) ∧
      (Terminal s → (s.shared.posted.length = 1 ↔
        ∀ event ∈ sampleDownload ++ [.uploads .resolve .success []], ¬ event.FailsUpload)) := by
  obtain ⟨s, ran⟩ :
      ∃ s, run (step sampleJob) (start sampleJob) (sampleDownload ++ [.uploads .resolve .success []]) = some s :=
    ⟨_, rfl⟩
  exact ⟨s, answered_iff sampleJob ran⟩

/-- A hit whose upload does not get through: the request has ended, and nobody is told. -/
theorem failed_upload_unanswered :
    ¬ ∀ (job : FindJob) (events : List Event) (s : LogDownloader FindShared),
      run (step job) (start job) events = some s → Terminal s → s.shared.posted.length = 1 := by
  intro answered
  obtain ⟨s, ran, terminal, silent⟩ :
      ∃ s, run (step sampleJob) (start sampleJob) (sampleDownload ++ [.uploads .resolve .failure []]) = some s ∧
        Terminal s ∧ s.shared.posted = [] := by
    refine ⟨_, rfl, ⟨⟨rfl, rfl⟩, ?_⟩, rfl⟩
    rintro upload ⟨⟩
    rfl
  have one := answered sampleJob _ s ran terminal
  simp [silent] at one

end Finding

end SaivBot
