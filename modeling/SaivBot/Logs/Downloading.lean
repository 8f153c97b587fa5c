import SaivBot.Logs.Downloader
import SaivBot.Logs.RoundTrip

/-! `LogDownloader` and the counting callbacks, over every order of events. -/

set_option autoImplicit false

namespace SaivBot
open Transition

namespace CountQuery

variable (query : CountQuery)

/-- The downloader of a request with the callbacks of this query. -/
def client (request : LogRequest) : DownloadClient CountShared where
  request := request
  callback := query.countCommandCallback
  errorHandler := query.countCommandErrorHandler

def step (request : LogRequest) :
    LogDownloader CountShared → Downloading.Event → Option (LogDownloader CountShared) :=
  LogDownloader.step (query.client request)

def countLine (count : Nat) : Bytes := privmsg query.request.channel (query.countReply count)
def errorLine : Bytes := privmsg query.request.channel query.errorReply

theorem countLine_ne_errorLine (count : Nat) : query.countLine count ≠ query.errorLine := by
  intro same
  have replies := List.append_cancel_left same
  simp only [countReply, errorReply, List.append_assoc] at replies
  have tails := List.append_cancel_left replies
  have heads := congrArg (fun tail => tail[2]?) tails
  have second : ascii ", count: " = [44, 32, 99, 111, 117, 110, 116, 58, 32] := by decide
  have error : ascii "Error while downloading log NaM" = 69 :: ascii "rror while downloading log NaM" := by decide
  have comma : ascii ", " = [44, 32] := by decide
  rw [second, error, comma] at heads
  simp at heads

end CountQuery

/-- A count request that is about to be downloaded. -/
structure Job where
  query : CountQuery
  request : LogRequest
  nonempty : request.targets ≠ []

namespace Downloading

def run (job : Job) : LogDownloader CountShared :=
  LogDownloader.run (CountQuery.start job.request.targets.length)

variable (job : Job)

def step : LogDownloader CountShared → Event → Option (LogDownloader CountShared) := job.query.step job.request

/-! The invariant: the shared data tells how many of the logs have been counted. -/

def client : DownloadClient CountShared := job.query.client job.request

def targetCount : Nat := job.request.targets.length

def countLine (count : Nat) : Bytes := job.query.countLine count
def errorLine : Bytes := job.query.errorLine

/-- The shared data once these logs have been counted. -/
def tally (counted : List Log) : CountShared where
  referenceCount := targetCount job - counted.length
  sharedCount := job.query.countLogs counted % sizeLimit
  posted :=
    if counted.length = targetCount job then [countLine job (job.query.countLogs counted % sizeLimit)] else []

def Refused (shared : CountShared) : Prop := shared.referenceCount = 0 ∧ shared.posted = [errorLine job]

def Invariant : LogDownloader CountShared → Prop :=
  LogDownloader.Invariant (client job) (fun counted shared => shared = tally job counted) (Refused job)

variable {job} {s s' : LogDownloader CountShared}

theorem targetCount_pos (job : Job) : 0 < targetCount job := List.length_pos_iff.mpr job.nonempty

theorem tally_next {counted : List Log} (more : counted.length < targetCount job) {log : Log} {count : Nat}
    (here : job.query.countLog log = .ok count) :
    job.query.countCommandCallback log (tally job counted) = .ok (tally job (counted ++ [log])) := by
  have missing : counted.length ≠ targetCount job := Nat.ne_of_lt more
  have total := job.query.countLogs_append counted here
  by_cases last : counted.length + 1 = targetCount job
  · rw [CountQuery.callback_last here (by simp only [tally]; omega)]
    simp only [tally, List.length_append, List.length_singleton, last, missing, ↓reduceIte, Nat.sub_self,
      List.nil_append, total]
    rfl
  · rw [CountQuery.callback_waiting here (by simp only [tally]; omega)]
    simp only [tally, List.length_append, List.length_singleton, last, missing, ↓reduceIte, total, Nat.sub_sub]

theorem contract (job : Job) :
    LogDownloader.Contract (client job) (fun counted shared => shared = tally job counted) (Refused job) where
  nonempty := job.nonempty
  callback := by
    rintro logs _ log next rfl more - called
    obtain ⟨count, here⟩ := CountQuery.callback_returns_iff.mp ⟨next, called⟩
    exact Except.ok.inj (called.symm.trans (tally_next more here))
  errorHandler := by
    rintro logs _ rfl short
    -- A total is posted with the last log only, so nothing has been posted yet.
    have missing : logs.length ≠ targetCount job := Nat.ne_of_lt short
    refine ⟨_, job.query.errorHandler_ok _, rfl, ?_⟩
    simp only [tally, missing, ↓reduceIte, List.nil_append]
    rfl
  ignored := by
    rintro shared log next ⟨spent, posted⟩ called
    obtain ⟨count, here⟩ := CountQuery.callback_returns_iff.mp ⟨next, called⟩
    have same := Except.ok.inj (called.symm.trans (CountQuery.callback_ignored here spent))
    exact same ▸ ⟨spent, posted⟩

theorem step_invariant {event : Event} (invariant : Invariant job s)
    (stepped : step job s event = some s') : Invariant job s' :=
  LogDownloader.step_invariant (contract job) invariant stepped

theorem tally_nil (job : Job) : CountQuery.start job.request.targets.length = tally job [] := by
  have missing : 0 ≠ targetCount job := Nat.ne_of_lt (targetCount_pos job)
  simp only [tally, List.length_nil, missing, ↓reduceIte]
  rfl

theorem run_invariant : Invariant job (run job) := LogDownloader.run_invariant (tally_nil job)

/-- The reply of a finished request: the total if every download succeeded, and otherwise the error. -/
theorem terminal_reply (invariant : Invariant job s) (terminal : s.Terminal) :
    (s.downloaded.length = targetCount job ∧
        s.shared.posted = [countLine job (job.query.countLogs s.downloaded % sizeLimit)]) ∨
      (s.downloaded.length < targetCount job ∧ s.shared.posted = [errorLine job]) := by
  rcases invariant.terminal terminal with ⟨all, counted⟩ | ⟨short, refused⟩
  · have shared : s.shared = tally job s.downloaded := counted
    have length : s.downloaded.length = targetCount job := all
    refine .inl ⟨length, ?_⟩
    simp only [shared, tally, length, ↓reduceIte]
  · exact .inr ⟨short, refused.2⟩

theorem posted_le_one (invariant : Invariant job s) : s.shared.posted.length ≤ 1 := by
  rcases invariant with working | failed
  · obtain ⟨counted, -, tallied⟩ := working.counting
    have shared : s.shared = tally job counted := tallied
    simp only [shared, tally]
    split
    · exact Nat.le_refl 1
    · exact Nat.zero_le 1
  · have posted : s.shared.posted = [errorLine job] := failed.refused.2
    rw [posted]
    exact Nat.le_refl 1

/-- In every order of events at most one reply is posted, and a finished request has posted exactly
one: the count over all logs if and only if all of them were downloaded. -/
theorem one_reply (job : Job) {s : LogDownloader CountShared} (reached : Reaches (Of (step job)) (run job) s) :
    s.shared.posted.length ≤ 1 ∧
      (s.Terminal → ∃ line, s.shared.posted = [line] ∧
        ((∃ count, line = countLine job count) ↔ s.downloaded.length = targetCount job) ∧
        (s.downloaded.length = targetCount job →
          line = countLine job (job.query.countLogs s.downloaded % sizeLimit))) := by
  have invariant : Invariant job s := reached.invariant run_invariant step_invariant
  refine ⟨posted_le_one invariant, fun terminal => ?_⟩
  rcases terminal_reply invariant terminal with ⟨all, posted⟩ | ⟨short, posted⟩
  · exact ⟨_, posted, ⟨fun _ => all, fun _ => ⟨_, rfl⟩⟩, fun _ => rfl⟩
  · refine ⟨_, posted, ⟨?_, fun all => ?_⟩, fun all => ?_⟩
    · rintro ⟨count, same⟩
      exact absurd same.symm (job.query.countLine_ne_errorLine count)
    · exact absurd all (Nat.ne_of_lt short)
    · exact absurd all (Nat.ne_of_lt short)

/-! One log, downloaded and counted. -/

def sampleJob : Job where
  query := sampleQuery
  request := {
    parser := LogParsing.gempirLogParser LogParsing.sampleParser
    host := ascii "api.gempir.com"
    port := ascii "443"
    targets := [⟨sampleQuery.period, ascii "pajlada", ascii "/channel/pajlada/2019/2/8"⟩] }
  nonempty := by simp

def sampleBody : Bytes := ascii "[2019-02-08 12:34:56] #pajlada saiv: hello\n"

def sampleFinal : LogDownloader CountShared where
  pending := none
  callback := none
  shared := { referenceCount := 0, sharedCount := 5, posted := [countLine sampleJob 5] }
  downloaded := [{
    period := sampleQuery.period
    channelName := ascii "pajlada"
    data := sampleBody
    valid := true
    lines := [⟨⟨0, 43⟩, ⟨1, 19⟩, 1549629296000000000, ⟨31, 4⟩, ⟨37, 5⟩⟩] }]

theorem one_reply_sample :
    sampleFinal.shared.posted.length ≤ 1 ∧
      (sampleFinal.Terminal → ∃ line, sampleFinal.shared.posted = [line] ∧
        ((∃ count, line = countLine sampleJob count) ↔ sampleFinal.downloaded.length = targetCount sampleJob) ∧
        (sampleFinal.downloaded.length = targetCount sampleJob →
          line = countLine sampleJob (sampleJob.query.countLogs sampleFinal.downloaded % sizeLimit))) :=
  one_reply sampleJob (reaches_of_run [.completes false [], .completes false [],
    .completes false [], .completes false [], .completes false sampleBody, .calls, .completes false []] rfl)

end Downloading

end SaivBot
