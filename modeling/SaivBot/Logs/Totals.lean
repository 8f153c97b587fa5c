import SaivBot.Logs.Downloading
import SaivBot.Logs.Serving

/-! What a count request answers, in any order of events, when the service answers from a chat history. -/

set_option autoImplicit false

namespace SaivBot
open Civil Grouping Transition LogDownloader

namespace LogRequest

variable {parser : ParserFunc} {answer : Target → Bytes}

variable {calendar : Calendar} {date : DateParser} {service : LogService} {query : CountQuery}
  {channels users : List Bytes} {allUsers : Bool} {history : List ChatLine} {request : LogRequest}

/-- A service that answers from a history sends nothing that a parser stops at. -/
theorem parsed_of_answered {period : TimeDetail.TimePeriod}
    (filled : fillLogRequestTargetFields calendar date service allUsers period channels users = some request)
    (convertible : Convertible calendar period) (channelsNodup : channels.Nodup) (usersNodup : users.Nodup)
    (answered : Answered calendar date service period channels users history answer allUsers) :
    ∀ target ∈ request.targets,
      ∃ log, Log.ofData target.period target.channelName (answer target) request.parser = .ok log := by
  obtain ⟨_, parts, same, covers⟩ := fill_covers history date service allUsers convertible channelsNodup usersNodup
  obtain rfl := Option.some.inj (filled.symm.trans same)
  exact covers.parsed (covers.shown answered).1

variable {count : Bytes → Nat}

/-- The search comes to its end in each of the answers. -/
theorem counted_of_answered (counts : query.CountsOn count history)
    (filled : fillLogRequestTargetFields calendar date service allUsers query.period channels users = some request)
    (convertible : Convertible calendar query.period) (channelsNodup : channels.Nodup) (usersNodup : users.Nodup)
    (answered : Answered calendar date service query.period channels users history answer allUsers) :
    ∀ target ∈ request.targets, ∃ number, query.countLog (received request.parser answer target) = .ok number := by
  obtain ⟨_, parts, same, covers⟩ := fill_covers history date service allUsers convertible channelsNodup usersNodup
  obtain rfl := Option.some.inj (filled.symm.trans same)
  obtain ⟨shows, inside⟩ := covers.shown answered
  exact covers.counted shows fun part member => counts.mono (inside part member)

/-- All logs of a request count each line of the history that is asked for once. -/
theorem countLogs_total (counts : query.CountsOn count history)
    (filled : fillLogRequestTargetFields calendar date service allUsers query.period channels users = some request)
    (convertible : Convertible calendar query.period) (channelsNodup : channels.Nodup) (usersNodup : users.Nodup)
    (answered : Answered calendar date service query.period channels users history answer allUsers) :
    query.countLogs (request.targets.map (received request.parser answer)) =
      total (fun line => count line.message) history (wanted query.period channels users allUsers) := by
  obtain ⟨_, parts, same, covers⟩ := fill_covers history date service allUsers convertible channelsNodup usersNodup
  obtain rfl := Option.some.inj (filled.symm.trans same)
  obtain ⟨shows, inside⟩ := covers.shown answered
  have each : ∀ part ∈ parts, query.CountsOn count part.2 := fun part member => counts.mono (inside part member)
  rw [covers.targets, countLogs_received shows each, ← covers.sum fun line => count line.message]
  rfl

/-- A finished count request has posted one line: the number of the history, or the error if some log is missing. -/
theorem posted_total (targets : request.targets ≠ []) (counts : query.CountsOn count history)
    (filled : fillLogRequestTargetFields calendar date service allUsers query.period channels users = some request)
    (convertible : Convertible calendar query.period) (channelsNodup : channels.Nodup) (usersNodup : users.Nodup)
    (answered : Answered calendar date service query.period channels users history answer allUsers)
    {s : LogDownloader CountShared}
    (reached : Reaches (ServedStep (query.client request) answer) (run (CountQuery.start request.targets.length)) s)
    (terminal : s.Terminal) :
    (s.downloaded.length = request.targets.length ∧
        s.shared.posted = [query.countLine
          (total (fun line => count line.message) history (wanted query.period channels users allUsers) %
            sizeLimit)]) ∨
      (s.downloaded.length < request.targets.length ∧ s.shared.posted = [query.errorLine]) := by
  let job : Job := ⟨query, request, targets⟩
  have invariant : Downloading.Invariant job s :=
    reached.invariant (Downloading.run_invariant : Downloading.Invariant job (Downloading.run job))
      fun invariant step => Downloading.step_invariant invariant step.1
  rcases Downloading.terminal_reply invariant terminal with ⟨all, posted⟩ | ⟨short, posted⟩
  · have received : s.downloaded = request.targets.map (received request.parser answer) :=
      (received_run reached).all all
    refine .inl ⟨all, ?_⟩
    rw [← countLogs_total counts filled convertible channelsNodup usersNodup answered, ← received]
    exact posted
  · exact .inr ⟨short, posted⟩

/-- Such a request can finish with every log. -/
theorem count_completes (targets : request.targets ≠ []) (counts : query.CountsOn count history)
    (filled : fillLogRequestTargetFields calendar date service allUsers query.period channels users = some request)
    (convertible : Convertible calendar query.period) (channelsNodup : channels.Nodup) (usersNodup : users.Nodup)
    (answered : Answered calendar date service query.period channels users history answer allUsers) :
    ∃ s, Reaches (ServedStep (query.client request) answer) (run (CountQuery.start request.targets.length)) s ∧
      s.Terminal ∧ s.downloaded.length = request.targets.length := by
  let job : Job := ⟨query, request, targets⟩
  refine completes (Downloading.contract job) (Downloading.tally_nil job) ?_
  refine ⟨parsed_of_answered filled convertible channelsNodup usersNodup answered, ?_⟩
  intro logs shared target _ _ member
  exact CountQuery.callback_returns_iff.mpr
    (counted_of_answered counts filled convertible channelsNodup usersNodup answered target member)

end LogRequest

end SaivBot
