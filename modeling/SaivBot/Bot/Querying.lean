import SaivBot.Bot.State
import SaivBot.Logs.Downloading
import SaivBot.Logs.Finding
import SaivBot.Logs.Occurrences
import SaivBot.Logs.RegexCounting

/-! What `count` and `find` hand to their callbacks: the closure that searches for what the user has typed.

A closure of `count` may loop for ever, or throw. One that ends needs no more turns
than the message has characters, and one, so the query gives it these.
-/

set_option autoImplicit false

namespace SaivBot
open Program

namespace SearchTarget

variable {engine : RegexEngine} {target : SearchTarget} {message : Bytes}

/-- The closure of `count` comes to its end on the message, with this count. -/
def Counts (engine : RegexEngine) (target : SearchTarget) (message : Bytes) (count : Nat) : Prop :=
  ∃ fuel, target.occurrences engine fuel message = .ok count

/-- A pattern is searched for that loops on the message for ever. -/
def Loops (engine : RegexEngine) (target : SearchTarget) (message : Bytes) : Prop :=
  target.regex = true ∧ ∃ pattern, engine.compile target.searchStr = some pattern ∧ ¬ Ends engine pattern message

theorem occurrences_literal (literal : target.regex = false) (fuel : Nat) :
    target.occurrences engine fuel message = countTargetOccurrences target.searcher fuel message := by
  simp only [occurrences, countFunc, literal, Bool.false_eq_true, ↓reduceIte]
  rfl

theorem occurrences_pattern {pattern : engine.Pattern} (regex : target.regex = true)
    (compiled : engine.compile target.searchStr = some pattern) (fuel : Nat) :
    target.occurrences engine fuel message = countRegexOccurrences engine pattern fuel message := by
  simp only [occurrences, countFunc, compile, regex, compiled, ↓reduceIte]
  rfl

theorem occurrences_malformed (regex : target.regex = true) (malformed : engine.compile target.searchStr = none)
    (fuel : Nat) : target.occurrences engine fuel message = .error (.raise .regexError) := by
  simp only [occurrences, countFunc, compile, regex, malformed, ↓reduceIte]
  rfl

/-- As many turns as the message has characters, and one, are enough. -/
theorem counts_iff {count : Nat} :
    target.Counts engine message count ↔ target.occurrences engine (message.length + 1) message = .ok count := by
  refine ⟨?_, fun counted => ⟨_, counted⟩⟩
  rintro ⟨fuel, counted⟩
  cases regex : target.regex with
  | false =>
    rw [occurrences_literal regex] at counted ⊢
    -- The loop has an end for these turns, and it is the one it has for more.
    have ended : countTargetOccurrences target.searcher (message.length + 1) message =
        .ok (positions target.predicate target.searchStr message) := countTargetOccurrences_eq (Nat.lt_succ_self _)
    have more := countTargetOccurrences_mono ended fuel
    rw [Nat.add_comm, countTargetOccurrences_mono counted] at more
    rw [ended, ← more]
  | true =>
    cases compiled : engine.compile target.searchStr with
    | none =>
      rw [occurrences_malformed regex compiled] at counted
      cases counted
    | some pattern =>
      rw [occurrences_pattern regex compiled] at counted ⊢
      have ended : countRegexOccurrences engine pattern fuel message ≠ .error (.fault .endlessLoop) := by simp [counted]
      have ends : Ends engine pattern message := ⟨fuel, ended⟩
      have enough := ends.returns (Nat.lt_succ_self message.length)
      rw [← countRegexOccurrences_mono enough fuel, Nat.add_comm, countRegexOccurrences_mono ended, counted]

/-- Where these turns are not enough, no number of turns is. -/
theorem loops_of_occurrences {fault : Fault}
    (failed : target.occurrences engine (message.length + 1) message = .error (.fault fault)) :
    target.Loops engine message := by
  cases regex : target.regex with
  | false =>
    rw [occurrences_literal regex] at failed
    have ended : countTargetOccurrences target.searcher (message.length + 1) message =
        .ok (positions target.predicate target.searchStr message) := countTargetOccurrences_eq (Nat.lt_succ_self _)
    cases ended.symm.trans failed
  | true =>
    cases compiled : engine.compile target.searchStr with
    | none =>
      rw [occurrences_malformed regex compiled] at failed
      cases failed
    | some pattern =>
      rw [occurrences_pattern regex compiled] at failed
      refine ⟨regex, pattern, compiled, fun ends => ?_⟩
      have ended := ends.returns (Nat.lt_succ_self message.length)
      rw [endless_of_fault failed] at failed
      exact ended failed

end SearchTarget

/-! The queries of a plan. -/

namespace QueryPlan

variable (env : Environment)

def target (plan : QueryPlan) : SearchTarget where
  searchStr := plan.searchStr
  caseless := plan.caseless
  regex := plan.regex

/-- `CountCallbackSharedData`, as `countCommandFunc` fills it. -/
def countQuery (plan : QueryPlan) (request : Request) : Except Abort CountQuery := do
  let countFunc ← plan.target.countFunc env.regex
  return { countFunc := fun str => countFunc (str.length + 1) str, period := plan.period, request }

/-- `FindCallbackSharedData`, as `findCommandFunc` fills it. -/
def findQuery (sorting : TimeSort) (plan : QueryPlan) (request : Request) : Except Exception FindQuery := do
  let findFunc ← plan.target.findFunc env.regex
  return {
    findFunc
    period := plan.period
    request
    channels := plan.channels.toFinset
    sorting
    showTime := env.showTime }

/-- What the plan counts comes to an end in every message. -/
def Ends (plan : QueryPlan) : Prop := ∀ message, ¬ plan.target.Loops env.regex message

variable {env} {plan : QueryPlan} {request : Request} {sorting : TimeSort}

theorem countQuery_spec {query : CountQuery} (made : plan.countQuery env request = .ok query) :
    query.period = plan.period ∧ query.request = request ∧
      ∀ message, query.countFunc message = plan.target.occurrences env.regex (message.length + 1) message := by
  obtain ⟨countFunc, built, same⟩ := except_bind_eq_ok.mp made
  cases same
  refine ⟨rfl, rfl, fun message => ?_⟩
  rw [SearchTarget.occurrences, built]
  rfl

theorem findQuery_spec {query : FindQuery} (made : plan.findQuery env sorting request = .ok query) :
    query.period = plan.period ∧ query.request = request ∧ query.channels = plan.channels.toFinset ∧
      query.showTime = env.showTime ∧ ∀ message, query.findFunc message = plan.target.selects env.regex message := by
  obtain ⟨findFunc, built, same⟩ := except_bind_eq_ok.mp made
  cases same
  refine ⟨rfl, rfl, rfl, rfl, fun message => ?_⟩
  rw [SearchTarget.selects, built]
  rfl

/-- The query counts what the target counts. -/
theorem countsOn {query : CountQuery} (made : plan.countQuery env request = .ok query) {count : Bytes → Nat}
    {history : List ChatLine} (counts : ∀ line ∈ history, plan.period.isInside line.time = true →
      plan.target.Counts env.regex line.message (count line.message)) : query.CountsOn count history := by
  obtain ⟨period, -, searches⟩ := countQuery_spec made
  intro line member inside
  rw [searches]
  exact SearchTarget.counts_iff.mp (counts line member (period ▸ inside))

theorem hitsOn {query : FindQuery} (made : plan.findQuery env sorting request = .ok query) {hit : Bytes → Bool}
    {history : List ChatLine}
    (hits : ∀ line ∈ history, plan.target.selects env.regex line.message = .ok (hit line.message)) :
    ∀ line ∈ history, query.findFunc line.message = .ok (hit line.message) := by
  obtain ⟨-, -, -, -, searches⟩ := findQuery_spec made
  intro line member
  rw [searches, hits line member]

theorem loops_of_fault {query : CountQuery} (made : plan.countQuery env request = .ok query) {message : Bytes}
    {fault : Fault} (failed : query.countFunc message = .error (.fault fault)) :
    plan.target.Loops env.regex message := by
  rw [(countQuery_spec made).2.2] at failed
  exact SearchTarget.loops_of_occurrences failed

theorem Ends.query {query : CountQuery} (ends : plan.Ends env) (made : plan.countQuery env request = .ok query) :
    query.Ends :=
  fun message _ failed => ends message (loops_of_fault made failed)

end QueryPlan

end SaivBot
