import SaivBot.Completion
import SaivBot.Connection.Draining

/-! The whole bot comes to rest.

As long as nothing comes from the server, what the commands have posted is started, the
errands go on, and the send strand works off its lines, in any order. Every event uses up
a turn of the part that takes it. At rest nothing is left over: each errand is finished
and each line has been written. Only a pattern that loops on a message for ever would keep
its thread.
-/

set_option autoImplicit false

namespace SaivBot
open Program BotState Transition

namespace Errand

variable {errand errand' : Errand} {event : Finding.Event} {lines : List Bytes}

theorem drop_posted {before after : List Bytes}
    (grown : after = before ∨ ∃ channel text, after = before ++ [privmsg channel text]) :
    after.drop before.length = [] ∨ ∃ channel text, after.drop before.length = [privmsg channel text] := by
  rcases grown with rfl | ⟨channel, text, rfl⟩ <;> simp

/-- A handler of a count posts one line at most, to a channel. -/
theorem count_posted {query : CountQuery} {request : LogRequest} {s s' : LogDownloader CountShared}
    {event : Downloading.Event} (moved : query.step request s event = some s') :
    s'.shared.posted = s.shared.posted ∨
      ∃ channel text, s'.shared.posted = s.shared.posted ++ [privmsg channel text] := by
  rcases LogDownloader.step_shared moved with same | ⟨log, called⟩ | refused
  · exact .inl (by rw [same])
  · rcases posted_countCommandCallback called with same | ⟨count, same⟩
    · exact .inl same
    · exact .inr ⟨_, _, same⟩
  · change query.countCommandErrorHandler s.shared = _ at refused
    rw [query.errorHandler_ok] at refused
    exact .inr ⟨_, _, by rw [← Except.ok.inj refused]⟩

/-- So does one of a find, and its upload. -/
theorem find_posted {query : FindQuery} {request : LogRequest} {s s' : LogDownloader FindShared} {event : Finding.Event}
    (moved : query.step request s event = some s') :
    s'.shared.posted = s.shared.posted ∨
      ∃ channel text, s'.shared.posted = s.shared.posted ++ [privmsg channel text] := by
  cases event with
  | downloads event =>
    rcases LogDownloader.step_shared moved with same | ⟨log, called⟩ | refused
    · exact .inl (by rw [same])
    · rcases (posted_findCommandCallback called).2 with same | same
      · exact .inl same
      · exact .inr ⟨_, _, same⟩
    · change query.findCommandErrorHandler s.shared = _ at refused
      rw [Finding.errorHandler_ok] at refused
      exact .inr ⟨_, _, by rw [← Except.ok.inj refused]⟩
  | uploads operation ec body =>
    obtain ⟨shared, uploaded, rfl⟩ := Option.map_eq_some_iff.mp moved
    obtain ⟨upload, next, called, -, -, rfl⟩ := FindQuery.uploads_cases uploaded
    cases called with
    | none => exact .inl (List.append_nil _)
    | some str => exact .inr ⟨_, _, rfl⟩

/-- A handler of an errand posts one line at most, to a channel. -/
theorem step_lines (stepped : errand.step event = some (errand', lines)) :
    lines = [] ∨ ∃ channel text, lines = [privmsg channel text] := by
  cases moves_of_step stepped with
  | count moved => exact drop_posted (count_posted moved)
  | find moved => exact drop_posted (find_posted moved)
  | @clip ircMsg uploader uploader' operation ec body called moved =>
    cases called with
    | none => exact .inl rfl
    | some str =>
      cases made : clipCommandCallback ircMsg str with
      | error abort => simp [made, Except.toOption]
      | ok line =>
        obtain ⟨channel, text, rfl⟩ := IRCMessage.replyLine_privmsg made
        exact .inr ⟨channel, text, by simp [made, Except.toOption]⟩

theorem step_length_lines (stepped : errand.step event = some (errand', lines)) : lines.length ≤ 1 := by
  rcases step_lines stepped with rfl | ⟨channel, text, rfl⟩ <;> simp

/-- A count searches for what comes to an end in every message. -/
def Ends : Errand → Prop
  | .count query _ _ => query.Ends
  | _ => True

theorem Ends.step (ends : errand.Ends) (stepped : errand.step event = some (errand', lines)) : errand'.Ends := by
  cases moves_of_step stepped with
  | count moved => exact ends
  | find | clip => trivial

theorem Ends.not_hangs (ends : errand.Ends) : ¬ errand.Hangs := by
  intro hangs
  cases errand with
  | find | clip => cases hangs
  | count query request s =>
    obtain ⟨-, log, -, abort, failed⟩ := hangs
    obtain ⟨count, counted⟩ := CountQuery.Ends.countLog ends log
    cases counted.symm.trans failed

end Errand

/-- A count that is asked for searches for what comes to an end in every message. -/
def Posted.Ends (env : Environment) : Posted → Prop
  | .download .count plan _ _ => plan.Ends env
  | _ => True

theorem Errand.Starts.ends {env : Environment} {work : Posted} {errand : Errand} (starts : Starts env work errand)
    (ends : work.Ends env) : errand.Ends := by
  cases starts with
  | count made => exact QueryPlan.Ends.query ends made
  | find | clip => trivial

namespace System

/-! The turns. -/

/-- A line that is posted has one turn more than in the send strand; an event of an errand has six, as it can make
a line; and what starts an errand has those of all its events. -/
def postedTurns : Posted → Nat
  | .sendIRC _ => 6
  | .download _ _ _ request => 6 * (3 * request.targets.length + 10) + 1
  | .upload .. => 6 * 6 + 1
  | .suspendWrite | .shutdown | .insertMessage _ => 0

def turnsLeft (s : System) : Nat :=
  s.sender.pending + (s.bot.posted.map postedTurns).sum + (s.errands.map fun errand => 6 * errand.eventsLeft).sum

/-- What goes on without the server. -/
def Working (s : System) : Event → Prop
  | .sending event => Sender.Working event
  | .dispatch index => ∃ line, s.bot.posted[index]? = some (.sendIRC line)
  | .start _ | .running .. => True
  | .reading _ | .handshake => False

/-- What goes on during a connection on which no RECONNECT is handled and no write fails. -/
def Calm (s : System) : Event → Prop
  | .sending event => Sender.Working event
  | .dispatch index => s.bot.posted[index]? ≠ some .suspendWrite
  | .reading _ | .start _ | .running .. => True
  | .handshake => False

/-- The lines the event hands to the send strand. -/
def handedOver (s : System) : Event → List Bytes
  | .dispatch index =>
    match s.bot.posted[index]? with
    | some (.sendIRC line) => [line]
    | _ => []
  | .running index event => ((s.errands[index]?.bind fun errand => errand.step event).map Prod.snd).getD []
  | .reading _ | .sending _ | .handshake | .start _ => []

variable (env : Environment)

def WorkStep (s : System) (event : Event) (s' : System) : Prop := Step env s event s' ∧ Working s event

/-- No pattern that is counted, or that a count has been asked for, loops on a message. -/
def SearchesEnd (s : System) : Prop :=
  (∀ work ∈ s.bot.posted, work.Ends env) ∧ ∀ errand ∈ s.errands, errand.Ends

/-- No part of the bot can go on by itself. -/
def AtRest (s : System) : Prop := ∀ event s', ¬ WorkStep env s event s'

/-- A run during a connection, with the lines handed to the send strand. -/
inductive CalmRun (Going : System → Event → System → Prop) (start : System) : List Bytes → System → Prop where
  | nil : CalmRun Going start [] start
  | snoc {lines : List Bytes} {s s' : System} {event : Event} : CalmRun Going start lines s → Going s event s' →
      Calm s event → CalmRun Going start (lines ++ handedOver s event) s'

variable {env} {s s' : System} {event : Event}

theorem calm_of_working (working : Working s event) : Calm s event := by
  cases event with
  | sending event => exact working
  | dispatch index =>
    obtain ⟨line, posted⟩ := working
    simp [Calm, posted]
  | start | running => trivial
  | reading | handshake => cases working

theorem accepted_eq (sender : Sender) (lines : List Bytes) :
    accepted sender lines = { sender with sendHandlers := sender.sendHandlers ++ lines } := by
  induction lines generalizing sender with
  | nil => simp [accepted]
  | cons line lines ih =>
    rw [accepted, List.foldl_cons, ← accepted, ih]
    simp [Sender.accept]

/-- Lines that are handed on are posts to the send strand. -/
theorem run_accepted (sender : Sender) (lines : List Bytes) :
    run Sender.undisturbedStep sender (lines.map fun line => .post (.sendIRC line)) = some (accepted sender lines) := by
  induction lines generalizing sender with
  | nil => rfl
  | cons line lines ih =>
    have first : sender.undisturbedStep (.post (.sendIRC line)) = some (sender.accept (.sendIRC line)) :=
      Sender.undisturbedStep_iff.mpr ⟨rfl, rfl⟩
    rw [run, List.map_cons, List.foldlM_cons, first]
    exact ih _

/-- What the event is to the send strand. -/
theorem calm_sender (step : Step env s event s') (calm : Calm s event) :
    ∃ events, run Sender.undisturbedStep s.sender events = some s'.sender ∧
      events.flatMap Sender.handed = handedOver s event := by
  cases step with
  | reading | start => exact ⟨[], rfl, rfl⟩
  | handshake => cases calm
  | @sending event sender _ ran =>
    have undisturbed := Sender.undisturbedStep_iff.mpr ⟨Sender.undisturbed_of_working calm, ran⟩
    refine ⟨[event], ?_, ?_⟩
    · rw [run, List.foldlM_cons, undisturbed]
      rfl
    · cases event with
      | post work => cases calm
      | _ => rfl
  | @dispatch index work posted sends =>
    cases work with
    | sendIRC line =>
      refine ⟨[.post (.sendIRC line)], run_accepted s.sender [line], ?_⟩
      simp [handedOver, posted, Sender.handed]
    -- A calm run hands no RECONNECT on.
    | suspendWrite => exact absurd posted calm
    | shutdown | insertMessage | download | upload => cases sends
  | @running index event errand errand' lines found ran =>
    refine ⟨lines.map fun line => .post (.sendIRC line), run_accepted s.sender lines, ?_⟩
    simp [handedOver, found, ran, List.flatMap_map, Sender.handed]

/-! Every event of the work uses up a turn. -/

theorem pending_accepted (sender : Sender) (lines : List Bytes) :
    (accepted sender lines).pending = sender.pending + 5 * lines.length := by
  rw [accepted_eq]
  simp only [Sender.pending, Sender.operations, List.length_append]
  omega

theorem delivers_calm (step : Step env s event s') (calm : Calm s event) (delivers : s.sender.Delivers) :
    s'.sender.Delivers := by
  obtain ⟨events, ran, -⟩ := calm_sender step calm
  exact @run_invariant _ _ _ _ (fun _ => Sender.Delivers) delivers (fun delivers step => delivers.step step) _ _ ran

theorem turns_starts {work : Posted} {errand : Errand} (starts : Errand.Starts env work errand) :
    6 * errand.eventsLeft < postedTurns work := by
  have few := starts.eventsLeft
  cases starts with
  | count _ | find _ | clip =>
    simp only [Errand.eventLimit, postedTurns] at few ⊢
    omega

/-- One case for each party. -/
theorem turnsLeft_lt (delivers : s.sender.Delivers) (work : WorkStep env s event s') : turnsLeft s' < turnsLeft s := by
  obtain ⟨step, working⟩ := work
  cases step with
  | reading | handshake => cases working
  | @sending event sender _ ran =>
    obtain ⟨texts, delivering⟩ := delivers
    have less := ((delivering.advances (Sender.undisturbed_of_working working)).step ran).fewer working
    simp only [turnsLeft]
    omega
  | @dispatch index work posted sends =>
    -- One of the six turns of the line is used up, and five go with it.
    obtain ⟨line, same⟩ := working
    obtain rfl : work = .sendIRC line := Option.some.inj (posted.symm.trans same)
    have off := Grouping.sum_eraseIdx postedTurns posted
    have one : (s.sender.accept (.sendIRC line)).pending = s.sender.pending + 5 := pending_accepted s.sender [line]
    simp only [turnsLeft, taken, one, ← off, postedTurns]
    omega
  | @start index work errand posted starts =>
    have off := Grouping.sum_eraseIdx postedTurns posted
    have fewer := turns_starts starts
    simp only [turnsLeft, taken, ← off, List.map_append, List.map_singleton, List.sum_append, List.sum_singleton]
    omega
  | @running index event errand errand' lines found ran =>
    -- The six turns of the event pay for the line it may post.
    have replaced := Grouping.sum_set (fun errand => 6 * errand.eventsLeft) found errand'
    have fewer := Errand.step_fewer ran
    have one := Errand.step_length_lines ran
    simp only [turnsLeft, pending_accepted]
    omega

theorem work_fewer (delivers : s.sender.Delivers) (work : WorkStep env s event s') :
    s'.sender.Delivers ∧ turnsLeft s' < turnsLeft s :=
  ⟨delivers_calm work.1 (calm_of_working work.2) delivers, turnsLeft_lt delivers work⟩

/-- What the bot does by itself asks for no new patterns. -/
theorem SearchesEnd.work (ends : SearchesEnd env s) (work : WorkStep env s event s') : SearchesEnd env s' := by
  obtain ⟨posted, errands⟩ := ends
  have taken (index : Nat) : ∀ work ∈ (System.taken s.bot index).posted, work.Ends env :=
    fun work member => posted work (List.mem_of_mem_eraseIdx member)
  obtain ⟨step, working⟩ := work
  cases step with
  | reading | handshake => cases working
  | sending => exact ⟨posted, errands⟩
  | dispatch => exact ⟨taken _, errands⟩
  | @start index work errand found starts =>
    refine ⟨taken _, ?_⟩
    rw [List.forall_mem_append]
    exact ⟨errands, by simpa using starts.ends (posted work (List.mem_of_getElem? found))⟩
  | @running index event errand errand' lines found ran =>
    refine ⟨posted, fun other member => ?_⟩
    rcases List.mem_or_eq_of_mem_set member with old | rfl
    · exact errands other old
    · exact (errands errand (List.mem_of_getElem? found)).step ran

theorem SearchesEnd.trace {events : List Event} (ends : SearchesEnd env s)
    (trace : Trace (WorkStep env) s events s') : SearchesEnd env s' := by
  induction trace with
  | nil => exact ends
  | snoc _ work ih => exact ih.work work

/-! At rest. -/

variable {start before opened : System} {lines : List Bytes}

theorem CalmRun.reaches (calm : CalmRun (Step env) start lines s) : Reaches (Step env) start s := by
  induction calm with
  | nil => exact .refl
  | snoc _ step _ ih => exact .tail ih ⟨_, step⟩

/-- The lines are handed to the connection one after the other. -/
theorem CalmRun.handed (calm : CalmRun (Step env) opened lines s) {sender : Sender}
    (known : sender.Handed [] opened.sender) :
    ∃ events, sender.Handed events s.sender ∧ events.flatMap Sender.handed = lines := by
  induction calm with
  | nil => exact ⟨[], known, rfl⟩
  | snoc _ step calm ih =>
    obtain ⟨events, handed, rfl⟩ := ih
    obtain ⟨more, ran, same⟩ := calm_sender step calm
    exact ⟨events ++ more, handed.run ran, by rw [List.flatMap_append, same]⟩

theorem AtRest.sender (rest : AtRest env s) (delivers : s.sender.Delivers) : s.sender.AtRest := by
  obtain ⟨texts, delivering⟩ := delivers
  intro event working
  -- What the strand could do by itself would be a step of the whole bot.
  by_contra something
  obtain ⟨outcome, happens⟩ := Option.ne_none_iff_exists'.mp something
  obtain ⟨next, rfl, -⟩ := delivering.outcome (Sender.undisturbed_of_working working) outcome happens
  have own : Own event := by
    cases event with
    | post | handshake => cases working
    | _ => trivial
  exact rest (.sending event) _ ⟨.sending own (Sender.step_iff.mpr happens), working⟩

theorem AtRest.posted (rest : AtRest env s) {work : Posted} (member : work ∈ s.bot.posted) :
    (∀ line, work ≠ .sendIRC line) ∧ ∀ errand, ¬ Errand.Starts env work errand := by
  obtain ⟨index, posted⟩ := List.mem_iff_getElem?.mp member
  constructor
  · rintro line rfl
    exact rest (.dispatch index) _ ⟨.dispatch posted rfl, line, posted⟩
  · intro errand starts
    exact rest (.start index) _ ⟨.start posted starts, trivial⟩

theorem AtRest.stuck (rest : AtRest env s) {errand : Errand} (member : errand ∈ s.errands) (event : Finding.Event) :
    errand.step event = none := by
  obtain ⟨index, found⟩ := List.mem_iff_getElem?.mp member
  by_contra something
  obtain ⟨⟨errand', lines⟩, ran⟩ := Option.ne_none_iff_exists'.mp something
  exact rest (.running index event) _ ⟨.running found ran, trivial⟩

/-- A handshake that finds nothing left over from a connection before. -/
theorem handed_handshake (meets : Step env before .handshake opened) (queue : before.sender.sendQueue = [])
    (idle : before.sender.sendQueueBusy = false) (nothing : before.sender.operations = 0) :
    ∃ sender : Sender, sender.Handed [] opened.sender ∧ sender.sendHandlers = before.sender.sendHandlers ∧
      sender.loginLines = before.sender.loginLines := by
  cases meets with
  | @handshake bot sender ran _ =>
    have happens := Sender.step_iff.mp ran
    change (if 0 < before.sender.handshakes then _ else _) = _ at happens
    split at happens
    · cases happens
      exact ⟨_, Sender.handed_onHandshake queue idle nothing, rfl, rfl⟩
    · cases happens

/-- After the handshake of a connection which nothing is left over to, whatever has come from the server except a
RECONNECT or a count of a pattern that loops, and as long as no write fails: what the bot does by itself comes to an
end, after no more events than `turnsLeft` says, and it can come to rest. At rest each errand is finished, and no line
and nothing that can be started waits any more; each line handed to the connection has been written once, behind the
login. -/
theorem settles {file : ConfigFile} (started : Started file start) (reached : Reaches (Step env) start before)
    (queue : before.sender.sendQueue = []) (idle : before.sender.sendQueueBusy = false)
    (nothing : before.sender.operations = 0) (meets : Step env before .handshake opened)
    (calm : CalmRun (Step env) opened lines s) (ends : SearchesEnd env s) :
    (∀ events s', Trace (WorkStep env) s events s' →
        events.length + turnsLeft s' ≤ turnsLeft s ∧ SearchesEnd env s') ∧
      (∃ events s', Trace (WorkStep env) s events s' ∧ AtRest env s') ∧
      (AtRest env s →
        (∀ errand ∈ s.errands, errand.Finished) ∧
        (∀ work ∈ s.bot.posted, (∀ line, work ≠ .sendIRC line) ∧ ∀ errand, ¬ Errand.Starts env work errand) ∧
        if before.sender.sendHandlers ++ lines = [] then s.sender.written = []
        else ∃ order texts, order.Perm (before.sender.sendHandlers ++ lines) ∧
          s.sender.written = texts.map (· ++ crlf) ∧
          List.Forall₂ Sender.Carries texts (before.sender.loginLines ++ order)) := by
  obtain ⟨sender, known, handlers, login⟩ := handed_handshake meets queue idle nothing
  obtain ⟨events, handed, same⟩ := calm.handed known
  refine ⟨?_, exists_rest work_fewer handed.delivers, fun rest => ⟨?_, fun _ => rest.posted, ?_⟩⟩
  · intro events s' trace
    refine ⟨(@Trace.length_le _ _ (WorkStep env) s s' (fun s => s.sender.Delivers) turnsLeft work_fewer
      handed.delivers events trace).2, ?_⟩
    exact ends.trace trace
  · intro errand member
    -- An errand that is stuck is finished or hangs, in the states that a run reaches.
    have whole : Reaches (Step env) start s := .trans (.tail reached ⟨_, meets⟩) calm.reaches
    have known := (known_run started whole errand member).1
    exact (Errand.finished_of_stuck known (rest.stuck member)).resolve_right (ends.2 errand member).not_hangs
  · rw [← handlers, ← login, ← same]
    exact handed.written (rest.sender handed.delivers)

theorem CalmRun.working {events : List Event} {s' : System} (calm : CalmRun (Step env) opened lines s)
    (trace : Trace (WorkStep env) s events s') : ∃ lines', CalmRun (Step env) opened lines' s' := by
  induction trace with
  | nil => exact ⟨lines, calm⟩
  | snoc _ work ih =>
    obtain ⟨lines', calm⟩ := ih
    exact ⟨_, calm.snoc work.1 (calm_of_working work.2)⟩

/-- The lines of the handshake are all that is said. -/
theorem settles_sample : turnsLeft connected = 26 ∧ ∃ lines s, CalmRun (Step clipEnvironment) connected lines s ∧
    AtRest clipEnvironment s ∧
    if lines = [] then s.sender.written = []
    else ∃ order texts, order.Perm lines ∧ s.sender.written = texts.map (· ++ crlf) ∧
      List.Forall₂ Sender.Carries texts (sampleSystem.sender.loginLines ++ order) := by
  let sender : Sender := { Sender.sampleSender with resolves := 0, handshakes := 1 }
  have connects : Reaches (CarefulStep clipEnvironment) sampleSystem { sampleSystem with sender } :=
    reaches_sending [.resolve false, .connect false] (by simp [Own]) rfl
  have reached : Reaches (Step clipEnvironment) sampleSystem { sampleSystem with sender } := connects.weaken And.left
  have meets : CarefulStep clipEnvironment { sampleSystem with sender } .handshake connected :=
    ⟨.handshake rfl .handshake, trivial⟩
  have start : CalmRun (Step clipEnvironment) connected [] connected := .nil
  have ends : SearchesEnd clipEnvironment connected := by
    obtain ⟨said, posted⟩ : ∃ said : List Bytes, connected.bot.posted = said.map .sendIRC := ⟨[_, _, _], rfl⟩
    refine ⟨?_, by simp [connected]⟩
    simp [posted, Posted.Ends]
  obtain ⟨bounded, ⟨events, s, trace, rest⟩, -⟩ := settles started_sampleSystem reached rfl rfl rfl meets.1 start ends
  obtain ⟨lines, calm⟩ := start.working trace
  obtain ⟨-, -, quiet⟩ := settles started_sampleSystem reached rfl rfl rfl meets.1 calm (bounded events s trace).2
  exact ⟨by decide +kernel, lines, s, calm, rest, (quiet rest).2.2⟩

end System

end SaivBot
