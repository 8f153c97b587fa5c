import SaivBot.Bot.Strand
import SaivBot.Logs.Hits
import SaivBot.Logs.Totals
import SaivBot.System

/-! The questions users have asked, in runs of the whole bot.

A download is posted with the targets its plan asks for, and from then on its errand goes
on by itself, whatever else happens. So what is answered at last is what the downloads
alone would answer.
-/

set_option autoImplicit false

namespace SaivBot
open Civil Grouping Program BotState Transition

variable (env : Environment)

/-- The request a query plan asks for. -/
def QueryPlan.requests (plan : QueryPlan) : Option LogRequest :=
  LogRequest.fillLogRequestTargetFields env.calendar env.dateParser plan.service plan.allUsers plan.period
    plan.channels plan.users

/-- The job that the find command of a plan sets up. -/
structure FindJob.Asks (plan : QueryPlan) (job : FindJob) : Prop where
  calendar : job.calendar = env.calendar
  dateParser : job.dateParser = env.dateParser
  service : job.service = plan.service
  allUsers : job.allUsers = plan.allUsers
  channels : job.channels = plan.channels
  users : job.users = plan.users
  made : ∃ sorting, plan.findQuery env sorting job.query.request = .ok job.query

def Posted.Planned : Posted → Prop
  | .download _ plan _ request => plan.requests env = some request
  | _ => True

/-- Every download that has been posted has the targets of its plan. -/
def BotState.Planned (bot : BotState) : Prop := ∀ work ∈ bot.posted, work.Planned env

variable {env}

theorem planned_posts {msg : IRCMessage} {bot : BotState} {inputLine : Bytes} {command : Commands} {work : Posted}
    (posts : Posts env bot msg inputLine command work) : work.Planned env := by
  cases posts with
  | query _ _ filled => exact filled
  | _ => trivial

theorem planned_causes {msg : IRCMessage} {bot : BotState} {work : Posted} (causes : Causes env msg bot work) :
    work.Planned env := by
  cases causes with
  | command _ _ _ posts => exact planned_posts posts
  | _ => trivial

/-- Work that has been taken off. -/
theorem BotState.Planned.take {bot : BotState} (planned : bot.Planned env) {posted : List Posted}
    (subset : posted ⊆ bot.posted) : BotState.Planned env { bot with posted := posted } :=
  fun work member => planned work (subset member)

theorem strand_planned : ReadStrand.AbsorbsStrand env (Maintains (BotState.Planned env)) :=
  ReadStrand.strand_posted planned_causes fun _ => trivial

/-! Errands and the log service. -/

namespace Errand

variable (env) (answer : Target → Bytes)

/-- The service answers what it is asked. -/
def Served : Errand → Finding.Event → Prop
  | .count query request s, .downloads event => LogDownloader.Served (query.client request) answer s event
  | .find query request s, .downloads event => LogDownloader.Served (query.client request) answer s event
  | _, _ => True

def findServedStep (query : FindQuery) (request : LogRequest) (s : LogDownloader FindShared) (event : Finding.Event)
    (s' : LogDownloader FindShared) : Prop :=
  query.step request s event = some s' ∧
    ∀ download, event = .downloads download → LogDownloader.Served (query.client request) answer s download

def ServedStep (errand : Errand) (event : Finding.Event) (errand' : Errand) : Prop :=
  (∃ lines, errand.step event = some (errand', lines)) ∧ errand.Served answer event

/-- An errand that was started with the query and the targets of a plan and has gone on by itself since. -/
def Traced : Errand → Prop
  | .count query request s => ∃ plan : QueryPlan, plan.countQuery env query.request = .ok query ∧
      plan.requests env = some request ∧
      Reaches (LogDownloader.ServedStep (query.client request) answer)
        (LogDownloader.run (CountQuery.start request.targets.length)) s
  | .find query request s => ∃ (plan : QueryPlan) (sorting : TimeSort),
      plan.findQuery env sorting query.request = .ok query ∧ plan.requests env = some request ∧
      Reaches (findServedStep answer query request) (LogDownloader.run (FindQuery.start request.targets.length)) s
  | .clip .. => True

variable {env answer}

theorem Starts.traced {work : Posted} {errand : Errand} (starts : Starts env work errand)
    (planned : work.Planned env) : errand.Traced env answer := by
  cases starts with
  | count made =>
    have asker := (QueryPlan.countQuery_spec made).2.1
    exact ⟨_, asker ▸ made, planned, .refl⟩
  | find made =>
    have asker := (QueryPlan.findQuery_spec made).2.1
    exact ⟨_, _, asker ▸ made, planned, .refl⟩
  | clip => trivial

theorem Traced.step {errand errand' : Errand} {event : Finding.Event} {lines : List Bytes}
    (traced : errand.Traced env answer) (served : errand.Served answer event)
    (stepped : errand.step event = some (errand', lines)) : errand'.Traced env answer := by
  cases moves_of_step stepped with
  | count moved =>
    obtain ⟨plan, made, planned, reached⟩ := traced
    exact ⟨plan, made, planned, reached.tail ⟨_, moved, served⟩⟩
  | find moved =>
    obtain ⟨plan, sorting, made, planned, reached⟩ := traced
    refine ⟨plan, sorting, made, planned, reached.tail ⟨event, moved, ?_⟩⟩
    rintro download rfl
    exact served
  | clip => trivial

/-- A download runs as part of its errand. -/
theorem reaches_count {query : CountQuery} {request : LogRequest} {s s' : LogDownloader CountShared}
    (reached : Reaches (LogDownloader.ServedStep (query.client request) answer) s s') :
    Reaches (ServedStep answer) (.count query request s) (.count query request s') := by
  induction reached with
  | refl => exact .refl
  | @tail between last _ next ih =>
    obtain ⟨event, stepped, served⟩ := next
    have ran : query.step request between event = some last := stepped
    have step : ServedStep answer (.count query request between) (.downloads event) (.count query request last) :=
      ⟨⟨_, by rw [Errand.step, ran]; rfl⟩, served⟩
    exact ih.tail ⟨_, step⟩

theorem reaches_find {query : FindQuery} {request : LogRequest} {s s' : LogDownloader FindShared}
    (reached : Reaches (LogDownloader.ServedStep (query.client request) answer) s s') :
    Reaches (ServedStep answer) (.find query request s) (.find query request s') := by
  induction reached with
  | refl => exact .refl
  | @tail between last _ next ih =>
    obtain ⟨event, stepped, served⟩ := next
    have ran : query.step request between (.downloads event) = some last := stepped
    have step : ServedStep answer (.find query request between) (.downloads event) (.find query request last) :=
      ⟨⟨_, by rw [Errand.step, ran]; rfl⟩, served⟩
    exact ih.tail ⟨_, step⟩

end Errand

namespace System

variable (env) (answer : Target → Bytes)

/-- The service answers every download. -/
def Served (s : System) : Event → Prop
  | .running index event => ∀ errand, s.errands[index]? = some errand → errand.Served answer event
  | _ => True

def ServedStep (s : System) (event : Event) (s' : System) : Prop := Step env s event s' ∧ Served answer s event

/-- What holds of the bot, and of all errands. -/
structure Holds (OfBot : BotState → Prop) (OfErrand : Errand → Prop) (s : System) : Prop where
  bot : OfBot s.bot
  errands : ∀ errand ∈ s.errands, OfErrand errand

/-- The bot's downloads are planned, and its errands traced. -/
def Traced : System → Prop := Holds (BotState.Planned env) (Errand.Traced env answer)

variable {env answer} {s s' start : System} {OfBot : BotState → Prop} {OfErrand : Errand → Prop}

/-- One case for each party. What holds of the bot has to hold when work is taken off, and what holds of errands
when they start and as they go on. -/
theorem Holds.step {event : Event} (holds : Holds OfBot OfErrand s)
    (strand : ReadStrand.AbsorbsStrand env (Maintains OfBot))
    (taken : ∀ {bot : BotState} {posted : List Posted}, OfBot bot → posted ⊆ bot.posted →
      OfBot { bot with posted := posted })
    (starts : ∀ {bot work errand}, Errand.Starts env work errand → OfBot bot → work ∈ bot.posted → OfErrand errand)
    (runs : ∀ {index ran errand errand' lines}, event = .running index ran → s.errands[index]? = some errand →
      errand.step ran = some (errand', lines) → OfErrand errand → OfErrand errand')
    (step : Step env s event s') : Holds OfBot OfErrand s' := by
  obtain ⟨bot, errands⟩ := holds
  have rest (index : Nat) : OfBot (System.taken s.bot index) := taken bot fun _ => List.mem_of_mem_eraseIdx
  cases step with
  | reading _ step => exact ⟨ReadStrand.strand_step strand step bot, errands⟩
  | sending _ _ => exact ⟨bot, errands⟩
  | handshake _ step => exact ⟨ReadStrand.strand_step strand step bot, errands⟩
  | dispatch _ _ => exact ⟨rest _, errands⟩
  | @start index work errand found begun =>
    refine ⟨rest index, ?_⟩
    rw [List.forall_mem_append]
    exact ⟨errands, by simpa using starts begun bot (List.mem_of_getElem? found)⟩
  | @running index event errand errand' lines found ran =>
    refine ⟨bot, fun other member => ?_⟩
    rcases List.mem_or_eq_of_mem_set member with old | rfl
    · exact errands other old
    · exact runs rfl found ran (errands errand (List.mem_of_getElem? found))

theorem Holds.started {file : ConfigFile} (started : Started file start) (loads : ∀ text, OfBot (loaded file text)) :
    Holds OfBot OfErrand start := by
  obtain ⟨text, same⟩ := started.bot
  exact ⟨same ▸ loads text, by simp [started.errands]⟩

theorem planned_loaded (file : ConfigFile) (text : Bytes) : (loaded file text).Planned env := by
  simp [BotState.Planned, loaded]

theorem traced_run {file : ConfigFile} (started : Started file start)
    (reached : Reaches (ServedStep env answer) start s) : Traced env answer s := by
  have initial : Traced env answer start := Holds.started started (planned_loaded file)
  refine reached.invariant initial ?_
  rintro s event s' traced ⟨step, served⟩
  refine traced.step strand_planned (fun planned subset => planned.take subset) ?_ ?_ step
  · exact fun begun planned member => begun.traced (planned _ member)
  -- An errand that goes on has been answered by the service.
  rintro index ran errand errand' lines rfl found stepped traced
  exact traced.step (served errand found) stepped

/-- An errand runs on its own. -/
theorem reaches_running {errand errand' : Errand} (reached : Reaches (Errand.ServedStep answer) errand errand')
    (alone : s.errands = [errand]) : ∃ s', Reaches (ServedStep env answer) s s' ∧ s'.errands = [errand'] := by
  induction reached with
  | refl => exact ⟨s, .refl, alone⟩
  | @tail between last _ next ih =>
    obtain ⟨event, ⟨lines, ran⟩, served⟩ := next
    obtain ⟨s', reached, only⟩ := ih
    have found : s'.errands[0]? = some between := by rw [only]; rfl
    refine ⟨_, reached.tail ⟨.running 0 event, .running found ran, ?_⟩, by rw [only]; rfl⟩
    intro other there
    rwa [← Option.some.inj (found.symm.trans there)]

/-! One user asks how often a word was said and who said it, and the service answers. -/

def inquiryEnvironment : Environment :=
  { bareEnvironment with
    optionParser := ReadStrand.wordParser
    dateParser := LogParsing.sampleParser
    now := fun _ => 1549584000000000000
    showTime := fun _ => epochStamp }

def inquiryFile : ConfigFile := { clipFile with channels := [ascii "#pajlada"] }

def inquiryStart : System := ⟨loaded inquiryFile [], Sender.sampleSender, []⟩

theorem started_inquiryStart : Started inquiryFile inquiryStart :=
  ⟨⟨[], rfl⟩, Sender.constructed_sampleSender, ⟨rfl, rfl⟩, rfl, rfl⟩

def inquiry (command : Bytes) : IRCMessage where
  time := 1549584000000000000
  data := ascii ":u!u@h PRIVMSG #pajlada :saiv " ++ command ++ ascii " b: -user saiv"
  nickView := some ⟨1, 1⟩
  userView := some ⟨3, 1⟩
  hostView := some ⟨5, 2⟩
  commandView := some ⟨7, 7⟩
  paramsVec := [⟨15, 8⟩]
  bodyView := some ⟨25, command.length + 19⟩

/-- The current month. -/
def inquiryPeriod : TimeDetail.TimePeriod := ⟨1548979200000000000, 1551398400000000000⟩

def inquiryTarget : SearchTarget where
  searchStr := ascii "b:"
  caseless := false
  regex := false

def inquiryCount : CountQuery where
  countFunc str := countTargetOccurrences inquiryTarget.searcher (str.length + 1) str
  period := inquiryPeriod
  request := ⟨inquiry (ascii "count"), ascii "#pajlada", by decide, by decide⟩

def inquiryFind : FindQuery where
  findFunc str := .ok (decide (inquiryTarget.searcher str ≠ str.length))
  period := inquiryPeriod
  request := ⟨inquiry (ascii "find"), ascii "#pajlada", by decide, by decide⟩
  channels := LogRequest.sampleChannels.toFinset
  sorting := Finding.sampleSort
  showTime _ := epochStamp

def inquired : BotState :=
  final (ReadStrand.onRead inquiryEnvironment
    ((inquiry (ascii "count")).data ++ crlf ++ ((inquiry (ascii "find")).data ++ crlf))
    (ReadStrand.completeRead (final (ReadStrand.onHandshake inquiryEnvironment inquiryStart.bot))))

def inquiring : System := ⟨inquired, Sender.onHandshake { Sender.sampleSender with resolves := 0 }, []⟩

theorem reaches_inquiring :
    Reaches (ServedStep inquiryEnvironment LogRequest.sampleAnswer) inquiryStart inquiring := by
  let connecting : Sender := { Sender.sampleSender with resolves := 0, connects := 1 }
  let shaking : Sender := { Sender.sampleSender with resolves := 0, handshakes := 1 }
  let greeted : BotState := final (ReadStrand.onHandshake inquiryEnvironment inquiryStart.bot)
  have resolves : Next (ServedStep inquiryEnvironment LogRequest.sampleAnswer) inquiryStart
      { inquiryStart with sender := connecting } := ⟨.sending (.resolve false), .sending trivial rfl, trivial⟩
  have connects : Next (ServedStep inquiryEnvironment LogRequest.sampleAnswer)
      { inquiryStart with sender := connecting } { inquiryStart with sender := shaking } :=
    ⟨.sending (.connect false), .sending trivial rfl, trivial⟩
  have shakes : Next (ServedStep inquiryEnvironment LogRequest.sampleAnswer)
      { inquiryStart with sender := shaking } { inquiring with bot := greeted } :=
    ⟨.handshake, .handshake rfl .handshake, trivial⟩
  have reads : Next (ServedStep inquiryEnvironment LogRequest.sampleAnswer) { inquiring with bot := greeted } inquiring :=
    ⟨.reading (.read _), .reading (by simp) (.read (by decide +kernel)), trivial⟩
  exact (((Relation.ReflTransGen.single resolves).tail connects).tail shakes).tail reads

/-- What a posted download is about, and how many targets it has. -/
structure PostedQuery where
  kind : QueryKind
  msg : IRCMessage
  target : SearchTarget
  period : TimeDetail.TimePeriod
  service : LogService
  channels : List Bytes
  users : List Bytes
  allUsers : Bool
  targets : Nat
  deriving DecidableEq

def queryOf : Posted → Option PostedQuery
  | .download kind plan msg request =>
    some ⟨kind, msg, plan.target, plan.period, plan.service, plan.channels, plan.users, plan.allUsers,
      request.targets.length⟩
  | _ => none

/-- A user of the sample is asked about in its channel, and in the current month. -/
structure InquiryPlan (plan : QueryPlan) (request : LogRequest) : Prop where
  target : plan.target = inquiryTarget
  period : plan.period = inquiryPeriod
  service : plan.service = .gempirLog
  channels : plan.channels = LogRequest.sampleChannels
  users : plan.users = [ascii "saiv"]
  allUsers : plan.allUsers = false
  requests : plan.requests inquiryEnvironment = some request
  targets : request.targets.length = 2

theorem posted_inquired {kind : QueryKind} {msg : IRCMessage} {index : Nat}
    (found : inquired.posted[index]?.bind queryOf =
      some ⟨kind, msg, inquiryTarget, inquiryPeriod, .gempirLog, LogRequest.sampleChannels, [ascii "saiv"], false, 2⟩) :
    ∃ plan request, inquired.posted[index]? = some (.download kind plan msg request) ∧ InquiryPlan plan request := by
  obtain ⟨work, posted, which⟩ := Option.bind_eq_some_iff.mp found
  have planned := (traced_run started_inquiryStart reaches_inquiring).bot work (List.mem_of_getElem? posted)
  cases work with
  | download other plan ircMsg request =>
    simp only [queryOf, Option.some.injEq, PostedQuery.mk.injEq] at which
    obtain ⟨rfl, rfl, target, period, service, channels, users, allUsers, targets⟩ := which
    exact ⟨plan, request, posted, target, period, service, channels, users, allUsers, planned, targets⟩
  | _ => cases which

theorem inquiry_touches {ym : YearMonth} (touched : LogRequest.Touches gregorian inquiryPeriod ym) :
    ym = ⟨2019, 2⟩ ∨ ym = ⟨2019, 3⟩ := by
  have first : gregorian.monthOf (TimeDetail.floorDays inquiryPeriod.beginTime) = ⟨2019, 2⟩ := by decide
  have last : gregorian.monthOf (TimeDetail.floorDays inquiryPeriod.endTime) = ⟨2019, 3⟩ := by decide
  obtain ⟨valid, lower, upper⟩ := touched
  rw [first] at lower
  rw [last] at upper
  have next : (⟨2019, 3⟩ : YearMonth).index = (⟨2019, 2⟩ : YearMonth).index + 1 := by decide
  rcases lt_or_eq_of_le lower with more | same
  · exact .inr (YearMonth.eq_of_index valid ⟨by decide, by decide⟩ (by omega))
  · exact .inl (YearMonth.eq_of_index valid ⟨by decide, by decide⟩ same.symm)

theorem inquiry_filed : LogRequest.Filed gregorian LogParsing.sampleParser .gempirLog inquiryPeriod
    LogRequest.sampleChannels [ascii "saiv"] LogRequest.sampleHistory LogRequest.sampleAnswer false := by
  intro target selected stands
  cases stands with
  | userMonth named asked touched =>
    simp only [LogRequest.sampleChannels, List.mem_cons, List.not_mem_nil, or_false] at named asked
    refine ⟨LogRequest.sample_shows ?_, LogRequest.cutsInside_render _ _ _⟩
    rcases named with rfl
    rcases asked with rfl
    rcases inquiry_touches touched with rfl | rfl <;> decide

theorem inquiry_convertible : LogRequest.Convertible gregorian inquiryPeriod := by
  intro ym touched
  rcases inquiry_touches touched with rfl | rfl <;> exact ⟨by decide, by decide⟩

theorem inquiry_answered : LogRequest.Answered gregorian LogParsing.sampleParser .gempirLog inquiryPeriod
    LogRequest.sampleChannels [ascii "saiv"] LogRequest.sampleHistory LogRequest.sampleAnswer false :=
  fun target selected stands => (inquiry_filed target selected stands).1

theorem InquiryPlan.nonempty {plan : QueryPlan} {request : LogRequest} (asked : InquiryPlan plan request) :
    request.targets ≠ [] := List.ne_nil_of_length_pos (asked.targets ▸ Nat.zero_lt_two)

theorem InquiryPlan.filled {plan : QueryPlan} {request : LogRequest} (asked : InquiryPlan plan request) :
    LogRequest.fillLogRequestTargetFields gregorian LogParsing.sampleParser .gempirLog false inquiryPeriod
      LogRequest.sampleChannels [ascii "saiv"] = some request := by
  rw [← asked.period, ← asked.service, ← asked.channels, ← asked.users, ← asked.allUsers]
  exact asked.requests

theorem InquiryPlan.countQuery {plan : QueryPlan} {request : LogRequest} (asked : InquiryPlan plan request) :
    plan.countQuery inquiryEnvironment inquiryCount.request = .ok inquiryCount := by
  rw [QueryPlan.countQuery, asked.target, asked.period]
  rfl

theorem InquiryPlan.findQuery {plan : QueryPlan} {request : LogRequest} (asked : InquiryPlan plan request) :
    plan.findQuery inquiryEnvironment Finding.sampleSort inquiryFind.request = .ok inquiryFind := by
  rw [QueryPlan.findQuery, asked.target, asked.period, asked.channels]
  rfl

/-- How often the text asked about occurs in a message. -/
def inquiryHits (message : Bytes) : Nat := positions inquiryTarget.predicate inquiryTarget.searchStr message

theorem counts_inquiryHits (message : Bytes) : inquiryTarget.Counts letterRegex message (inquiryHits message) :=
  SearchTarget.counts_iff.mpr (countTargetOccurrences_eq (Nat.lt_succ_self _))

/-- Posted work is started and goes on by itself. -/
theorem reaches_started {bot : BotState} {sender : Sender} {index : Nat} {work : Posted} {errand errand' : Errand}
    (posted : bot.posted[index]? = some work) (starts : Errand.Starts env work errand)
    (reached : Reaches (Errand.ServedStep answer) errand errand') :
    ∃ s, Reaches (ServedStep env answer) ⟨bot, sender, []⟩ s ∧ s.errands = [errand'] := by
  let started : System := ⟨taken bot index, sender, [errand]⟩
  have start : Next (ServedStep env answer) ⟨bot, sender, []⟩ started := ⟨.start index, .start posted starts, trivial⟩
  obtain ⟨s, ran, errands⟩ := @reaches_running env answer started errand errand' reached rfl
  exact ⟨s, .head start ran, errands⟩

end System

end SaivBot
