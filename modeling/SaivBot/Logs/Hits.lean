import SaivBot.Bot.Multipart
import SaivBot.Logs.Serving

/-! What a find request answers, in any order of events, when the service answers from a chat history.

The file that is uploaded lists the lines of the history that are asked for and that the
search hits, each once and by time, and the host takes it out of the upload as it was.
-/

set_option autoImplicit false

namespace SaivBot
open Civil Grouping Transition LogDownloader Program

/-- A line of the dump. -/
def ChatLine.dumped (showTime : TimePoint → Bytes) (line : ChatLine) : Bytes :=
  showTime line.time ++ ascii " #" ++ line.channel ++ ascii " " ++ line.author ++ ascii ": " ++ line.message ++
    ascii "\n"

/-- The line of chat that a found line shows. -/
def FoundLine.chatLine (found : FoundLine) : ChatLine :=
  ⟨found.line.time, found.channel.getD [], found.line.getNameView, found.line.getMessageView⟩

namespace FindQuery

variable (query : FindQuery)

/-- The search neither fails on a message of the history nor hits another than these. -/
def HitsOn (hit : Bytes → Bool) (history : List ChatLine) : Prop :=
  ∀ line ∈ history, query.findFunc line.message = .ok (hit line.message)

/-- The lines a find request is about. -/
def asked (channels users : List Bytes) (allUsers : Bool) (hit : Bytes → Bool) (history : List ChatLine) :
    List ChatLine :=
  history.filter fun line => LogRequest.wanted query.period channels users allUsers line && hit line.message

/-- The text lists these lines by time. -/
def Lists (lines : List ChatLine) (text : Bytes) : Prop :=
  ∃ sorted : List ChatLine, sorted.Perm lines ∧ (sorted.Pairwise fun a b => a.time ≤ b.time) ∧
    text = sorted.flatMap (ChatLine.dumped query.showTime)

variable {query}

theorem dumpLine_chatLine {found : FoundLine} {channel : Bytes} (named : found.channel = some channel) :
    query.dumpLine found = .ok (found.chatLine.dumped query.showTime) := by
  simp only [dumpLine, named, ChatLine.dumped, FoundLine.chatLine, Option.getD_some]

/-- The dump of some lines lists what they show. -/
theorem lists_of_dumpFunc {lines : List FoundLine} {text : Bytes}
    (known : ∀ found ∈ lines, ∃ channel, found.channel = some channel)
    (dumped : query.dumpFunc lines = .ok text) : query.Lists (lines.map FoundLine.chatLine) text := by
  refine ⟨(query.sorting.sort lines).map FoundLine.chatLine, (query.sorting.perm lines).map _, ?_, ?_⟩
  · exact List.pairwise_map.mpr (query.sorting.sorted lines)
  · obtain ⟨texts, each, same⟩ := except_bind_eq_ok.mp dumped
    cases same
    have printed := map_of_mapM each
    have expected : (query.sorting.sort lines).map query.dumpLine =
        ((query.sorting.sort lines).map fun found => found.chatLine.dumped query.showTime).map Except.ok := by
      rw [List.map_map]
      apply List.map_congr_left
      intro found member
      obtain ⟨channel, named⟩ := known found ((query.sorting.perm lines).mem_iff.mp member)
      exact dumpLine_chatLine named
    rw [expected] at printed
    have same := List.map_injective_iff.mpr (fun a b => Except.ok.inj) printed
    rw [← same, List.flatMap_map, List.flatMap_def]

/-- The search over the lines of a log, by what they say. -/
theorem findLines_chatLine {hit : Bytes → Bool} {log : Log} {channel : Bytes} {views : List LineView}
    (placed : ∀ view ∈ views, view.Placed log.data)
    (searched : ∀ view ∈ views, query.findFunc (view.messageView.text log.data) =
      .ok (hit (view.messageView.text log.data))) :
    (query.findLines log (some channel) views).map FoundLine.chatLine =
      ((views.map (·.content log.data)).filter fun content =>
          query.period.isInside content.1 && hit content.2.2).map
        fun content => ⟨content.1, channel, content.2.1, content.2.2⟩ := by
  induction views with
  | nil => rfl
  | cons view views ih =>
    have rest := ih (fun other member => placed other (List.mem_cons_of_mem view member))
      fun other member => searched other (List.mem_cons_of_mem view member)
    have shows := LogRequest.shown_copy (placed view List.mem_cons_self) (some channel)
    simp only [FoundLine.shown, Prod.mk.injEq] at shows
    obtain ⟨-, time, name, message⟩ := shows
    unfold findLines
    rw [searched view List.mem_cons_self, List.map_cons]
    cases inside : query.period.isInside view.time with
    | false =>
      rw [if_neg (by simp), rest, List.filter_cons_of_neg (by simp [LineView.content, inside])]
    | true =>
      rw [if_pos rfl]
      cases found : hit (view.messageView.text log.data) with
      | false =>
        rw [List.filter_cons_of_neg (by simp [LineView.content, found])]
        exact rest
      | true =>
        rw [List.filter_cons_of_pos (by simp [LineView.content, inside, found])]
        simp only [List.map_cons, rest, FoundLine.chatLine, Option.getD_some, time, name, message]
        rfl

end FindQuery

namespace LogRequest

variable {parser : ParserFunc} {answer : Target → Bytes} {query : FindQuery} {hit : Bytes → Bool}

/-- What is found in a log that shows certain lines. -/
theorem linesFound_chatLine {target : Target} {lines : List ChatLine}
    (shows : ShowsInside parser target (answer target) lines) (known : target.channelName ∈ query.channels)
    (own : ∀ line ∈ lines, line.channel = target.channelName) (hits : query.HitsOn hit lines) :
    ((query.linesFound (received parser answer target)).map FoundLine.chatLine).Perm
      (lines.filter fun line => query.period.isInside line.time && hit line.message) := by
  obtain ⟨log, same, -, contents, placed⟩ := shows.log
  have channel : log.channelName = target.channelName := by rw [← same, received_channelName]
  rw [same, FindQuery.linesFound, channel, if_pos known]
  cases valid : log.valid with
  | false =>
    rw [valid, if_neg (by simp)] at contents
    rw [contents]
    exact List.Perm.refl _
  | true =>
    rw [valid, if_pos rfl] at contents
    have searched : ∀ view ∈ log.lines, query.findFunc (view.messageView.text log.data) =
        .ok (hit (view.messageView.text log.data)) := by
      intro view member
      have content : view.content log.data ∈ lines.map (·.content) := contents.mem_iff.mp (List.mem_map_of_mem member)
      obtain ⟨line, there, content⟩ := List.mem_map.mp content
      simp only [ChatLine.content, LineView.content, Prod.mk.injEq] at content
      rw [← content.2.2]
      exact hits line there
    simp only [↓reduceIte]
    rw [FindQuery.findLines_chatLine placed searched]
    refine ((contents.filter _).map _).trans ?_
    rw [List.filter_map, List.map_map]
    refine List.Perm.of_eq ?_
    rw [← List.map_id (lines.filter fun line => query.period.isInside line.time && hit line.message)]
    apply List.map_congr_left
    intro line member
    have there := (List.mem_filter.mp member).1
    simp only [Function.comp_apply, ChatLine.content, ← own line there, id]

variable {calendar : Calendar} {date : DateParser} {service : LogService} {channels users : List Bytes}
  {allUsers : Bool} {history : List ChatLine} {request : LogRequest}

/-- The service answers every target with the lines it stands for, and no piece of a line leaves it. -/
def Filed (calendar : Calendar) (date : DateParser) (service : LogService) (period : TimeDetail.TimePeriod)
    (channels users : List Bytes) (history : List ChatLine) (answer : Target → Bytes) (allUsers : Bool) : Prop :=
  ∀ target selected, StandsFor calendar service period channels users allUsers target selected →
    ShowsInside (service.parser date) target (answer target) (history.filter selected)

/-- The lines a target stands for are of its channel. -/
theorem StandsFor.channelName {period : TimeDetail.TimePeriod} {target : Target} {selected : ChatLine → Bool}
    (stands : StandsFor calendar service period channels users allUsers target selected) :
    target.channelName ∈ channels ∧ ∀ line, selected line = true → line.channel = target.channelName := by
  cases stands with
  | userMonth named asked touched =>
    refine ⟨named, fun line mine => ?_⟩
    simp only [ofUserMonth, Bool.and_eq_true, decide_eq_true_eq] at mine
    exact mine.1.1
  | day named touched =>
    refine ⟨named, fun line mine => ?_⟩
    simp only [ofDay, Bool.and_eq_true, decide_eq_true_eq] at mine
    exact mine.1

/-- All logs of a request together show the lines asked for, each once. -/
theorem found_asked (filled : fillLogRequestTargetFields calendar date service allUsers query.period channels users =
      some request)
    (listed : query.channels = channels.toFinset) (convertible : Convertible calendar query.period)
    (channelsNodup : channels.Nodup) (usersNodup : users.Nodup)
    (filed : Filed calendar date service query.period channels users history answer allUsers)
    (hits : query.HitsOn hit history) :
    ((request.targets.flatMap fun target =>
        query.linesFound (received request.parser answer target)).map FoundLine.chatLine).Perm
      (query.asked channels users allUsers hit history) := by
  obtain ⟨_, parts, same, covers⟩ := fill_covers history date service allUsers convertible channelsNodup usersNodup
  obtain rfl := Option.some.inj (filled.symm.trans same)
  let found (line : ChatLine) : Bool := query.period.isInside line.time && hit line.message
  have each : ∀ part ∈ parts, ((query.linesFound (received request.parser answer part.1)).map FoundLine.chatLine).Perm
      (part.2.filter found) := by
    intro part member
    obtain ⟨selected, stands, lines⟩ := covers.standsFor part member
    obtain ⟨named, own⟩ := stands.channelName
    have shows := filed part.1 selected stands
    rw [← covers.parser, ← lines] at shows
    refine linesFound_chatLine shows (by rw [listed]; exact List.mem_toFinset.mpr named) ?_ ?_
    · intro line inside
      rw [lines] at inside
      exact own line (List.mem_filter.mp inside).2
    · intro line inside
      rw [lines] at inside
      exact hits line (List.mem_filter.mp inside).1
  rw [covers.targets, List.flatMap_map, List.map_flatMap]
  refine (List.Perm.flatMap_left parts each).trans ?_
  rw [List.flatMap_def]
  apply perm_of_sums
  intro value
  -- A line that is not hit adds nothing.
  have sum := covers.sum fun line => if hit line.message then value line else 0
  rw [total_guarded] at sum
  have split (part : Target × List ChatLine) : ((part.2.filter found).map value).sum =
      (part.2.map fun line => if query.period.isInside line.time then
        (if hit line.message then value line else 0) else 0).sum := by
    rw [sum_filter]
    congr 1
    apply List.map_congr_left
    intro line _
    cases inside : query.period.isInside line.time <;> simp [found, inside]
  rw [List.map_map]
  simp only [Function.comp_def, split]
  rw [sum]
  have same : total value history (fun line => hit line.message && wanted query.period channels users allUsers line) =
      total value history fun line => wanted query.period channels users allUsers line && hit line.message := by
    apply total_congr
    intro line _
    rw [Bool.and_comm]
  exact same

end LogRequest

namespace Finding

variable (job : FindJob)

/-- The service answers the downloads; the upload host does as it likes. -/
def ServedStep (answer : Target → Bytes) (s : LogDownloader FindShared) (event : Event)
    (s' : LogDownloader FindShared) : Prop :=
  step job s event = some s' ∧
    ∀ download, event = .downloads download → LogDownloader.Served (client job) answer s download

/-- The upload carries the dump of what has been found. Its answer is the response, or it has none. -/
structure Uploads (shared : FindShared) (upload : NuulsUploader) : Prop where
  found : shared.sharedLinesFound ≠ []
  dumped : ∃ text, job.query.dumpFunc shared.sharedLinesFound = .ok text ∧
    upload.request = NuulsUploader.packBody text
  answered : (upload.pending ≠ none ∧ shared.posted = []) ∨
    (upload.pending = none ∧ (shared.posted = [] ∨ shared.posted = [linkLine job upload.response]))

/-- The shared data once these logs have been searched. -/
structure Collected (logs : List Log) (shared : FindShared) : Prop where
  count : shared.referenceCount = job.request.targets.length - logs.length
  found : shared.sharedLinesFound = logs.flatMap job.query.linesFound
  waiting : logs.length < job.request.targets.length → shared.upload = none ∧ shared.posted = []
  decided : logs.length = job.request.targets.length →
    (shared.sharedLinesFound = [] ∧ shared.upload = none ∧ shared.posted = [noHitLine job]) ∨
      ∃ upload, shared.upload = some upload ∧ Uploads job shared upload
  known : ∀ log ∈ logs, log.channelName ∈ job.query.channels

structure Ignoring (shared : FindShared) : Prop where
  spent : shared.referenceCount = 0
  noUpload : shared.upload = none
  posted : shared.posted = [errorLine job]

variable {job}

/-- The last log: nothing found, or the dump of all that has been found is uploaded. -/
theorem callback_decides {query : FindQuery} (log : Log) {shared : FindShared} (last : shared.referenceCount = 1)
    (known : ∀ found ∈ shared.sharedLinesFound ++ query.linesFound log, ∃ channel, found.channel = some channel) :
    ∃ next, query.findCommandCallback log shared = .ok next ∧ next.referenceCount = 0 ∧
      next.sharedLinesFound = shared.sharedLinesFound ++ query.linesFound log ∧
      ((next.sharedLinesFound = [] ∧ next.upload = shared.upload ∧
          next.posted = shared.posted ++ [privmsg query.request.channel query.noHitReply]) ∨
        (next.sharedLinesFound ≠ [] ∧ next.posted = shared.posted ∧
          ∃ text, query.dumpFunc next.sharedLinesFound = .ok text ∧ next.upload = some (NuulsUploader.run text))) := by
  simp only [FindQuery.findCommandCallback, last, Nat.zero_lt_one, gt_iff_lt, Nat.sub_self, ↓reduceIte]
  split
  · next found =>
    obtain ⟨text, dumped⟩ := dumpFunc_ok known
    rw [dumped]
    exact ⟨_, rfl, rfl, rfl, .inr ⟨found, rfl, text, dumped, rfl⟩⟩
  · next none =>
    rw [query.request.replyLine]
    exact ⟨_, rfl, rfl, rfl, .inl ⟨not_not.mp none, rfl, rfl⟩⟩

theorem collected_next {logs : List Log} {shared : FindShared} {log : Log} (collected : Collected job logs shared)
    (targets : logs.length < job.request.targets.length) (made : LogDownloader.Made job.request log) :
    ∃ next, job.query.findCommandCallback log shared = .ok next ∧ Collected job (logs ++ [log]) next := by
  obtain ⟨noUpload, nothing⟩ := collected.waiting targets
  have known : ∀ other ∈ logs ++ [log], other.channelName ∈ job.query.channels := by
    intro other member
    rcases List.mem_append.mp member with old | new
    · exact collected.known other old
    · rw [List.mem_singleton.mp new]
      exact known_of_made made
  have found : shared.sharedLinesFound ++ job.query.linesFound log =
      (logs ++ [log]).flatMap job.query.linesFound := by
    rw [collected.found, List.flatMap_append, List.flatMap_singleton]
  by_cases last : logs.length + 1 = job.request.targets.length
  · have one : shared.referenceCount = 1 := by rw [collected.count]; omega
    have channels : ∀ line ∈ shared.sharedLinesFound ++ job.query.linesFound log,
        ∃ channel, line.channel = some channel := by
      intro line member
      rw [found] at member
      obtain ⟨other, inside, member⟩ := List.mem_flatMap.mp member
      exact ⟨_, mem_linesFound (known other inside) member⟩
    obtain ⟨next, called, count, lines, outcome⟩ := callback_decides log one channels
    refine ⟨next, called, ?_, lines.trans found, ?_, fun _ => ?_, known⟩
    · rw [count, List.length_append, List.length_singleton]
      omega
    · intro short
      rw [List.length_append, List.length_singleton] at short
      omega
    · rcases outcome with ⟨nothingFound, upload, posted⟩ | ⟨found, posted, text, dumped, upload⟩
      · rw [noUpload] at upload
        rw [nothing, List.nil_append] at posted
        exact .inl ⟨nothingFound, upload, posted⟩
      · rw [nothing] at posted
        exact .inr ⟨_, upload, found, ⟨text, dumped, rfl⟩, .inl ⟨Option.some_ne_none _, posted⟩⟩
  · have several : 1 < shared.referenceCount := by rw [collected.count]; omega
    refine ⟨_, callback_waiting log several, ?_, found, fun _ => ⟨noUpload, nothing⟩, ?_, known⟩
    · simp only [List.length_append, List.length_singleton, collected.count]
      omega
    · intro all
      rw [List.length_append, List.length_singleton] at all
      omega

theorem collects (job : FindJob) :
    LogDownloader.Contract (client job) (Collected job) (Ignoring job) where
  nonempty := job.nonempty
  callback := by
    intro logs shared log next collected more made called
    obtain ⟨other, ran, collected'⟩ := collected_next collected more made
    exact Except.ok.inj (ran.symm.trans called) ▸ collected'
  errorHandler := by
    intro logs shared collected short
    obtain ⟨noUpload, nothing⟩ := collected.waiting short
    refine ⟨_, errorHandler_ok job.query shared, rfl, noUpload, ?_⟩
    rw [nothing, List.nil_append]
    rfl
  ignored := by
    intro shared log next ignoring called
    exact Except.ok.inj ((callback_ignored log ignoring.spent).symm.trans called) ▸ ignoring

/-- An operation of the upload leaves what has been found, and posts the response at last. -/
theorem Collected.uploads {logs : List Log} {shared shared' : FindShared} {operation : Uploading.Operation}
    {ec : ErrorCode} {body : Bytes} (collected : Collected job logs shared)
    (stepped : job.query.uploads shared operation ec body = some shared') : Collected job logs shared' := by
  obtain ⟨upload, next, called, running, moved, rfl⟩ := FindQuery.uploads_cases stepped
  obtain ⟨pending, outcome⟩ := NuulsUploader.step_cases moved
  obtain ⟨request, -, response⟩ := NuulsUploader.step_texts moved
  refine ⟨collected.count, collected.found, fun short => ?_, fun all => ?_, collected.known⟩
  · rw [(collected.waiting short).1] at running
    cases running
  · rcases collected.decided all with ⟨-, nothing, -⟩ | ⟨_, same, found, ⟨text, dumped, carried⟩, answered⟩
    · rw [nothing] at running
      cases running
    · obtain rfl := Option.some.inj (running.symm.trans same)
      have posted : shared.posted = [] := by
        rcases answered with ⟨-, posted⟩ | ⟨ended, -⟩
        · exact posted
        · rw [ended] at pending
          cases pending
      refine .inr ⟨next, rfl, found, ⟨text, dumped, request.trans carried⟩, ?_⟩
      simp only [posted, List.nil_append]
      rcases outcome with ⟨-, ended, rfl⟩ | ⟨-, -, ended, rfl⟩ | ⟨-, going, rfl⟩
      · exact .inr ⟨ended, .inl rfl⟩
      · rw [← (response _ rfl).2]
        exact .inr ⟨ended, .inr rfl⟩
      · exact .inl ⟨going, rfl⟩

variable {answer : Target → Bytes} {s s' : LogDownloader FindShared}

/-- The logs are the answers, and what has been found is what they hold. -/
structure Searches (job : FindJob) (answer : Target → Bytes) (s : LogDownloader FindShared) : Prop where
  received : LogDownloader.Received (client job) answer s
  invariant : LogDownloader.Invariant (client job) (Collected job) (Ignoring job) s

theorem Searches.step {event : Event} (searches : Searches job answer s) (stepped : ServedStep job answer s event s') :
    Searches job answer s' := by
  obtain ⟨received, invariant⟩ := searches
  obtain ⟨stepped, served⟩ := stepped
  cases event with
  | downloads event =>
    have reads : ∀ it, s.pending = some (.read it) → s.downloaded.length = it := by
      intro it pending
      rcases invariant with working | failed
      · have position := working.position
        rw [pending] at position
        exact position.1
      · rw [failed.ended] at pending
        cases pending
    exact ⟨received.step reads (LogDownloader.moves_of_step stepped) (served event rfl),
      LogDownloader.step_invariant (collects job) invariant stepped⟩
  | uploads operation ec body =>
    obtain ⟨shared, moved, rfl⟩ := Option.map_eq_some_iff.mp stepped
    refine ⟨received, ?_⟩
    rcases invariant with working | failed
    · obtain ⟨counted, split, collected⟩ := working.counting
      exact .inl ⟨working.position, ⟨counted, split, collected.uploads moved⟩, working.made⟩
    · obtain ⟨upload, _, _, running, -⟩ := FindQuery.uploads_cases moved
      rw [failed.refused.noUpload] at running
      cases running

theorem collected_start (job : FindJob) : Collected job [] (FindQuery.start job.request.targets.length) := by
  refine ⟨rfl, rfl, fun _ => ⟨rfl, rfl⟩, fun nothing => ?_, by simp⟩
  exact absurd (List.eq_nil_of_length_eq_zero nothing.symm) job.nonempty

theorem searches_run (reached : Reaches (ServedStep job answer) (start job) s) : Searches job answer s := by
  have initial : Searches job answer (start job) := ⟨rfl, LogDownloader.run_invariant (collected_start job)⟩
  exact reached.invariant initial fun searches step => searches.step step

end Finding

/-- No field of the line has a line break. -/
def ChatLine.Unbroken (line : ChatLine) : Prop :=
  Byte.newline ∉ line.channel ∧ Byte.newline ∉ line.author ∧ Byte.newline ∉ line.message

open NuulsUploader (PlainStamp)

/-- A text that lists such lines is taken out of the upload as it was put in. -/
theorem FindQuery.Lists.recovers {query : FindQuery} {lines : List ChatLine} {text : Bytes}
    (lists : query.Lists lines text) (stamps : ∀ time, PlainStamp (query.showTime time))
    (unbroken : ∀ line ∈ lines, line.Unbroken) : NuulsUploader.Recovers text := by
  obtain ⟨sorted, perm, -, rfl⟩ := lists
  rw [List.flatMap_def]
  apply NuulsUploader.recovers_flatten
  intro text member
  obtain ⟨line, inside, rfl⟩ := List.mem_map.mp member
  obtain ⟨channel, author, message⟩ := unbroken line (perm.mem_iff.mp inside)
  have rest : Byte.newline ∉ ascii "#" ++ line.channel ++ ascii " " ++ line.author ++ ascii ": " ++ line.message := by
    simp only [List.mem_append, not_or]
    exact ⟨⟨⟨⟨⟨by decide, channel⟩, by decide⟩, author⟩, by decide⟩, message⟩
  have marked : ascii " #" = ascii " " ++ ascii "#" := by decide
  exact NuulsUploader.entry_of_parts (stamps line.time) rest
    (by simp only [ChatLine.dumped, marked, List.append_assoc])

namespace Finding

/-- The answer to a find request about these lines: nothing, a file that lists them, or an error. -/
inductive Answers (job : FindJob) (lines : List ChatLine) (s : LogDownloader FindShared) : Prop where
  | noHit : lines = [] → s.shared.upload = none → s.shared.posted = [noHitLine job] → Answers job lines s
  /-- The requester is told where the file is, unless the upload has failed. -/
  | file {upload : NuulsUploader} {text : Bytes} : lines ≠ [] → s.shared.upload = some upload →
      job.query.Lists lines text →
      Multipart.decode NuulsUploader.boundary upload.request = some ⟨NuulsUploader.partHeaders, text, ascii "--"⟩ →
      s.shared.posted = [] ∨ s.shared.posted = [linkLine job upload.response] → Answers job lines s
  | error : s.downloaded.length < job.request.targets.length → s.shared.upload = none →
      s.shared.posted = [errorLine job] → Answers job lines s

theorem answers_asked (job : FindJob) {hit : Bytes → Bool} {history : List ChatLine} {answer : Target → Bytes}
    (convertible : LogRequest.Convertible job.calendar job.query.period) (channelsNodup : job.channels.Nodup)
    (usersNodup : job.users.Nodup)
    (filed : LogRequest.Filed job.calendar job.dateParser job.service job.query.period job.channels job.users history
      answer job.allUsers)
    (hits : job.query.HitsOn hit history) (stamps : ∀ time, PlainStamp (job.query.showTime time))
    (unbroken : ∀ line ∈ history, line.Unbroken) {s : LogDownloader FindShared}
    (reached : Reaches (ServedStep job answer) (start job) s) (terminal : s.Terminal) :
    Answers job (job.query.asked job.channels job.users job.allUsers hit history) s := by
  obtain ⟨received, invariant⟩ := searches_run reached
  rcases invariant.terminal terminal with ⟨all, collected⟩ | ⟨short, ignoring⟩
  · have logs : s.downloaded = job.request.targets.map (LogRequest.received job.request.parser answer) := received.all all
    have perm := LogRequest.found_asked job.filled job.listed convertible channelsNodup usersNodup filed hits
    rw [← List.flatMap_map, ← logs, ← collected.found] at perm
    rcases collected.decided all with
      ⟨nothing, noUpload, posted⟩ | ⟨upload, running, something, ⟨text, dumped, carried⟩, answered⟩
    · rw [nothing, List.map_nil] at perm
      exact .noHit perm.nil_eq.symm noUpload posted
    · have known : ∀ found ∈ s.shared.sharedLinesFound, ∃ channel, found.channel = .some channel := by
        intro found member
        rw [collected.found] at member
        obtain ⟨log, inside, member⟩ := List.mem_flatMap.mp member
        exact ⟨_, mem_linesFound (collected.known log inside) member⟩
      obtain ⟨sorted, order, times, same⟩ := FindQuery.lists_of_dumpFunc known dumped
      have lists : job.query.Lists (job.query.asked job.channels job.users job.allUsers hit history) text :=
        ⟨sorted, order.trans perm, times, same⟩
      have recovers := lists.recovers stamps fun line member => unbroken line (List.mem_filter.mp member).1
      refine .file ?_ running lists (carried ▸ recovers.1) (answered.elim (fun going => .inl going.2) And.right)
      intro nothing
      rw [nothing, List.perm_nil, List.map_eq_nil_iff] at perm
      exact something perm
  · exact .error short ignoring.noUpload ignoring.posted

end Finding

end SaivBot
