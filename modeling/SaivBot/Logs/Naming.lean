import SaivBot.Logs.Accounting
import SaivBot.Logs.Finding
import SaivBot.Logs.Placement

/-! Queries that name a channel or a user more than once.

The targets are built from the lists as they are given, so a log is downloaded, and
searched, once for each time it is named. The set in which `find` keeps the channels
does not change that.
-/

set_option autoImplicit false

namespace SaivBot
open Civil Grouping Program

/-- What a line of the dump shows: the channel, the time, the name and the message. -/
def FoundLine.shown (found : FoundLine) : Option Bytes × TimePoint × Bytes × Bytes :=
  (found.channel, found.line.time, found.line.getNameView, found.line.getMessageView)

namespace LogRequest

/-! Every target is downloaded, and its log goes to the callback of `find`. -/

def receiveFound (query : FindQuery) (parser : ParserFunc) (answer : Target → Bytes) (shared : FindShared)
    (target : Target) : Except Abort FindShared := do
  let log ← (Log.ofData target.period target.channelName (answer target) parser).mapError Abort.ofView
  query.findCommandCallback log shared

def findTargets (query : FindQuery) (request : LogRequest) (answer : Target → Bytes) : Except Abort FindShared :=
  request.targets.foldlM (receiveFound query request.parser answer) (FindQuery.start request.targets.length)

variable {parser : ParserFunc} {answer : Target → Bytes} {target : Target}

/-- What is found is collected log by log; the last callback can dump it. Induction on the targets. -/
theorem findTargets_fold (query : FindQuery) (targets : List Target)
    (parsed : ∀ target ∈ targets,
      ∃ log, Log.ofData target.period target.channelName (answer target) parser = .ok log)
    (known : ∀ target ∈ targets, target.channelName ∈ query.channels) (shared : FindShared)
    (counter : shared.referenceCount = targets.length)
    (channels : ∀ found ∈ shared.sharedLinesFound, ∃ channel, found.channel = some channel) :
    ∃ final, targets.foldlM (receiveFound query parser answer) shared = .ok final ∧
      final.sharedLinesFound =
        shared.sharedLinesFound ++ targets.flatMap fun target => query.linesFound (received parser answer target) := by
  induction targets generalizing shared with
  | nil => exact ⟨shared, rfl, by simp⟩
  | cons target targets ih =>
    obtain ⟨log, parsedHere⟩ := parsed target List.mem_cons_self
    have same := received_eq parsedHere
    have knownHere : log.channelName ∈ query.channels := by
      rw [← same, received_channelName]
      exact known target List.mem_cons_self
    have collected : ∀ found ∈ shared.sharedLinesFound ++ query.linesFound log,
        ∃ channel, found.channel = some channel := by
      intro found member
      rcases List.mem_append.mp member with old | new
      · exact channels found old
      · exact ⟨_, Finding.mem_linesFound knownHere new⟩
    obtain ⟨next, called, lines, left⟩ : ∃ next, query.findCommandCallback log shared = .ok next ∧
        next.sharedLinesFound = shared.sharedLinesFound ++ query.linesFound log ∧
        next.referenceCount = targets.length := by
      rw [List.length_cons] at counter
      cases targets with
      | nil =>
        obtain ⟨next, called, spent, lines, -⟩ := Finding.callback_last log counter collected
        exact ⟨next, called, lines, spent⟩
      | cons other targets =>
        rw [List.length_cons] at counter
        refine ⟨_, Finding.callback_waiting log (by omega), rfl, ?_⟩
        simp only [List.length_cons]
        omega
    rw [← lines] at collected
    obtain ⟨final, folded, total⟩ := ih (fun other member => parsed other (List.mem_cons_of_mem target member))
      (fun other member => known other (List.mem_cons_of_mem target member)) next left collected
    refine ⟨final, ?_, ?_⟩
    · rw [List.foldlM_cons]
      simp only [receiveFound, parsedHere, Except.mapError, bind, Except.bind, called]
      exact folded
    · rw [total, lines, List.flatMap_cons, same, List.append_assoc]

/-! What is found in a log that shows certain lines. -/

/-- The answer shows these lines, and each keeps its pieces when it is copied. -/
def ShowsInside (parser : ParserFunc) (target : Target) (data : Bytes) (lines : List ChatLine) : Prop :=
  Shows parser target data lines ∧ LogParsing.CutsInside parser data

variable {query : FindQuery} {lines : List ChatLine} {found : FoundLine}

theorem ShowsInside.log (shows : ShowsInside parser target (answer target) lines) :
    ∃ log, received parser answer target = log ∧
      Log.ofData target.period target.channelName (answer target) parser = .ok log ∧
      (if log.valid then log.contents.Perm (lines.map (·.content)) else lines = []) ∧
      ∀ line ∈ log.lines, line.Placed log.data := by
  obtain ⟨⟨log, parsed, shows⟩, valid, views, read, placed⟩ := shows
  refine ⟨log, received_eq parsed, parsed, shows, fun line member => ?_⟩
  rw [Log.ofData, read] at parsed
  cases parsed
  exact (placed line member).1

/-- A line found is a copy of one of the log's lines inside the period. -/
theorem line_of_mem_findLines {log : Log} {it : Option Bytes} {views : List LineView}
    (member : found ∈ query.findLines log it views) :
    ∃ view ∈ views, query.period.isInside view.time = true ∧
      found = ⟨it, LogLine.copyLineViewImpl 0 log.data view⟩ := by
  induction views with
  | nil => cases member
  | cons view views ih =>
    have later : found ∈ query.findLines log it views → ∃ other ∈ view :: views,
        query.period.isInside other.time = true ∧ found = ⟨it, LogLine.copyLineViewImpl 0 log.data other⟩ := by
      intro member
      obtain ⟨other, inside, rest⟩ := ih member
      exact ⟨other, List.mem_cons_of_mem view inside, rest⟩
    unfold FindQuery.findLines at member
    split at member
    · next inside =>
      split at member
      · cases member
      · rcases List.mem_cons.mp member with rfl | member
        · exact ⟨view, List.mem_cons_self, inside, rfl⟩
        · exact later member
      · exact later member
    · exact later member

/-- A search that every text passes finds each line inside the period. -/
theorem mem_findLines_of_all (all : ∀ text, query.findFunc text = .ok true) {log : Log} {it : Option Bytes}
    {views : List LineView} {view : LineView} (member : view ∈ views)
    (inside : query.period.isInside view.time = true) :
    ⟨it, LogLine.copyLineViewImpl 0 log.data view⟩ ∈ query.findLines log it views := by
  induction views with
  | nil => cases member
  | cons first views ih =>
    unfold FindQuery.findLines
    rw [all]
    rcases List.mem_cons.mp member with rfl | later
    · rw [if_pos inside]
      exact List.mem_cons_self
    · split
      · exact List.mem_cons_of_mem _ (ih later)
      · exact ih later

theorem shown_copy {data : Bytes} {view : LineView} (placed : view.Placed data) (it : Option Bytes) :
    (FoundLine.mk it (LogLine.copyLineViewImpl 0 data view)).shown =
      (it, view.time, view.nameView.text data, view.messageView.text data) := by
  have same := placed.report_eq (.built 0)
  simp only [LogLine.report, LineView.report, Prod.mk.injEq] at same
  obtain ⟨time, -, name, message⟩ := same
  rw [FoundLine.shown, time, name, message]

/-- What a line found shows is a line the log stands for, inside the period. -/
theorem shown_of_mem (shows : ShowsInside parser target (answer target) lines)
    (known : target.channelName ∈ query.channels)
    (member : found ∈ query.linesFound (received parser answer target)) :
    ∃ line ∈ lines, query.period.isInside line.time = true ∧
      found.shown = (some target.channelName, line.time, line.author, line.message) := by
  obtain ⟨log, same, -, contents, placed⟩ := shows.log
  have channel : log.channelName = target.channelName := by rw [← same, received_channelName]
  rw [same] at member
  unfold FindQuery.linesFound at member
  rw [channel, if_pos known] at member
  split at member
  · next valid =>
    rw [if_pos valid] at contents
    obtain ⟨view, inside, period, rfl⟩ := line_of_mem_findLines member
    have content : view.content log.data ∈ lines.map (·.content) :=
      contents.mem_iff.mp (List.mem_map_of_mem inside)
    obtain ⟨line, there, content⟩ := List.mem_map.mp content
    simp only [ChatLine.content, LineView.content, Prod.mk.injEq] at content
    obtain ⟨time, author, message⟩ := content
    refine ⟨line, there, by rw [time]; exact period, ?_⟩
    rw [shown_copy (placed view inside), time, author, message]
  · cases member

theorem mem_shown_of_all (shows : ShowsInside parser target (answer target) lines)
    (known : target.channelName ∈ query.channels) (all : ∀ text, query.findFunc text = .ok true) {line : ChatLine}
    (there : line ∈ lines) (inside : query.period.isInside line.time = true) :
    (some target.channelName, line.time, line.author, line.message) ∈
      (query.linesFound (received parser answer target)).map FoundLine.shown := by
  obtain ⟨log, same, -, contents, placed⟩ := shows.log
  have channel : log.channelName = target.channelName := by rw [← same, received_channelName]
  have valid : log.valid = true := by
    by_contra invalid
    rw [if_neg invalid] at contents
    rw [contents] at there
    cases there
  rw [if_pos valid] at contents
  have content : line.content ∈ log.contents := contents.mem_iff.mpr (List.mem_map_of_mem there)
  obtain ⟨view, member, content⟩ := List.mem_map.mp content
  simp only [ChatLine.content, LineView.content, Prod.mk.injEq] at content
  obtain ⟨time, author, message⟩ := content
  rw [← time] at inside
  rw [same, FindQuery.linesFound, if_pos valid, channel, if_pos known, ← time, ← author, ← message,
    ← shown_copy (placed view member)]
  exact List.mem_map_of_mem (mem_findLines_of_all all member inside)

/-! A history taken apart by a key that is named and a span of time. -/

/-- The count of a request comes to its end, with this number. -/
def Reports (query : CountQuery) (request : LogRequest) (answer : Target → Bytes) (number : Nat) : Prop :=
  ∃ final, countTargets query request answer = .ok final ∧ final.sharedCount = number

/-- Both requests are answered alike: the same count, if it comes to its end, and lines that show the same, each
as often. -/
structure SameAnswers (period : TimeDetail.TimePeriod) (answer : Target → Bytes) (channels channels' : List Bytes)
    (request request' : LogRequest) : Prop where
  count : ∀ query : CountQuery, query.period = period → ∀ number,
    Reports query request answer number ↔ Reports query request' answer number
  reports : ∀ query : CountQuery, query.period = period → query.Ends → ∃ number, Reports query request answer number
  find : ∀ query : FindQuery, query.period = period → ∃ first second,
    findTargets { query with channels := channels.toFinset } request answer = .ok first ∧
      findTargets { query with channels := channels'.toFinset } request' answer = .ok second ∧
      (first.sharedLinesFound.map FoundLine.shown).Perm (second.sharedLinesFound.map FoundLine.shown)

section

variable {Key Span : Type} [BEq Key] [BEq Span]

/-- A way to take a history apart, and the target of each part. -/
structure Split (Key Span : Type) where
  keyOf : ChatLine → Key
  spanOf : ChatLine → Span
  target : Key → Span → Target
  /-- A target is about the channel of its key, and the key is given by the channel and the author. -/
  channelName : ∀ {key span line}, keyOf line = key → (target key span).channelName = line.channel
  determined : ∀ {line other : ChatLine}, line.channel = other.channel → line.author = other.author →
    keyOf line = keyOf other

namespace Split

variable (split : Split Key Span)

/-- The lines a target is about. -/
def filed (history : List ChatLine) (key : Key) (span : Span) : List ChatLine :=
  history.filter fun line => split.keyOf line == key && split.spanOf line == span

/-- A request for these keys, whose targets are answered with what the history has of them. -/
structure Covers (history : List ChatLine) (answer : Target → Bytes) (channels : Finset Bytes) (keys : List Key)
    (spans : List Span) (request : LogRequest) : Prop where
  targets : request.targets = keys.flatMap fun key => spans.map (split.target key)
  shows : ∀ key ∈ keys, ∀ span ∈ spans, ShowsInside request.parser (split.target key span)
    (answer (split.target key span)) (split.filed history key span)
  known : ∀ key ∈ keys, ∀ span ∈ spans, (split.target key span).channelName ∈ channels

variable {split} {history : List ChatLine} {channels : Finset Bytes} {keys : List Key} {spans : List Span}
  {request : LogRequest}

/-- What the logs of a key count. -/
def worth (split : Split Key Span) (query : CountQuery) (parser : ParserFunc) (answer : Target → Bytes)
    (spans : List Span) (key : Key) : Nat :=
  query.countLogs (spans.map fun span => received parser answer (split.target key span))

/-- The logs of these keys are counted to their end. -/
def Counted (split : Split Key Span) (query : CountQuery) (parser : ParserFunc) (answer : Target → Bytes)
    (keys : List Key) (spans : List Span) : Prop :=
  ∀ key ∈ keys, ∀ span ∈ spans, ∃ count, query.countLog (received parser answer (split.target key span)) = .ok count

theorem Covers.asked (covers : split.Covers history answer channels keys spans request) {target : Target}
    (member : target ∈ request.targets) : ∃ key ∈ keys, ∃ span ∈ spans, split.target key span = target := by
  simpa only [covers.targets, List.mem_flatMap, List.mem_map] using member

theorem Covers.parsed (covers : split.Covers history answer channels keys spans request) :
    ∀ target ∈ request.targets,
      ∃ log, Log.ofData target.period target.channelName (answer target) request.parser = .ok log := by
  intro target member
  obtain ⟨key, named, span, listed, rfl⟩ := covers.asked member
  obtain ⟨log, -, parsed, -⟩ := (covers.shows key named span listed).log
  exact ⟨log, parsed⟩

/-- A count comes to its end where it does in every log, with what the keys count together. -/
theorem Covers.reports_iff (covers : split.Covers history answer channels keys spans request) (query : CountQuery)
    {number : Nat} : Reports query request answer number ↔
      split.Counted query request.parser answer keys spans ∧
        (keys.map (split.worth query request.parser answer spans)).sum % sizeLimit = number := by
  have targets : query.countLogs (request.targets.map (received request.parser answer)) =
      (keys.map (split.worth query request.parser answer spans)).sum := by
    rw [covers.targets, CountQuery.countLogs, List.map_map, sum_flatMap]
    congr 1
    refine List.map_congr_left fun key _ => ?_
    rw [worth, CountQuery.countLogs, List.map_map, List.map_map]
    rfl
  have fold (counted : ∀ target ∈ request.targets,
        ∃ count, query.countLog (received request.parser answer target) = .ok count) :
      ∃ final, countTargets query request answer = .ok final ∧
        final.sharedCount = (keys.map (split.worth query request.parser answer spans)).sum % sizeLimit := by
    obtain ⟨final, folded, sum⟩ := countTargets_fold covers.parsed counted (CountQuery.start request.targets.length) rfl
      (Nat.two_pow_pos 64)
    refine ⟨final, folded, ?_⟩
    rw [sum, targets]
    exact congrArg (· % sizeLimit) (Nat.zero_add _)
  constructor
  · rintro ⟨final, counted, rfl⟩
    have each := counted_of_foldlM counted
    obtain ⟨_, again, sum⟩ := fold each
    obtain rfl := Except.ok.inj (counted.symm.trans again)
    refine ⟨fun key named span listed => each _ ?_, sum.symm⟩
    rw [covers.targets]
    exact List.mem_flatMap.mpr ⟨key, named, List.mem_map_of_mem listed⟩
  · rintro ⟨counted, rfl⟩
    apply fold
    intro target member
    obtain ⟨key, named, span, listed, rfl⟩ := covers.asked member
    exact counted key named span listed

/-- What is found of a key. -/
def foundOf (split : Split Key Span) (query : FindQuery) (parser : ParserFunc) (answer : Target → Bytes)
    (spans : List Span) (key : Key) : List FoundLine :=
  spans.flatMap fun span => query.linesFound (received parser answer (split.target key span))

theorem Covers.findTargets_eq (covers : split.Covers history answer channels keys spans request) (query : FindQuery)
    (set : query.channels = channels) : ∃ final, findTargets query request answer = .ok final ∧
      final.sharedLinesFound = keys.flatMap (split.foundOf query request.parser answer spans) := by
  subst set
  have known : ∀ target ∈ request.targets, target.channelName ∈ query.channels := by
    intro target member
    obtain ⟨key, named, span, listed, rfl⟩ := covers.asked member
    exact covers.known key named span listed
  obtain ⟨final, folded, total⟩ := findTargets_fold query request.targets covers.parsed known
    (FindQuery.start request.targets.length) rfl (by simp [FindQuery.start])
  refine ⟨final, folded, ?_⟩
  rw [total, covers.targets, List.flatMap_assoc]
  simp only [FindQuery.start, List.nil_append, List.flatMap_map]
  rfl

variable [LawfulBEq Key] [LawfulBEq Span]

theorem mem_filed {key : Key} {span : Span} {line : ChatLine} :
    line ∈ split.filed history key span ↔ line ∈ history ∧ split.keyOf line = key ∧ split.spanOf line = span := by
  simp [filed]

/-- A key counts for something where a line of it lies inside the period. -/
theorem Covers.exists_of_worth (covers : split.Covers history answer channels keys spans request) {query : CountQuery}
    {key : Key} (named : key ∈ keys) (worth : split.worth query request.parser answer spans key ≠ 0) :
    ∃ line ∈ history, query.period.isInside line.time = true ∧ split.keyOf line = key := by
  by_contra outside
  push Not at outside
  refine worth (List.sum_eq_zero fun value member => ?_)
  rw [List.map_map] at member
  obtain ⟨span, listed, rfl⟩ := List.mem_map.mp member
  by_contra adds
  obtain ⟨log, same, -, contents, -⟩ := (covers.shows key named span listed).log
  rw [Function.comp_apply, same] at adds
  obtain ⟨valid, content, there, inside⟩ := CountQuery.exists_of_worth adds
  rw [if_pos valid] at contents
  obtain ⟨line, filed, rfl⟩ := List.mem_map.mp (contents.mem_iff.mp there)
  obtain ⟨there, isKey, -⟩ := mem_filed.mp filed
  exact outside line there inside isKey

/-- What is found of a key shows a line of it inside the period. -/
theorem Covers.shown_of_mem (covers : split.Covers history answer channels keys spans request)
    (set : query.channels = channels) {key : Key}
    (named : key ∈ keys) (member : found ∈ split.foundOf query request.parser answer spans key) :
    ∃ line ∈ history, query.period.isInside line.time = true ∧ split.keyOf line = key ∧
      found.shown = (some line.channel, line.time, line.author, line.message) := by
  subst set
  obtain ⟨span, listed, member⟩ := List.mem_flatMap.mp member
  obtain ⟨line, there, inside, shown⟩ :=
    LogRequest.shown_of_mem (covers.shows key named span listed) (covers.known key named span listed) member
  obtain ⟨there, same, -⟩ := mem_filed.mp there
  rw [split.channelName same] at shown
  exact ⟨line, there, inside, same, shown⟩

/-- A search that every text passes shows each line inside the period under its own key. -/
theorem Covers.mem_shown (covers : split.Covers history answer channels keys spans request)
    (set : query.channels = channels) (all : ∀ text, query.findFunc text = .ok true) {line : ChatLine}
    (there : line ∈ history)
    (inside : query.period.isInside line.time = true) (named : split.keyOf line ∈ keys)
    (touched : split.spanOf line ∈ spans) :
    (some line.channel, line.time, line.author, line.message) ∈
      (split.foundOf query request.parser answer spans (split.keyOf line)).map FoundLine.shown := by
  subst set
  have shown := mem_shown_of_all (covers.shows _ named _ touched) (covers.known _ named _ touched) all
    (mem_filed.mpr ⟨there, rfl, rfl⟩) inside
  rw [split.channelName rfl] at shown
  rw [foundOf, List.map_flatMap]
  exact List.mem_flatMap.mpr ⟨_, touched, shown⟩

/-- And under no other one. -/
theorem Covers.key_of_mem_shown (covers : split.Covers history answer channels keys spans request)
    (set : query.channels = channels) {line : ChatLine} {key : Key} (named : key ∈ keys)
    (shown : (some line.channel, line.time, line.author, line.message) ∈
      (split.foundOf query request.parser answer spans key).map FoundLine.shown) : key = split.keyOf line := by
  subst set
  obtain ⟨found, member, same⟩ := List.mem_map.mp shown
  obtain ⟨other, -, -, isKey, shows⟩ := covers.shown_of_mem rfl named member
  rw [shows] at same
  simp only [Prod.mk.injEq, Option.some.injEq] at same
  obtain ⟨channel, -, author, -⟩ := same
  rw [← isKey]
  exact split.determined channel author

section

variable {period : TimeDetail.TimePeriod} {channels channels' : List Bytes} {keys keys' : List Key}
  {request request' : LogRequest}
  (covers : split.Covers history answer channels.toFinset keys spans request)
  (covers' : split.Covers history answer channels'.toFinset keys' spans request')
  (sameChannels : channels.toFinset = channels'.toFinset) (sameKeys : ∀ key, key ∈ keys ↔ key ∈ keys')
  (sameParser : request'.parser = request.parser)

include covers covers' sameChannels sameKeys sameParser

/-- Keys that are named equally often give the same answers. -/
theorem sameAnswers_of_counts (counts : ∀ line ∈ history, period.isInside line.time = true →
      keys.count (split.keyOf line) = keys'.count (split.keyOf line)) :
    SameAnswers period answer channels channels' request request' := by
  constructor
  · rintro query rfl number
    rw [covers.reports_iff, covers'.reports_iff, sameParser]
    have same : (keys.map (split.worth query request.parser answer spans)).sum =
        (keys'.map (split.worth query request.parser answer spans)).sum := by
      apply sum_eq_of_count
      intro key adds
      by_cases named : key ∈ keys
      · obtain ⟨line, there, inside, rfl⟩ := covers.exists_of_worth named adds
        exact counts line there inside
      · rw [List.count_eq_zero.mpr named, List.count_eq_zero.mpr (mt (sameKeys key).mpr named)]
    rw [same]
    simp only [Split.Counted, sameKeys]
  · rintro query - ends
    exact ⟨_, (covers.reports_iff query).mpr ⟨fun key _ span _ => ends.countLog _, rfl⟩⟩
  · rintro query rfl
    rw [← sameChannels]
    rw [← sameChannels] at covers'
    obtain ⟨first, searched, lines⟩ := covers.findTargets_eq { query with channels := channels.toFinset } rfl
    obtain ⟨second, searched', lines'⟩ := covers'.findTargets_eq { query with channels := channels.toFinset } rfl
    refine ⟨first, second, searched, searched', List.Perm.map _ (Multiset.coe_eq_coe.mp ?_)⟩
    rw [lines, lines', sameParser, coe_flatMap, coe_flatMap]
    apply sum_eq_of_count
    intro key adds
    by_cases named : key ∈ keys
    · obtain ⟨found, member⟩ := List.exists_mem_of_ne_nil _ fun nothing => adds (congrArg _ nothing)
      obtain ⟨line, there, inside, rfl, -⟩ := covers.shown_of_mem rfl named member
      exact counts line there inside
    · rw [List.count_eq_zero.mpr named, List.count_eq_zero.mpr (mt (sameKeys key).mpr named)]

/-- A search that every text passes shows where the keys are not named equally often. -/
theorem counts_of_sameAnswers
    (touched : ∀ line ∈ history, period.isInside line.time = true → split.spanOf line ∈ spans)
    (same : SameAnswers period answer channels channels' request request') {line : ChatLine}
    (there : line ∈ history) (inside : period.isInside line.time = true) :
    keys.count (split.keyOf line) = keys'.count (split.keyOf line) := by
  by_cases named : split.keyOf line ∈ keys
  · let query : FindQuery := { Finding.sampleJob.query with
      findFunc := fun _ => .ok true
      period := period
      channels := channels.toFinset }
    obtain ⟨first, second, searched, searched', perm⟩ := same.find query rfl
    rw [← sameChannels] at covers' searched'
    obtain ⟨_, again, lines⟩ := covers.findTargets_eq query rfl
    obtain rfl := Except.ok.inj (searched.symm.trans again)
    obtain ⟨_, again', lines'⟩ := covers'.findTargets_eq query rfl
    obtain rfl := Except.ok.inj (searched'.symm.trans again')
    rw [lines, lines', sameParser, List.map_flatMap, List.map_flatMap] at perm
    have sums := Multiset.coe_eq_coe.mpr perm
    rw [coe_flatMap, coe_flatMap] at sums
    have all : ∀ text, query.findFunc text = .ok true := fun _ => rfl
    have here := covers.mem_shown rfl all there inside named (touched line there inside)
    refine count_eq_of_sum_eq (Multiset.mem_coe.mpr here) ?_ ?_ sums
    · exact fun other listed member => covers.key_of_mem_shown rfl listed (Multiset.mem_coe.mp member)
    · intro other listed member
      exact covers.key_of_mem_shown rfl ((sameKeys other).mpr listed) (Multiset.mem_coe.mp member)
  · rw [List.count_eq_zero.mpr named, List.count_eq_zero.mpr (mt (sameKeys _).mpr named)]

end

end Split

end

/-! The two ways to take a history apart: by user and calendar month, and by calendar day. -/

def userSplit (calendar : Calendar) (service : LogService) : Split (Bytes × Bytes) YearMonth where
  keyOf line := (line.channel, line.author)
  spanOf line := calendar.monthOf (TimeDetail.floorDays line.time)
  target key ym := userTarget calendar service key.1 key.2 ym
  channelName same := (congrArg Prod.fst same).symm
  determined channel author := Prod.ext channel author

def daySplit (calendar : Calendar) (service : LogService) : Split Bytes Date where
  keyOf line := line.channel
  spanOf line := calendar.fromDays (TimeDetail.floorDays line.time)
  target channel date := channelTarget calendar service channel date
  channelName same := same.symm
  determined channel _ := channel

/-- The service answers every target of the query with what the history has of it. -/
def Consistent (calendar : Calendar) (date : DateParser) (service : LogService) (period : TimeDetail.TimePeriod)
    (channels users : List Bytes) (history : List ChatLine) (answer : Target → Bytes) : Bool → Prop
  | false => ∀ channel ∈ channels, ∀ user ∈ users, ∀ ym, Touches calendar period ym →
    ShowsInside (service.parser date) (userTarget calendar service channel user ym)
      (answer (userTarget calendar service channel user ym))
      ((userSplit calendar service).filed history (channel, user) ym)
  | true => ∀ channel ∈ channels, ∀ day, TouchesDay calendar period day →
    ShowsInside (service.parser date) (channelTarget calendar service channel day)
      (answer (channelTarget calendar service channel day))
      ((daySplit calendar service).filed history channel day)

/-- How often a query names where a line comes from. -/
def timesNamed (allUsers : Bool) (channels users : List Bytes) (line : ChatLine) : Nat :=
  if allUsers then channels.count line.channel else channels.count line.channel * users.count line.author

/-- Two queries that differ in their lists are answered alike. -/
def AnsweredAlike (calendar : Calendar) (date : DateParser) (service : LogService) (allUsers : Bool)
    (period : TimeDetail.TimePeriod) (answer : Target → Bytes) (channels users channels' users' : List Bytes) : Prop :=
  ∃ request request',
    fillLogRequestTargetFields calendar date service allUsers period channels users = some request ∧
    fillLogRequestTargetFields calendar date service allUsers period channels' users' = some request' ∧
    SameAnswers period answer channels channels' request request'

section

variable {calendar : Calendar} {date : DateParser} {service : LogService} {period : TimeDetail.TimePeriod}
  {channels users channels' users' : List Bytes} {history : List ChatLine}

/-- A request by users and months covers what the service is consistent with. -/
theorem covers_users {months : List YearMonth} (listed : periodToYearMonths calendar period = some months)
    (members : ∀ ym, ym ∈ months ↔ Touches calendar period ym)
    (consistent : Consistent calendar date service period channels users history answer false) :
    ∃ request, fillLogRequestTargetFields calendar date service false period channels users = some request ∧
      request.parser = service.parser date ∧
      (userSplit calendar service).Covers history answer channels.toFinset (channels ×ˢ users) months request := by
  obtain ⟨request, filled, parser, targets⟩ := fill_users_targets date service listed channels users
  refine ⟨request, filled, parser, ?_, ?_, ?_⟩
  · rw [targets]
    simp only [SProd.sprod, List.product, List.flatMap_assoc, List.flatMap_map]
    rfl
  · rintro ⟨channel, user⟩ named ym month
    obtain ⟨channelNamed, userNamed⟩ := List.mem_product.mp named
    rw [parser]
    exact consistent channel channelNamed user userNamed ym ((members ym).mp month)
  · rintro ⟨channel, user⟩ named ym _
    exact List.mem_toFinset.mpr (List.mem_product.mp named).1

/-- A request by days covers what the service is consistent with. -/
theorem covers_days {days : List Date} (listed : periodToDates calendar period = some days)
    (members : ∀ day, day ∈ days ↔ TouchesDay calendar period day)
    (consistent : Consistent calendar date service period channels users history answer true) :
    ∃ request, fillLogRequestTargetFields calendar date service true period channels users = some request ∧
      request.parser = service.parser date ∧
      (daySplit calendar service).Covers history answer channels.toFinset channels days request := by
  obtain ⟨request, filled, parser, targets⟩ := fill_days_targets date service listed channels users
  refine ⟨request, filled, parser, targets, ?_, ?_⟩
  · intro channel named day touched
    rw [parser]
    exact consistent channel named day ((members day).mp touched)
  · exact fun channel named _ _ => List.mem_toFinset.mpr named

variable (sameChannels : ∀ channel, channel ∈ channels ↔ channel ∈ channels')

include sameChannels

theorem answeredAlike_days_iff
    (consistent : Consistent calendar date service period channels users history answer true) :
    AnsweredAlike calendar date service true period answer channels users channels' users' ↔
      ∀ line ∈ history, period.isInside line.time = true →
        timesNamed true channels users line = timesNamed true channels' users' line := by
  obtain ⟨days, listed, members, -⟩ := periodToDates_spec calendar period
  have consistent' : Consistent calendar date service period channels' users' history answer true :=
    fun channel named day touched => consistent channel ((sameChannels channel).mpr named) day touched
  obtain ⟨request, filled, parser, covers⟩ := covers_days listed members consistent
  obtain ⟨request', filled', parser', covers'⟩ := covers_days listed members consistent'
  have sameSet : channels.toFinset = channels'.toFinset := List.toFinset.ext sameChannels
  constructor
  · rintro ⟨_, _, same, same', answers⟩ line there inside
    obtain rfl := Option.some.inj (filled.symm.trans same)
    obtain rfl := Option.some.inj (filled'.symm.trans same')
    exact Split.counts_of_sameAnswers covers covers' sameSet sameChannels (parser'.trans parser.symm)
      (fun _ _ inside => (members _).mpr (touchesDay_of_inside inside)) answers there inside
  · intro counts
    exact ⟨request, request', filled, filled',
      Split.sameAnswers_of_counts covers covers' sameSet sameChannels (parser'.trans parser.symm) counts⟩

variable (sameUsers : ∀ user, user ∈ users ↔ user ∈ users')

include sameUsers

theorem answeredAlike_users_iff
    (consistent : Consistent calendar date service period channels users history answer false) :
    AnsweredAlike calendar date service false period answer channels users channels' users' ↔
      ∀ line ∈ history, period.isInside line.time = true →
        timesNamed false channels users line = timesNamed false channels' users' line := by
  obtain ⟨months, listed, members, -⟩ := periodToYearMonths_spec calendar period
  have consistent' : Consistent calendar date service period channels' users' history answer false := by
    intro channel named user asked ym touched
    exact consistent channel ((sameChannels channel).mpr named) user ((sameUsers user).mpr asked) ym touched
  obtain ⟨request, filled, parser, covers⟩ := covers_users listed members consistent
  obtain ⟨request', filled', parser', covers'⟩ := covers_users listed members consistent'
  have sameSet : channels.toFinset = channels'.toFinset := List.toFinset.ext sameChannels
  have sameKeys : ∀ key, key ∈ channels ×ˢ users ↔ key ∈ channels' ×ˢ users' := by
    rintro ⟨channel, user⟩
    rw [List.mem_product, List.mem_product, sameChannels, sameUsers]
  have times (line : ChatLine) (channels users : List Bytes) : timesNamed false channels users line =
      (channels ×ˢ users).count ((userSplit calendar service).keyOf line) := (count_product _ _ _ _).symm
  simp only [times]
  constructor
  · rintro ⟨_, _, same, same', answers⟩ line there inside
    obtain rfl := Option.some.inj (filled.symm.trans same)
    obtain rfl := Option.some.inj (filled'.symm.trans same')
    exact Split.counts_of_sameAnswers covers covers' sameSet sameKeys (parser'.trans parser.symm)
      (fun _ _ inside => (members _).mpr (touches_of_inside inside)) answers there inside
  · intro counts
    exact ⟨request, request', filled, filled',
      Split.sameAnswers_of_counts covers covers' sameSet sameKeys (parser'.trans parser.symm) counts⟩

end

/-- Lists with the same elements get the same answers exactly if they name each channel, and on the way by users
each user in it, equally often, as far as there is a line of theirs in the period. -/
theorem answeredAlike_iff (calendar : Calendar) (date : DateParser) (service : LogService) (allUsers : Bool)
    (period : TimeDetail.TimePeriod) (channels users channels' users' : List Bytes) (history : List ChatLine)
    (answer : Target → Bytes) (sameChannels : ∀ channel, channel ∈ channels ↔ channel ∈ channels')
    (sameUsers : ∀ user, user ∈ users ↔ user ∈ users')
    (consistent : Consistent calendar date service period channels users history answer allUsers) :
    AnsweredAlike calendar date service allUsers period answer channels users channels' users' ↔
      ∀ line ∈ history, period.isInside line.time = true →
        timesNamed allUsers channels users line = timesNamed allUsers channels' users' line := by
  cases allUsers with
  | false => exact answeredAlike_users_iff sameChannels sameUsers consistent
  | true => exact answeredAlike_days_iff sameChannels consistent

/-! A service that prints its lines in its own format keeps every piece in its line. -/

theorem terminatedLines_render {text : ChatEntry → Bytes} (entries : List ChatEntry)
    (clean : ∀ entry ∈ entries, Byte.newline ∉ text entry) :
    terminatedLines (LogParsing.render text entries) = entries.map text := by
  induction entries with
  | nil => exact terminatedLines_of_notMem (by simp [LogParsing.render])
  | cons entry entries ih =>
    have split : LogParsing.render text (entry :: entries) =
        text entry ++ Byte.newline :: LogParsing.render text entries := by
      simp [LogParsing.render]
    rw [split, terminatedLines_append (clean entry List.mem_cons_self), List.map_cons,
      ih fun other member => clean other (List.mem_cons_of_mem entry member)]

theorem gempirText_readable (calendar : Calendar) (date : DateParser) (entry : ChatEntry) :
    LogParsing.GempirReadable date (LogParsing.gempirText calendar entry) := by
  have opening : ascii "[" = [91] := by decide
  have closing : ascii "] " = [LogParsing.closingBracket, Byte.space] := by decide
  have absent : LogParsing.closingBracket ∉ ascii "[" ++ TimeDetail.formatSeconds calendar entry.time := by
    rw [opening]
    simpa using ⟨by decide, (LogParsing.stamp_clean entry.time).1⟩
  have parts : LogParsing.GempirParts (LogParsing.gempirText calendar entry)
      (ascii "[" ++ TimeDetail.formatSeconds calendar entry.time) (Byte.hash :: entry.channel) entry.author
      (Byte.space :: entry.message) := by
    refine ⟨⟨LogParsing.gempirText_split, ?_⟩, ?_, entry.authorClean.2.1⟩
    · rw [LogParsing.gempirText_split, closing, StringView.findText_append absent]
    · simpa using ⟨by decide, entry.channelClean.1⟩
  refine (LogParsing.gempirReadable_iff parts).mpr ⟨List.cons_ne_nil _ _, fun empty => ?_⟩
  rw [opening] at empty
  cases empty

theorem cutsInside_render (calendar : Calendar) (date : DateParser) (entries : List ChatEntry) :
    LogParsing.CutsInside (LogParsing.gempirLogParser date)
      (LogParsing.render (LogParsing.gempirText calendar) entries) := by
  refine LogParsing.gempirLogParser_cutsInside_iff.mpr fun line member => ?_
  rw [terminatedLines_render entries fun _ _ => LogParsing.gempirText_clean] at member
  obtain ⟨entry, -, rfl⟩ := List.mem_map.mp member
  exact gempirText_readable calendar date entry

/-! One channel with two users, and the same users the other way round. -/

theorem sample_consistent (allUsers : Bool) :
    Consistent gregorian LogParsing.sampleParser .gempirLog sampleQuery.period sampleChannels sampleUsers
      sampleHistory sampleAnswer allUsers := by
  cases allUsers with
  | false =>
    intro channel named user asked ym touched
    obtain rfl := sample_touches touched
    simp only [sampleChannels, sampleUsers, List.mem_cons, List.not_mem_nil, or_false] at named asked
    refine ⟨sample_shows ?_, cutsInside_render _ _ _⟩
    rcases named with rfl
    rcases asked with rfl | rfl <;> decide
  | true =>
    intro channel named day touched
    obtain rfl := sample_touchesDay touched
    simp only [sampleChannels, List.mem_cons, List.not_mem_nil, or_false] at named
    refine ⟨sample_shows ?_, cutsInside_render _ _ _⟩
    rcases named with rfl
    decide

theorem answeredAlike_sample :
    AnsweredAlike gregorian LogParsing.sampleParser .gempirLog false sampleQuery.period sampleAnswer
      sampleChannels sampleUsers sampleChannels sampleUsers.reverse := by
  apply (answeredAlike_iff gregorian LogParsing.sampleParser .gempirLog false sampleQuery.period sampleChannels
    sampleUsers sampleChannels sampleUsers.reverse sampleHistory sampleAnswer (fun _ => Iff.rfl)
    (fun _ => List.mem_reverse.symm) (sample_consistent false)).mpr
  intro line _ _
  simp only [timesNamed, Bool.false_eq_true, ↓reduceIte, List.count_reverse]

/-- Naming the channel twice counts, and finds, everything twice. -/
theorem channel_named_twice :
    ¬ ∀ (calendar : Calendar) (date : DateParser) (service : LogService) (allUsers : Bool)
        (period : TimeDetail.TimePeriod) (channels users channels' users' : List Bytes) (history : List ChatLine)
        (answer : Target → Bytes), (∀ channel, channel ∈ channels ↔ channel ∈ channels') →
      (∀ user, user ∈ users ↔ user ∈ users') →
      Consistent calendar date service period channels users history answer allUsers →
      AnsweredAlike calendar date service allUsers period answer channels users channels' users' := by
  intro alike
  have sameChannels (channel : Bytes) :
      channel ∈ sampleChannels ↔ channel ∈ sampleChannels ++ sampleChannels := by simp
  have same := alike gregorian LogParsing.sampleParser .gempirLog true sampleQuery.period sampleChannels []
    (sampleChannels ++ sampleChannels) [] sampleHistory sampleAnswer sameChannels (fun _ => Iff.rfl)
    (sample_consistent true)
  have times := (answeredAlike_days_iff sameChannels (sample_consistent true)).mp same
  have twice : ∃ line ∈ sampleHistory, sampleQuery.period.isInside line.time = true ∧
      timesNamed true sampleChannels [] line ≠ timesNamed true (sampleChannels ++ sampleChannels) [] line := by
    decide
  obtain ⟨line, there, inside, differ⟩ := twice
  exact differ (times line there inside)

end LogRequest

end SaivBot
