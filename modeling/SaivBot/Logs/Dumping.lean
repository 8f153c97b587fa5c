import SaivBot.Logs.Finding
import SaivBot.Stability

/-! The text `find` makes of the lines it has found.

The lines of each log come in the order of the log, and `std::sort` then puts them in
order of time. It need not keep lines of one time as they were, so the dump keeps the
order of a log just where such lines read the same.
-/

set_option autoImplicit false

namespace SaivBot
open Program Stability StringView

/-- A line found and the position of its log among those received. -/
structure FoundEntry where
  source : Nat
  found : FoundLine
  deriving DecidableEq

/-- Lines of one log and one time. -/
def FoundEntry.tie (entry : FoundEntry) : Nat × TimePoint := (entry.source, entry.found.line.time)

/-- What stands behind the channel in the dump. -/
def FoundLine.said (found : FoundLine) : Bytes :=
  found.line.getNameView ++ ascii ": " ++ found.line.getMessageView

/-- Earlier, or of the same time and not preceded by the other's being chosen. -/
def FoundLine.Before (chosen : FoundLine → Bool) (a b : FoundLine) : Prop :=
  a.line.time < b.line.time ∨ a.line.time = b.line.time ∧ (chosen b = true → chosen a = true)

instance (chosen : FoundLine → Bool) : DecidableRel (FoundLine.Before chosen) := fun a b =>
  inferInstanceAs (Decidable (_ ∨ _ ∧ (chosen b = true → chosen a = true)))

theorem FoundLine.sort_before (chosen : FoundLine → Bool) (lines : List FoundLine) :
    (lines.insertionSort (FoundLine.Before chosen)).Pairwise (FoundLine.Before chosen) := by
  have total : Std.Total (FoundLine.Before chosen) := ⟨fun a b => by simp only [FoundLine.Before]; grind⟩
  have trans : IsTrans FoundLine (FoundLine.Before chosen) :=
    ⟨fun a b c => by simp only [FoundLine.Before]; grind⟩
  exact List.pairwise_insertionSort _ lines

/-- A sort by time that puts the chosen lines first among those of one time. -/
def TimeSort.choosing (chosen : FoundLine → Bool) : TimeSort where
  sort := List.insertionSort (FoundLine.Before chosen)
  perm := List.perm_insertionSort _
  sorted lines := by
    refine (FoundLine.sort_before chosen lines).imp fun {a b} before => ?_
    rcases before with earlier | ⟨same, -⟩
    · exact le_of_lt earlier
    · exact le_of_eq same

namespace FindQuery

variable (query : FindQuery)

def sortedBy (sorting : TimeSort) : FindQuery := { query with sorting }

/-- The lines found, log by log. -/
def entries (logs : List Log) : List FoundEntry :=
  logs.zipIdx.flatMap fun log => (query.linesFound log.1).map (FoundEntry.mk log.2)

/-- The dump shows the lines found in these logs, in this arrangement. -/
structure Dumps (logs : List Log) (arranged : List FoundEntry) : Prop where
  channel : ∀ entry ∈ arranged, ∃ log, logs[entry.source]? = some log ∧
    entry.found.channel = some log.channelName
  increasing : arranged.Pairwise fun a b => a.found.line.time ≤ b.found.line.time
  /-- Each line once, and those of one log and one time in their order. -/
  kept : Keeps FoundEntry.tie (query.entries logs) arranged
  printed : (query.sorting.sort (logs.flatMap query.linesFound)).map query.dumpLine =
    arranged.map fun entry => query.dumpLine entry.found
  text : ∃ texts : List Bytes, (arranged.map fun entry => query.dumpLine entry.found) = texts.map Except.ok ∧
    query.dumpFunc (logs.flatMap query.linesFound) = .ok texts.flatten

/-- Whatever `std::sort` makes of ties. -/
def DumpsInOrder (logs : List Log) : Prop :=
  ∀ sorting, ∃ arranged, (query.sortedBy sorting).Dumps logs arranged

variable {query}

theorem sortedBy_findLines (sorting : TimeSort) (log : Log) (it : Option Bytes) (lines : List LineView) :
    (query.sortedBy sorting).findLines log it lines = query.findLines log it lines := by
  induction lines with
  | nil => rfl
  | cons line lines ih =>
    simp only [findLines, ih]
    rfl

@[simp] theorem sortedBy_linesFound (sorting : TimeSort) :
    (query.sortedBy sorting).linesFound = query.linesFound := by
  funext log
  simp only [linesFound, sortedBy_findLines]
  rfl

@[simp] theorem sortedBy_entries (sorting : TimeSort) (logs : List Log) :
    (query.sortedBy sorting).entries logs = query.entries logs := by
  simp only [entries, sortedBy_linesFound]

variable {logs : List Log} {arranged : List FoundEntry}

theorem entries_found : (query.entries logs).map FoundEntry.found = logs.flatMap query.linesFound := by
  have each (log : Log × Nat) :
      ((query.linesFound log.1).map (FoundEntry.mk log.2)).map FoundEntry.found = query.linesFound log.1 := by
    simp [List.map_map, Function.comp_def]
  simp only [entries, List.map_flatMap, each]
  rw [← List.flatMap_map Prod.fst, List.zipIdx_map_fst]

theorem mem_entries {entry : FoundEntry} :
    entry ∈ query.entries logs ↔
      ∃ log, logs[entry.source]? = some log ∧ entry.found ∈ query.linesFound log := by
  obtain ⟨source, found⟩ := entry
  simp only [entries, List.mem_flatMap, List.mem_map, FoundEntry.mk.injEq, Prod.exists,
    List.mem_zipIdx_iff_getElem?]
  constructor
  · rintro ⟨log, position, there, line, member, rfl, rfl⟩
    exact ⟨log, there, member⟩
  · rintro ⟨log, there, member⟩
    exact ⟨log, source, there, found, member, rfl, rfl⟩

theorem mem_entries_of_mem {log : Log} {source : Nat} (there : logs[source]? = some log) {found : FoundLine}
    (member : found ∈ query.linesFound log) : ⟨source, found⟩ ∈ query.entries logs :=
  mem_entries.mpr ⟨log, there, member⟩

/-- Every line found carries the name of the channel its log is of. -/
theorem entry_channel (known : ∀ log ∈ logs, log.channelName ∈ query.channels) {entry : FoundEntry}
    (member : entry ∈ query.entries logs) :
    ∃ log, logs[entry.source]? = some log ∧ entry.found.channel = some log.channelName := by
  obtain ⟨log, there, found⟩ := mem_entries.mp member
  exact ⟨log, there, Finding.mem_linesFound (known log (List.mem_of_getElem? there)) found⟩

theorem dumpLine_said {found : FoundLine} {channelName : Bytes} (channel : found.channel = some channelName) :
    query.dumpLine found = .ok (query.showTime found.line.time ++ ascii " #" ++ channelName ++ ascii " " ++
      found.said ++ ascii "\n") := by
  simp only [dumpLine, channel, FoundLine.said, List.append_assoc]

/-- Lines of one log and one time differ in the dump just by what stands behind the channel. -/
theorem dumpLine_eq_iff {a b : FoundLine} {channelName : Bytes} (first : a.channel = some channelName)
    (second : b.channel = some channelName) (same : a.line.time = b.line.time) :
    query.dumpLine a = query.dumpLine b ↔ a.said = b.said := by
  rw [dumpLine_said first, dumpLine_said second, same]
  simp

/-- Where lines of one log and one time print alike, the dump reads as if the sort had kept them. -/
theorem exists_dumps (known : ∀ log ∈ logs, log.channelName ∈ query.channels)
    (alike : ∀ a ∈ query.entries logs, ∀ b ∈ query.entries logs, a.tie = b.tie →
      query.dumpLine a.found = query.dumpLine b.found) :
    ∃ arranged, query.Dumps logs arranged := by
  have perm : (query.sorting.sort (logs.flatMap query.linesFound)).Perm
      ((query.entries logs).map FoundEntry.found) := by
    rw [entries_found]
    exact query.sorting.perm _
  -- The entries as the sort has put them, and then with the ties as they were.
  obtain ⟨put, sorted, puts⟩ := exists_keeps perm
  obtain ⟨arranged, ties, printed, keeps⟩ :=
    exists_keeps_printing (fun entry => query.dumpLine entry.found) puts.perm alike
  have lines : (query.sorting.sort (logs.flatMap query.linesFound)).map query.dumpLine =
      arranged.map fun entry => query.dumpLine entry.found := by
    rw [printed, ← sorted, List.map_map]
    rfl
  have times : (arranged.map fun entry => entry.found.line.time) =
      (query.sorting.sort (logs.flatMap query.linesFound)).map fun found => found.line.time := by
    have second := congrArg (List.map Prod.snd) ties
    rw [List.map_map, List.map_map] at second
    rw [← sorted, List.map_map]
    exact second
  have own : ∀ entry ∈ arranged, ∃ log, logs[entry.source]? = some log ∧
      entry.found.channel = some log.channelName :=
    fun entry member => entry_channel known (keeps.perm.mem_iff.mp member)
  have each : ∀ found ∈ query.sorting.sort (logs.flatMap query.linesFound),
      ∃ text, query.dumpLine found = .ok text := by
    intro found member
    rw [← sorted] at member
    obtain ⟨entry, inside, rfl⟩ := List.mem_map.mp member
    obtain ⟨log, -, channel⟩ := entry_channel known (puts.perm.mem_iff.mp inside)
    exact ⟨_, dumpLine_said channel⟩
  obtain ⟨texts, dumped⟩ := mapM_ok each
  refine ⟨arranged, own, ?_, keeps, lines, texts, ?_, ?_⟩
  · have increasing := List.pairwise_map.mpr (query.sorting.sorted (logs.flatMap query.linesFound))
    rw [← times] at increasing
    exact List.pairwise_map.mp increasing
  · rw [← lines]
    exact map_of_mapM dumped
  · rw [dumpFunc, dumped]
    rfl

/-- The times of a dump are those of the sorted lines. -/
theorem Dumps.times_eq (dumps : query.Dumps logs arranged) :
    (arranged.map fun entry => entry.found.line.time) =
      (query.sorting.sort (logs.flatMap query.linesFound)).map fun found => found.line.time := by
  have perm : (arranged.map FoundEntry.found).Perm (query.sorting.sort (logs.flatMap query.linesFound)) := by
    refine (dumps.kept.perm.map _).trans ?_
    rw [entries_found]
    exact (query.sorting.perm _).symm
  have times := perm.map fun found => found.line.time
  rw [List.map_map] at times
  exact times.eq_of_pairwise (fun _ _ _ _ => Int.le_antisymm) (List.pairwise_map.mpr dumps.increasing)
    (List.pairwise_map.mpr (query.sorting.sorted _))

/-- What the sort keeps between times and printed lines holds along the arrangement too. -/
theorem Dumps.pairwise {relation : TimePoint × Except Abort Bytes → TimePoint × Except Abort Bytes → Prop}
    (dumps : query.Dumps logs arranged)
    (ordered : (query.sorting.sort (logs.flatMap query.linesFound)).Pairwise fun a b =>
      relation (a.line.time, query.dumpLine a) (b.line.time, query.dumpLine b)) :
    arranged.Pairwise fun a b =>
      relation (a.found.line.time, query.dumpLine a.found) (b.found.line.time, query.dumpLine b.found) := by
  have pairs := congrArg₂ List.zip dumps.times_eq dumps.printed.symm
  rw [List.zip_map', List.zip_map'] at pairs
  have sorted := List.pairwise_map.mpr ordered
  rw [← pairs] at sorted
  exact List.pairwise_map.mp sorted

/-- A sort that puts the lines with the text of the later one first shows a difference between ties. -/
theorem alike_of_dumpsInOrder (inOrder : query.DumpsInOrder logs) :
    (query.entries logs).Pairwise fun a b => a.tie = b.tie → query.dumpLine a.found = query.dumpLine b.found := by
  refine List.pairwise_iff_forall_sublist.mpr fun {a b} earlier tied => ?_
  let later := query.dumpLine b.found
  let chosen (line : FoundLine) : Bool := decide (query.dumpLine line = later)
  let relation (p q : TimePoint × Except Abort Bytes) : Prop :=
    p.1 < q.1 ∨ p.1 = q.1 ∧ (q.2 = later → p.2 = later)
  obtain ⟨arranged, dumps⟩ := inOrder (.choosing chosen)
  have sorted : ((TimeSort.choosing chosen).sort (logs.flatMap query.linesFound)).Pairwise fun a b =>
      relation (a.line.time, query.dumpLine a) (b.line.time, query.dumpLine b) := by
    refine (FoundLine.sort_before chosen _).imp fun {x y} before => ?_
    simpa only [FoundLine.Before, chosen, decide_eq_true_eq] using before
  have ordered : arranged.Pairwise fun a b =>
      relation (a.found.line.time, query.dumpLine a.found) (b.found.line.time, query.dumpLine b.found) := by
    apply dumps.pairwise
    rw [sortedBy_linesFound]
    exact sorted
  have kept := dumps.kept
  rw [sortedBy_entries] at kept
  have sameTime : a.found.line.time = b.found.line.time := congrArg Prod.snd tied
  rcases kept.pairwise_ties ordered earlier tied with before | ⟨-, chosenFirst⟩
  · exact absurd sameTime (ne_of_lt before)
  · exact chosenFirst rfl

/-- What an upload dumps: lines of logs whose channels the request names. -/
theorem uploaded_found {job : FindJob} {events : List Finding.Event} {s : LogDownloader FindShared}
    (ran : Transition.run (Finding.step job) (Finding.start job) events = some s)
    (uploads : s.shared.upload ≠ none) :
    ∃ logs : List Log, (∀ log ∈ logs, log.channelName ∈ job.query.channels) ∧
      s.shared.sharedLinesFound = logs.flatMap job.query.linesFound := by
  rcases Finding.run_invariant ran with working | refused
  · obtain ⟨counted, -, searched⟩ := working.counting
    exact ⟨counted, searched.known, searched.found⟩
  · exact absurd refused.refused.noUpload uploads

/-- The dump lists every line found once, under the channel of its log and by time. Lines of one log and one
time stand in the order of the log, whatever the sort does, exactly if such lines read the same. -/
theorem dumpsInOrder_iff (query : FindQuery) (logs : List Log)
    (known : ∀ log ∈ logs, log.channelName ∈ query.channels) :
    query.DumpsInOrder logs ↔ ∀ log ∈ logs, ∀ a ∈ query.linesFound log, ∀ b ∈ query.linesFound log,
      a.line.time = b.line.time → a.said = b.said := by
  constructor
  · intro inOrder log inside a first b second sameTime
    obtain ⟨source, there⟩ := List.mem_iff_getElem?.mp inside
    have reflexive : ∀ entry ∈ query.entries logs, entry.tie = entry.tie →
        query.dumpLine entry.found = query.dumpLine entry.found := fun _ _ _ => rfl
    have symmetric : Std.Symm fun a b : FoundEntry => a.tie = b.tie →
        query.dumpLine a.found = query.dumpLine b.found := ⟨fun _ _ same tied => (same tied.symm).symm⟩
    have tied : (FoundEntry.mk source a).tie = (FoundEntry.mk source b).tie := by
      rw [FoundEntry.tie, FoundEntry.tie, sameTime]
    have alike := (alike_of_dumpsInOrder inOrder).forall_of_forall reflexive
      (mem_entries_of_mem there first) (mem_entries_of_mem there second) tied
    have channel {found : FoundLine} := @Finding.mem_linesFound query log (known log inside) found
    exact (dumpLine_eq_iff (channel first) (channel second) sameTime).mp alike
  · intro alike sorting
    have same : ∀ a ∈ query.entries logs, ∀ b ∈ query.entries logs, a.tie = b.tie →
        query.dumpLine a.found = query.dumpLine b.found := by
      intro a first b second tied
      obtain ⟨log, there, first⟩ := mem_entries.mp first
      obtain ⟨log', there', second⟩ := mem_entries.mp second
      obtain ⟨sources, times⟩ := Prod.ext_iff.mp tied
      have sameSource : a.source = b.source := sources
      rw [sameSource, there', Option.some.injEq] at there
      subst there
      have inside := List.mem_of_getElem? there'
      exact (dumpLine_eq_iff (Finding.mem_linesFound (known _ inside) first)
        (Finding.mem_linesFound (known _ inside) second) times).mpr (alike _ inside _ first _ second times)
    apply exists_dumps
    · exact known
    · rw [sortedBy_entries]
      exact same

/-! One log with two lines of the same second. -/


def sampleLog (second : Bytes) : Except ViewFault Log :=
  Log.ofData sampleQuery.period (ascii "pajlada")
    (ascii "[2019-02-08 12:34:56] #pajlada saiv: hello\n[2019-02-08 12:34:56] #pajlada " ++ second ++
      ascii ": hello\n")
    (LogParsing.gempirLogParser LogParsing.sampleParser)

theorem sampleLog_known {log : Log} (channel : log.channelName = ascii "pajlada") :
    ∀ other ∈ [log], other.channelName ∈ Finding.sampleJob.query.channels := by
  intro other member
  rw [List.mem_singleton.mp member, channel]
  decide

/-- Somebody says the same twice. -/
theorem dumpsInOrder_sample :
    ∃ log, sampleLog (ascii "saiv") = .ok log ∧ (Finding.sampleJob.query.linesFound log).length = 2 ∧
      Finding.sampleJob.query.DumpsInOrder [log] := by
  obtain ⟨log, read, channel, a, b, found, same⟩ :
      ∃ log, sampleLog (ascii "saiv") = .ok log ∧ log.channelName = ascii "pajlada" ∧
        ∃ a b, Finding.sampleJob.query.linesFound log = [a, b] ∧ a.said = b.said := by
    refine ⟨_, rfl, rfl, _, _, rfl, ?_⟩
    decide
  refine ⟨log, read, by rw [found]; rfl, ?_⟩
  refine (dumpsInOrder_iff Finding.sampleJob.query [log] (sampleLog_known channel)).mpr ?_
  intro other member x first y second _
  rw [List.mem_singleton.mp member, found] at first second
  simp only [List.mem_cons, List.not_mem_nil, or_false] at first second
  rcases first with rfl | rfl <;> rcases second with rfl | rfl <;> simp [same]

/-- Two people who write in the same second: the sort may put them the other way round. -/
theorem same_second_swapped :
    ¬ ∀ (query : FindQuery) (logs : List Log), (∀ log ∈ logs, log.channelName ∈ query.channels) →
      query.DumpsInOrder logs := by
  intro ordered
  obtain ⟨log, -, channel, a, b, found, sameTime, differ⟩ :
      ∃ log, sampleLog (ascii "forsen") = .ok log ∧ log.channelName = ascii "pajlada" ∧
        ∃ a b, Finding.sampleJob.query.linesFound log = [a, b] ∧ a.line.time = b.line.time ∧
          Finding.sampleJob.query.dumpLine a ≠ Finding.sampleJob.query.dumpLine b := by
    refine ⟨_, rfl, rfl, _, _, rfl, rfl, ?_⟩
    decide
  have alike := alike_of_dumpsInOrder (ordered Finding.sampleJob.query [log] (sampleLog_known channel))
  have both : Finding.sampleJob.query.entries [log] = [⟨0, a⟩, ⟨0, b⟩] := by
    simp [entries, found]
  rw [both, List.pairwise_cons] at alike
  have same := alike.1 ⟨0, b⟩ List.mem_cons_self
  exact differ (same (by rw [FoundEntry.tie, FoundEntry.tie, sameTime]))

end FindQuery

end SaivBot
