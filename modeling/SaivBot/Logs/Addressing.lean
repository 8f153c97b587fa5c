import Mathlib.Data.Set.Function
import SaivBot.Logs.Forms
import SaivBot.Logs.Hits

/-! What the path of a request tells the service.

The service is sent a path and nothing else, so the path has to name the log. It does,
as long as the channel's name does not hold the byte that ends it there.
-/

set_option autoImplicit false

namespace SaivBot
open Civil Grouping
open LogParsing (cut_unique)

/-- A log of either kind. -/
inductive LogName where
  | userMonth (channel user : Bytes) (ym : YearMonth)
  | day (channel : Bytes) (date : Date)

def slash : Byte := 47

namespace LogService

/-- What ends a channel's name in a path. -/
def channelEnd : LogService → Byte
  | .gempirLog => slash
  | .overrustleLog => Byte.space

def path : LogService → LogName → Bytes
  | .gempirLog, .userMonth channel user ym => LogRequest.createGempirUserTarget channel user ym
  | .gempirLog, .day channel date => LogRequest.createGempirChannelTarget channel date
  | .overrustleLog, .userMonth channel user ym => LogRequest.createOverrustleUserTarget channel user ym
  | .overrustleLog, .day channel date => LogRequest.createOverrustleChannelTarget channel date

/-- The channel's name ends where the path ends it, and the month is one of the twelve. -/
def Names (service : LogService) : LogName → Prop
  | .userMonth channel _ ym => service.channelEnd ∉ channel ∧ ym.Valid
  | .day channel date => service.channelEnd ∉ channel ∧ date.yearMonth.Valid

end LogService

/-! Texts of numbers and months. -/

/-- A text is cut at the last occurrence of a separator in one way only. -/
theorem cut_last_unique {separator : Byte} {before before' rest rest' : Bytes} (clean : separator ∉ rest)
    (clean' : separator ∉ rest') (same : before ++ separator :: rest = before' ++ separator :: rest') :
    before = before' ∧ rest = rest' := by
  have turned : rest.reverse ++ separator :: before.reverse = rest'.reverse ++ separator :: before'.reverse := by
    simpa using congrArg List.reverse same
  obtain ⟨rests, befores⟩ := cut_unique (by simpa using clean) (by simpa using clean') turned
  exact ⟨List.reverse_injective befores, List.reverse_injective rests⟩

theorem decimal_injective : Function.Injective decimal := by
  intro n n' same
  rw [← Stamp.value_decimal n, same, Stamp.value_decimal]

theorem padded_injective (width : Nat) : Function.Injective (padded width) := by
  intro n n' same
  rw [← Stamp.value_padded width n, same, Stamp.value_padded]

theorem mem_decimalInt {n : Int} {c : Byte} (member : c ∈ decimalInt n) : IsDigit c ∨ c = 45 := by
  unfold decimalInt at member
  split at member
  · rcases List.mem_cons.mp member with sign | digit
    · exact .inr sign
    · exact .inl (isDigit_of_mem_decimal digit)
  · exact .inl (isDigit_of_mem_decimal member)

theorem slash_not_mem_decimal (n : Nat) : slash ∉ decimal n :=
  fun member => absurd (isDigit_of_mem_decimal member) (by decide)

theorem slash_not_mem_decimalInt (n : Int) : slash ∉ decimalInt n := by
  intro member
  rcases mem_decimalInt member with digit | sign
  · exact absurd digit (by decide)
  · exact absurd sign (by decide)

theorem decimalInt_injective : Function.Injective decimalInt := by
  have unsigned (n : Nat) (rest : Bytes) : 45 :: rest ≠ decimal n := by
    intro same
    have first : (45 : Byte) ∈ decimal n := same ▸ List.mem_cons_self
    exact absurd (isDigit_of_mem_decimal first) (by decide)
  intro n n' same
  unfold decimalInt at same
  split at same <;> split at same
  · have sizes := decimal_injective (List.cons.inj same).2
    omega
  · exact absurd same (unsigned _ _)
  · exact absurd same.symm (unsigned _ _)
  · have sizes := decimal_injective same
    omega

/-- A user's log has a name where a channel's has a number. -/
theorem user_ne_decimalInt (n : Int) : ascii "user" ≠ decimalInt n := by
  intro same
  have first : (117 : Byte) ∈ decimalInt n := same ▸ (by decide)
  rcases mem_decimalInt first with digit | sign
  · exact absurd digit (by decide)
  · exact absurd sign (by decide)

namespace TimeDetail

theorem monthToString_injOn : ∀ month ≤ 12, ∀ month' ≤ 12, 1 ≤ month → 1 ≤ month' →
    monthToString month = monthToString month' → month = month' := by decide

theorem space_not_mem_monthToString : ∀ month ≤ 12, 1 ≤ month → Byte.space ∉ monthToString month := by decide

theorem mem_formatDate {date : Date} {c : Byte} (member : c ∈ formatDate date) : IsDigit c ∨ c = 45 := by
  have digits : ∀ {width n : Nat}, c ∈ padded width n → IsDigit c := isDigit_of_mem_padded
  simp only [formatDate, List.mem_append, List.mem_cons] at member
  rcases member with ((sign | year) | dash | month) | dash | day
  · split at sign
    · exact .inr (List.mem_singleton.mp sign)
    · exact absurd sign List.not_mem_nil
  · exact .inl (digits year)
  · exact .inr dash
  · exact .inl (digits month)
  · exact .inr dash
  · exact .inl (digits day)

theorem userlogs_ne_formatDate (user : Bytes) (date : Date) : ascii "userlogs/" ++ user ≠ formatDate date := by
  intro same
  have first : (117 : Byte) ∈ formatDate date := same ▸ List.mem_append_left user (by decide)
  rcases mem_formatDate first with digit | sign
  · exact absurd digit (by decide)
  · exact absurd sign (by decide)

/-- Behind the year and the month a date differs in its day. -/
theorem formatDate_day {date date' : Date} (ym : date.yearMonth = date'.yearMonth)
    (same : formatDate date = formatDate date') : date = date' := by
  cases date
  cases date'
  obtain ⟨rfl, rfl⟩ := YearMonth.mk.inj ym
  simp only [formatDate, List.append_cancel_left_eq, List.cons.injEq, true_and] at same
  rw [padded_injective 2 same]

end TimeDetail

/-! The paths of the two services. -/

namespace LogRequest

theorem createGempirUserTarget_eq (channel user : Bytes) (ym : YearMonth) :
    createGempirUserTarget channel user ym =
      ascii "/channel/" ++ (channel ++ slash ::
        (ascii "user" ++ slash :: ((user ++ slash :: decimalInt ym.year) ++ slash :: decimal ym.month))) := by
  have literals : ascii "/user/" = slash :: (ascii "user" ++ [slash]) ∧ ascii "/" = [slash] := by decide
  simp [createGempirUserTarget, literals]

theorem createGempirChannelTarget_eq (channel : Bytes) (date : Date) :
    createGempirChannelTarget channel date =
      ascii "/channel/" ++ (channel ++ slash ::
        (decimalInt date.year ++ slash :: (decimal date.month ++ slash :: decimal date.day))) := by
  have literal : ascii "/" = [slash] := by decide
  simp [createGempirChannelTarget, literal]

/-- Both kinds of logs of a channel and a month are in one directory. -/
def overrustleFile (channel : Bytes) (ym : YearMonth) (file : Bytes) : Bytes :=
  ascii "/" ++ (channel ++ Byte.space :: (ascii "chatlog/" ++
    (TimeDetail.monthToString ym.month ++ Byte.space :: (decimalInt ym.year ++ slash :: file))))

theorem createOverrustleUserTarget_eq (channel user : Bytes) (ym : YearMonth) :
    createOverrustleUserTarget channel user ym =
      overrustleFile channel ym ((ascii "userlogs/" ++ user) ++ ascii ".txt") := by
  have literals : ascii " chatlog/" = Byte.space :: ascii "chatlog/" ∧ ascii " " = [Byte.space] ∧
      ascii "/userlogs/" = slash :: ascii "userlogs/" := by decide
  simp [createOverrustleUserTarget, overrustleFile, literals]

theorem createOverrustleChannelTarget_eq (channel : Bytes) (date : Date) :
    createOverrustleChannelTarget channel date =
      overrustleFile channel date.yearMonth (TimeDetail.formatDate date ++ ascii ".txt") := by
  have literals : ascii " chatlog/" = Byte.space :: ascii "chatlog/" ∧ ascii " " = [Byte.space] ∧
      ascii "/" = [slash] := by decide
  simp [createOverrustleChannelTarget, overrustleFile, literals, Date.yearMonth]

theorem overrustleFile_cut {channel channel' : Bytes} {ym ym' : YearMonth} {file file' : Bytes}
    (clean : Byte.space ∉ channel) (clean' : Byte.space ∉ channel') (valid : ym.Valid) (valid' : ym'.Valid)
    (same : overrustleFile channel ym file = overrustleFile channel' ym' file') :
    channel = channel' ∧ ym = ym' ∧ file = file' := by
  obtain ⟨channels, same⟩ := cut_unique clean clean' (List.append_cancel_left same)
  obtain ⟨months, same⟩ := cut_unique (TimeDetail.space_not_mem_monthToString _ valid.2 valid.1)
    (TimeDetail.space_not_mem_monthToString _ valid'.2 valid'.1) (List.append_cancel_left same)
  obtain ⟨years, files⟩ := cut_unique (slash_not_mem_decimalInt _) (slash_not_mem_decimalInt _) same
  have month := TimeDetail.monthToString_injOn _ valid.2 _ valid'.2 valid.1 valid'.1 months
  have year := decimalInt_injective years
  cases ym
  cases ym'
  exact ⟨channels, by rw [YearMonth.mk.injEq]; exact ⟨year, month⟩, files⟩

/-- Without that, a slash moves from the channel's name into the user's. -/
theorem createGempirUserTarget_ambiguous (channel middle user : Bytes) (ym : YearMonth) :
    createGempirUserTarget (channel ++ ascii "/user/" ++ middle) user ym =
      createGempirUserTarget channel (middle ++ ascii "/user/" ++ user) ym := by
  simp [createGempirUserTarget]

end LogRequest

namespace LogService

open LogRequest

/-- No path is the path of two logs. -/
theorem path_injective {service : LogService} {name name' : LogName} (names : service.Names name)
    (names' : service.Names name') (same : service.path name = service.path name') : name = name' := by
  cases service with
  | gempirLog =>
    cases name with
    | userMonth channel user ym =>
      cases name' with
      | userMonth channel' user' ym' =>
        simp only [path, createGempirUserTarget_eq] at same
        obtain ⟨rfl, behind⟩ := cut_unique names.1 names'.1 (List.append_cancel_left same)
        -- The user's name may hold a slash: the month and the year are cut off at the end.
        obtain ⟨front, months⟩ := cut_last_unique (slash_not_mem_decimal _) (slash_not_mem_decimal _)
          (List.cons.inj (List.append_cancel_left behind)).2
        obtain ⟨rfl, years⟩ := cut_last_unique (slash_not_mem_decimalInt _) (slash_not_mem_decimalInt _) front
        have month := decimal_injective months
        have year := decimalInt_injective years
        cases ym
        cases ym'
        rw [LogName.userMonth.injEq, YearMonth.mk.injEq]
        exact ⟨rfl, rfl, year, month⟩
      | day channel' date' =>
        simp only [path, createGempirUserTarget_eq, createGempirChannelTarget_eq] at same
        obtain ⟨-, behind⟩ := cut_unique names.1 names'.1 (List.append_cancel_left same)
        exact absurd (cut_unique (by decide) (slash_not_mem_decimalInt _) behind).1 (user_ne_decimalInt _)
    | day channel date =>
      cases name' with
      | userMonth channel' user' ym' =>
        simp only [path, createGempirUserTarget_eq, createGempirChannelTarget_eq] at same
        obtain ⟨-, behind⟩ := cut_unique names.1 names'.1 (List.append_cancel_left same)
        exact absurd (cut_unique (by decide) (slash_not_mem_decimalInt _) behind.symm).1 (user_ne_decimalInt _)
      | day channel' date' =>
        simp only [path, createGempirChannelTarget_eq] at same
        obtain ⟨rfl, numbers⟩ := cut_unique names.1 names'.1 (List.append_cancel_left same)
        obtain ⟨years, behind⟩ := cut_unique (slash_not_mem_decimalInt _) (slash_not_mem_decimalInt _) numbers
        obtain ⟨months, days⟩ := cut_unique (slash_not_mem_decimal _) (slash_not_mem_decimal _) behind
        have year := decimalInt_injective years
        have month := decimal_injective months
        have day := decimal_injective days
        cases date
        cases date'
        rw [LogName.day.injEq, Date.mk.injEq]
        exact ⟨rfl, year, month, day⟩
  | overrustleLog =>
    cases name with
    | userMonth channel user ym =>
      cases name' with
      | userMonth channel' user' ym' =>
        simp only [path, createOverrustleUserTarget_eq] at same
        obtain ⟨rfl, rfl, files⟩ := overrustleFile_cut names.1 names'.1 names.2 names'.2 same
        rw [List.append_cancel_left (List.append_cancel_right files)]
      | day channel' date' =>
        simp only [path, createOverrustleUserTarget_eq, createOverrustleChannelTarget_eq] at same
        obtain ⟨-, -, files⟩ := overrustleFile_cut names.1 names'.1 names.2 names'.2 same
        exact absurd (List.append_cancel_right files) (TimeDetail.userlogs_ne_formatDate _ _)
    | day channel date =>
      cases name' with
      | userMonth channel' user' ym' =>
        simp only [path, createOverrustleUserTarget_eq, createOverrustleChannelTarget_eq] at same
        obtain ⟨-, -, files⟩ := overrustleFile_cut names.1 names'.1 names.2 names'.2 same
        exact absurd (List.append_cancel_right files).symm (TimeDetail.userlogs_ne_formatDate _ _)
      | day channel' date' =>
        simp only [path, createOverrustleChannelTarget_eq] at same
        obtain ⟨rfl, months, files⟩ := overrustleFile_cut names.1 names'.1 names.2 names'.2 same
        rw [TimeDetail.formatDate_day months (List.append_cancel_right files)]

/-! A service that sees the path alone. -/

variable (calendar : Calendar) (date : DateParser) (service : LogService)

/-- A line in the service's own format. -/
def text : LogService → ChatEntry → Bytes
  | .gempirLog => LogParsing.gempirText calendar
  | .overrustleLog => LogParsing.overrustleText calendar

/-- The time in that line is read back. -/
def ReadsTime (entry : ChatEntry) : LogService → Prop
  | .gempirLog =>
    TimeDetail.parseGempirTimeString date (TimeDetail.formatSeconds calendar entry.time) = some entry.time
  | .overrustleLog =>
    TimeDetail.parseOverrustleTimeString date (TimeDetail.formatSeconds calendar entry.time ++ ascii " UTC") =
      some entry.time

instance (entry : ChatEntry) : Decidable (service.ReadsTime calendar date entry) :=
  match service with
  | .gempirLog => inferInstanceAs (Decidable (_ = _))
  | .overrustleLog => inferInstanceAs (Decidable (_ = _))

end LogService

namespace LogName

def channel : LogName → Bytes
  | .userMonth channel _ _ => channel
  | .day channel _ => channel

/-- The author, where the log has only one. -/
def user : LogName → Bytes
  | .userMonth _ user _ => user
  | .day _ _ => []

instance : Nonempty LogName := ⟨.day [] ⟨1970, 1, 1⟩⟩

/-- The lines that belong into a log. -/
def selects (calendar : Calendar) : LogName → ChatLine → Bool
  | .userMonth channel user ym => LogRequest.ofUserMonth calendar channel user ym
  | .day channel date => LogRequest.ofDay calendar channel date

/-- The lines of a history that are in the log. -/
def entries (calendar : Calendar) (history : List ChatEntry) (name : LogName) : List ChatEntry :=
  history.filter fun entry => name.selects calendar entry.toChatLine

end LogName

namespace LogService

open LogRequest

variable (calendar : Calendar) (date : DateParser) (service : LogService)

/-- Whatever the path says, the log it names is printed. -/
noncomputable def serve (history : List ChatEntry) (logTarget : Bytes) : Bytes :=
  LogParsing.render (service.text calendar)
    ((Function.invFunOn service.path {name | service.Names name} logTarget).entries calendar history)

variable {calendar date service} {history : List ChatEntry}

theorem serve_path {name : LogName} (names : service.Names name) :
    serve calendar service history (service.path name) =
      LogParsing.render (service.text calendar) (name.entries calendar history) := by
  have injective : Set.InjOn service.path {name | service.Names name} :=
    fun _ names _ names' same => path_injective names names' same
  rw [serve, injective.leftInvOn_invFunOn names]

theorem overrustleText_readable (calendar : Calendar) (date : DateParser) (entry : ChatEntry) :
    LogParsing.OverrustleReadable date (LogParsing.overrustleText calendar entry) := by
  have opening : ascii "[" = [91] := by decide
  have literals : ascii "] " = [LogParsing.closingBracket, Byte.space] ∧
      ascii " UTC] " = ascii " UTC" ++ ascii "] " ∧ ascii ": " = [Byte.colon, Byte.space] := by decide
  have absent : LogParsing.closingBracket ∉
      ascii "[" ++ TimeDetail.formatSeconds calendar entry.time ++ ascii " UTC" := by
    rw [opening]
    simpa using ⟨by decide, (LogParsing.stamp_clean entry.time).1, by decide⟩
  have split : LogParsing.overrustleText calendar entry =
      ascii "[" ++ TimeDetail.formatSeconds calendar entry.time ++ ascii " UTC" ++ ascii "] " ++
        ((entry.author ++ [Byte.colon]) ++ Byte.space :: entry.message) := by
    rw [LogParsing.overrustleText, literals.2.1, literals.2.2]
    simp
  have stamped : LogParsing.StampParts (LogParsing.overrustleText calendar entry)
      (ascii "[" ++ TimeDetail.formatSeconds calendar entry.time ++ ascii " UTC")
      ((entry.author ++ [Byte.colon]) ++ Byte.space :: entry.message) := by
    refine ⟨split, ?_⟩
    rw [split, literals.1, StringView.findText_append absent]
  have noSpace : Byte.space ∉ entry.author ++ [Byte.colon] := by
    simpa using ⟨entry.authorClean.1, by decide⟩
  intro stamp word rest parts
  obtain ⟨rfl, behind⟩ := parts.stamped.unique stamped
  obtain ⟨rfl, -⟩ := cut_unique parts.wordClean noSpace behind
  exact .inr ⟨by simp [opening], fun nothing => absurd nothing (by simp)⟩

theorem cutsInside_text (calendar : Calendar) (date : DateParser) (service : LogService) (entries : List ChatEntry) :
    LogParsing.CutsInside (service.parser date) (LogParsing.render (service.text calendar) entries) := by
  cases service with
  | gempirLog => exact cutsInside_render calendar date entries
  | overrustleLog =>
    refine LogParsing.overrustleLogParser_cutsInside_iff.mpr fun line member => ?_
    rw [text, terminatedLines_render entries fun _ _ => LogParsing.overrustleText_clean] at member
    obtain ⟨entry, -, rfl⟩ := List.mem_map.mp member
    exact overrustleText_readable calendar date entry

theorem recovers_text {entries : List ChatEntry} (reads : ∀ entry ∈ entries, service.ReadsTime calendar date entry) :
    LogParsing.Recovers (service.parser date) (LogParsing.render (service.text calendar) entries) entries := by
  cases service with
  | gempirLog =>
    exact LogParsing.parseLog_render (fun entry member => LogParsing.gempirLine_reads (reads entry member))
      (by decide) (by decide)
  | overrustleLog =>
    exact LogParsing.parseLog_render (fun entry member => LogParsing.overrustleLine_reads (reads entry member))
      (by decide) (by decide)

/-- A log that is printed shows its lines. -/
theorem serve_shows {name : LogName} {target : Target} (names : service.Names name)
    (asked : target.logTarget = service.path name) (reads : ∀ entry ∈ history, service.ReadsTime calendar date entry) :
    ShowsInside (service.parser date) target (serve calendar service history target.logTarget)
      ((history.map (·.toChatLine)).filter (name.selects calendar)) := by
  have lines : (history.map (·.toChatLine)).filter (name.selects calendar) =
      (name.entries calendar history).map (·.toChatLine) := List.filter_map
  rw [asked, serve_path names, lines]
  exact ⟨shows_of_recovers (recovers_text fun entry member => reads entry (List.mem_filter.mp member).1),
    cutsInside_text calendar date service _⟩

end LogService

namespace LogRequest

variable {calendar : Calendar} {date : DateParser} {service : LogService} {history : List ChatEntry}
  {channels users : List Bytes} {period : TimeDetail.TimePeriod}

theorem userTarget_path (channel user : Bytes) (ym : YearMonth) :
    (userTarget calendar service channel user ym).logTarget = service.path (.userMonth channel user ym) := by
  cases service <;> rfl

theorem channelTarget_path (channel : Bytes) (day : Date) :
    (channelTarget calendar service channel day).logTarget = service.path (.day channel day) := by
  cases service <;> rfl

theorem filed_serve (reads : ∀ entry ∈ history, service.ReadsTime calendar date entry)
    (named : ∀ channel ∈ channels, service.channelEnd ∉ channel) (allUsers : Bool) :
    Filed calendar date service period channels users (history.map (·.toChatLine))
      (fun target => service.serve calendar history target.logTarget) allUsers := by
  intro target selected stands
  cases stands with
  | @userMonth channel user ym member _ touched =>
    have names : service.Names (.userMonth channel user ym) := ⟨named channel member, touched.1⟩
    exact LogService.serve_shows names (userTarget_path channel user ym) reads
  | @day channel day member touched =>
    have names : service.Names (.day channel day) := ⟨named channel member, touched.1.1⟩
    exact LogService.serve_shows names (channelTarget_path channel day) reads

/-! No log is asked for twice. -/

/-- The logs a request is for, in its order. -/
theorem targets_names {request : LogRequest} {allUsers : Bool} (channelsNodup : channels.Nodup)
    (usersNodup : users.Nodup)
    (filled : fillLogRequestTargetFields calendar date service allUsers period channels users = some request)
    (named : ∀ channel ∈ channels, service.channelEnd ∉ channel) :
    ∃ names : List LogName, request.targets.map Target.logTarget = names.map service.path ∧ names.Nodup ∧
      ∀ name ∈ names, service.Names name := by
  cases allUsers with
  | false =>
    obtain ⟨months, listed, members, nodup⟩ := periodToYearMonths_spec calendar period
    obtain ⟨_, same, -, targets⟩ := fill_users_targets date service listed channels users
    obtain rfl := Option.some.inj (filled.symm.trans same)
    refine ⟨channels.flatMap fun channel => users.flatMap fun user => months.map (.userMonth channel user), ?_, ?_, ?_⟩
    · rw [targets]
      simp only [List.map_flatMap, List.map_map, Function.comp_def, userTarget_path]
    · refine nodup_flatMap_of_key LogName.channel channelsNodup (fun channel _ => ?_) ?_
      · refine nodup_flatMap_of_key LogName.user usersNodup (fun user _ => ?_) ?_
        · exact nodup.map fun _ _ same => (LogName.userMonth.inj same).2.2
        · simp [LogName.user]
      · intro channel name member
        simp only [List.mem_flatMap, List.mem_map] at member
        obtain ⟨user, -, ym, -, rfl⟩ := member
        rfl
    · intro name member
      simp only [List.mem_flatMap, List.mem_map] at member
      obtain ⟨channel, asked, user, -, ym, month, rfl⟩ := member
      exact ⟨named channel asked, ((members ym).mp month).1⟩
  | true =>
    obtain ⟨days, listed, members, nodup⟩ := periodToDates_spec calendar period
    obtain ⟨_, same, -, targets⟩ := fill_days_targets date service listed channels users
    obtain rfl := Option.some.inj (filled.symm.trans same)
    refine ⟨channels.flatMap fun channel => days.map (.day channel), ?_, ?_, ?_⟩
    · rw [targets]
      simp only [List.map_flatMap, List.map_map, Function.comp_def, channelTarget_path]
    · refine nodup_flatMap_of_key LogName.channel channelsNodup (fun channel _ => ?_) ?_
      · exact nodup.map fun _ _ same => (LogName.day.inj same).2
      · simp [LogName.channel]
    · intro name member
      simp only [List.mem_flatMap, List.mem_map] at member
      obtain ⟨channel, asked, day, touched, rfl⟩ := member
      exact ⟨named channel asked, ((members day).mp touched).1.1⟩

/-- In a request no path comes twice. And one service that is told the path alone can answer every request
from its history, so that a query counts the lines it is about, each once. -/
theorem served_by_path (calendar : Calendar) (date : DateParser) (service : LogService) (history : List ChatEntry)
    (reads : ∀ entry ∈ history, service.ReadsTime calendar date entry) :
    (∀ period channels users allUsers request, (∀ channel ∈ channels, service.channelEnd ∉ channel) →
        channels.Nodup → users.Nodup →
        fillLogRequestTargetFields calendar date service allUsers period channels users = some request →
        (request.targets.map Target.logTarget).Nodup) ∧
      ∃ serve : Bytes → Bytes, ∀ channels users allUsers, (∀ channel ∈ channels, service.channelEnd ∉ channel) →
        (∀ period, Filed calendar date service period channels users (history.map (·.toChatLine))
          (fun target => serve target.logTarget) allUsers) ∧
        ∀ (query : CountQuery) (count : Bytes → Nat), query.CountsOn count (history.map (·.toChatLine)) →
          Convertible calendar query.period → channels.Nodup → users.Nodup →
          CountsTo calendar date service query channels users (fun target => serve target.logTarget) allUsers
            (total (fun line => count line.message) (history.map (·.toChatLine))
              (wanted query.period channels users allUsers) % sizeLimit) := by
  constructor
  · intro period channels users allUsers request named channelsNodup usersNodup filled
    obtain ⟨names, same, nodup, each⟩ := targets_names channelsNodup usersNodup filled named
    rw [same]
    exact nodup.map_on fun name member name' member' paths =>
      LogService.path_injective (each name member) (each name' member') paths
  · refine ⟨service.serve calendar history, fun channels users allUsers named => ?_⟩
    have filed : ∀ period, Filed calendar date service period channels users (history.map (·.toChatLine))
        (fun target => service.serve calendar history target.logTarget) allUsers :=
      fun _ => filed_serve reads named allUsers
    refine ⟨filed, fun query count counts convertible channelsNodup usersNodup => ?_⟩
    exact countsTo_total _ counts convertible channelsNodup usersNodup fun target selected stands =>
      (filed query.period target selected stands).1

theorem served_by_path_sample :
    (∀ period channels users allUsers request, (∀ channel ∈ channels, slash ∉ channel) →
        channels.Nodup → users.Nodup →
        fillLogRequestTargetFields gregorian LogParsing.sampleParser .gempirLog allUsers period channels users =
          some request →
        (request.targets.map Target.logTarget).Nodup) ∧
      ∃ serve : Bytes → Bytes, Filed gregorian LogParsing.sampleParser .gempirLog sampleQuery.period sampleChannels
        sampleUsers sampleHistory (fun target => serve target.logTarget) false := by
  obtain ⟨distinct, serve, answers⟩ :=
    served_by_path gregorian LogParsing.sampleParser .gempirLog LogParsing.sampleEntries (by decide)
  exact ⟨distinct, serve, (answers sampleChannels sampleUsers false (by decide)).1 sampleQuery.period⟩

end LogRequest
end SaivBot
