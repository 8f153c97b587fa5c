import SaivBot.Message.Totality

/-! The origin `nick!user@host` of a line.

`parseImplementation` takes `substr(1, space)`, a count where an end position was
meant, so the view handed to the field cutter ends one byte late, on the space.
The last field of every shape keeps that byte.
-/

set_option autoImplicit false

namespace SaivBot
open StringView

/-- A nick, user or host: it contains no separator of the origin. -/
structure IsName (name : Bytes) : Prop where
  nonempty : name ≠ []
  noSpace : Byte.space ∉ name
  noExclamation : Byte.exclamation ∉ name
  noAt : Byte.commercialAt ∉ name

namespace Origin

/-- `nick!user@host`. -/
def full (nick user host : Bytes) : Bytes :=
  nick ++ Byte.exclamation :: user ++ Byte.commercialAt :: host

/-- `nick@host`. -/
def short (nick host : Bytes) : Bytes := nick ++ Byte.commercialAt :: host

def line (origin rest : Bytes) : Bytes := Byte.colon :: origin ++ Byte.space :: rest

/-- Parsing the line reports exactly these three fields. -/
def Reports (received nick user host : Bytes) : Prop :=
  ∀ time, ∃ msg, IRCMessage.ofLine time received = .ok msg ∧
    msg.getNick = nick ∧ msg.getUser = user ∧ msg.getHost = host

/-- All three shapes of an origin are reported exactly. -/
structure Exact (nick user host rest : Bytes) : Prop where
  full : Reports (line (full nick user host) rest) nick user host
  short : Reports (line (short nick host) rest) nick [] host
  bare : Reports (line nick rest) nick [] []

theorem misses {p : Byte → Bool} {c : Byte} (only : ∀ b, p b = true → b = c) {name : Bytes}
    (absent : c ∉ name) : ∀ b ∈ name, p b = false := by
  intro b member
  by_contra hit
  rw [Bool.not_eq_false] at hit
  exact absent (only b hit ▸ member)

theorem findAt_append {before : Bytes} (absent : Byte.commercialAt ∉ before) (rest : Bytes) :
    findChar IRCMessage.isAt (before ++ Byte.commercialAt :: rest) = some before.length :=
  findChar_append (misses (by simp [IRCMessage.isAt]) absent) rfl rest

theorem findExclamation_append {before : Bytes} (absent : Byte.exclamation ∉ before) (rest : Bytes) :
    findChar IRCMessage.isExclamation (before ++ Byte.exclamation :: rest) = some before.length :=
  findChar_append (misses (by simp [IRCMessage.isExclamation]) absent) rfl rest

/-- The fields depend on the text of the cutter's view only: here the three texts it assigns. -/
structure Cut (mask nick user host : Bytes) : Prop where
  cut : ∀ (msg : IRCMessage) (view : View), msg.userView = none → msg.hostView = none →
    view.Inside msg.data → view.text msg.data = mask →
    ∃ n u h, IRCMessage.parsePrefix msg view =
        .ok { msg with nickView := n, userView := u, hostView := h } ∧
      msg.fieldText n = nick ∧ msg.fieldText u = user ∧ msg.fieldText h = host

theorem cut_full {nick user : Bytes} (nickName : IsName nick) (userName : IsName user) (host : Bytes) :
    Cut (full nick user host) nick user host := by
  refine ⟨fun msg view _ _ inside text => ?_⟩
  have length := View.length_text inside
  -- The `@` is searched behind nick and user, the `!` behind the nick.
  have regroup : full nick user host =
      (nick ++ Byte.exclamation :: user) ++ Byte.commercialAt :: host := rfl
  have regroup' : full nick user host =
      nick ++ Byte.exclamation :: (user ++ Byte.commercialAt :: host) := by
    rw [regroup, List.append_assoc, List.cons_append]
  have absent : Byte.commercialAt ∉ nick ++ Byte.exclamation :: user := by
    simp only [List.mem_append, List.mem_cons, not_or]
    exact ⟨nickName.noAt, by decide, userName.noAt⟩
  have foundAt : findChar IRCMessage.isAt (view.text msg.data) =
      some (nick.length + (user.length + 1)) := by
    rw [text, regroup, findAt_append absent, List.length_append, List.length_cons]
  have foundEx : findChar IRCMessage.isExclamation (view.text msg.data) = some nick.length := by
    rw [text, regroup', findExclamation_append nickName.noExclamation]
  have boundAt := findChar_lt foundAt
  have between : countBetween nick.length (nick.length + (user.length + 1)) = some user.length := by
    simp only [countBetween, show nick.length < nick.length + (user.length + 1) by omega, ↓reduceIte]
    congr 1
    omega
  simp only [IRCMessage.parsePrefix, foundAt, foundEx, between, View.substr_of_le (Nat.zero_le _),
    View.substr_of_le (show nick.length + 1 ≤ view.size by omega),
    View.substr_of_le (show nick.length + (user.length + 1) + 1 ≤ view.size by omega)]
  refine ⟨_, _, _, rfl, ?_, ?_, ?_⟩
  · simp [IRCMessage.fieldText, text, regroup']
  · simp only [IRCMessage.fieldText, View.text_slice_some, text, regroup', drop_past]
    exact List.take_left
  · have behind := drop_past (nick ++ Byte.exclamation :: user) Byte.commercialAt host
    rw [List.length_append, List.length_cons] at behind
    simp only [IRCMessage.fieldText, View.text_slice_none, text, regroup, behind]

theorem cut_short {nick host : Bytes} (nickName : IsName nick) (noExclamation : Byte.exclamation ∉ host) :
    Cut (short nick host) nick [] host := by
  refine ⟨fun msg view noUser _ inside text => ?_⟩
  have length := View.length_text inside
  have foundAt : findChar IRCMessage.isAt (view.text msg.data) = some nick.length := by
    rw [text, short, findAt_append nickName.noAt]
  have foundEx : findChar IRCMessage.isExclamation (view.text msg.data) = none := by
    rw [text, short]
    refine findChar_eq_none.mpr (misses (c := Byte.exclamation) (by simp [IRCMessage.isExclamation]) ?_)
    simp only [List.mem_append, List.mem_cons, not_or]
    exact ⟨nickName.noExclamation, by decide, noExclamation⟩
  have boundAt := findChar_lt foundAt
  simp only [IRCMessage.parsePrefix, foundAt, foundEx, View.substr_of_le (Nat.zero_le _),
    View.substr_of_le (show nick.length + 1 ≤ view.size by omega)]
  refine ⟨_, msg.userView, _, rfl, ?_, ?_, ?_⟩
  · simp [IRCMessage.fieldText, text, short]
  · simp [IRCMessage.fieldText, noUser]
  · simp only [IRCMessage.fieldText, View.text_slice_none, text, short, drop_past]

theorem cut_bare {mask : Bytes} (absent : Byte.commercialAt ∉ mask) : Cut mask mask [] [] := by
  refine ⟨fun msg view noUser noHost _ text => ?_⟩
  have foundAt : findChar IRCMessage.isAt (view.text msg.data) = none := by
    rw [text]
    exact findChar_eq_none.mpr (misses (c := Byte.commercialAt) (by simp [IRCMessage.isAt]) absent)
  simp only [IRCMessage.parsePrefix, foundAt]
  exact ⟨some view, msg.userView, msg.hostView, rfl, text, by simp [IRCMessage.fieldText, noUser],
    by simp [IRCMessage.fieldText, noHost]⟩

/-- The cutter sees the origin and the space behind it; the rest of the line cannot change a field. -/
theorem reports_of_cut {origin nick user host : Bytes} (clean : Byte.space ∉ origin)
    (cut : Cut (origin ++ [Byte.space]) nick user host) (rest : Bytes) :
    Reports (line origin rest) nick user host := by
  intro time
  let msg : IRCMessage := { time, data := line origin rest }
  obtain ⟨insideMask, mask⟩ := IRCMessage.mask_view msg rfl
  obtain ⟨n, u, h, named, nickText, userText, hostText⟩ := cut.cut msg _ rfl rfl insideMask mask
  have parsedOrigin : IRCMessage.parseImplementation msg = _ := IRCMessage.parseImplementation_origin rfl clean
  rw [named] at parsedOrigin
  -- Command, parameters and body are assigned later and leave the three fields alone.
  by_cases stop : rest = []
  · refine ⟨{ msg with nickView := n, userView := u, hostView := h }, ?_, nickText, userText, hostText⟩
    change IRCMessage.parseImplementation msg = _
    rw [parsedOrigin]
    simp only [Except.bind, stop, ↓reduceIte]
  · obtain ⟨insideRest, text⟩ := IRCMessage.behind_view msg rfl
    obtain ⟨command, views, body, parsed, -⟩ := IRCMessage.parseCommand_total
      { msg with nickView := n, userView := u, hostView := h } rfl rfl insideRest (by rw [text]; exact stop)
    refine ⟨{ msg with
      nickView := n, userView := u, hostView := h
      commandView := some command, paramsVec := views, bodyView := body }, ?_, nickText, userText, hostText⟩
    change IRCMessage.parseImplementation msg = _
    rw [parsedOrigin]
    simp only [Except.bind, stop, ↓reduceIte]
    exact parsed

/-- What the parser reports instead: the last field of the origin has a space appended. -/
theorem reports_full {nick user host : Bytes} (nickName : IsName nick) (userName : IsName user)
    (hostName : IsName host) (rest : Bytes) :
    Reports (line (full nick user host) rest) nick user (host ++ [Byte.space]) := by
  have clean : Byte.space ∉ full nick user host := by
    simp only [full, List.mem_append, List.mem_cons, not_or]
    exact ⟨⟨nickName.noSpace, by decide, userName.noSpace⟩, by decide, hostName.noSpace⟩
  have extended : full nick user host ++ [Byte.space] = full nick user (host ++ [Byte.space]) := by
    simp [full]
  exact reports_of_cut clean (extended ▸ cut_full nickName userName _) rest

theorem reports_short {nick host : Bytes} (nickName : IsName nick) (hostName : IsName host)
    (rest : Bytes) : Reports (line (short nick host) rest) nick [] (host ++ [Byte.space]) := by
  have clean : Byte.space ∉ short nick host := by
    simp only [short, List.mem_append, List.mem_cons, not_or]
    exact ⟨nickName.noSpace, by decide, hostName.noSpace⟩
  have noExclamation : Byte.exclamation ∉ host ++ [Byte.space] := by
    simp only [List.mem_append, List.mem_singleton, not_or]
    exact ⟨hostName.noExclamation, by decide⟩
  have extended : short nick host ++ [Byte.space] = short nick (host ++ [Byte.space]) := by
    simp [short]
  exact reports_of_cut clean (extended ▸ cut_short nickName noExclamation) rest

theorem reports_bare {nick : Bytes} (nickName : IsName nick) (rest : Bytes) :
    Reports (line nick rest) (nick ++ [Byte.space]) [] [] := by
  have absent : Byte.commercialAt ∉ nick ++ [Byte.space] := by
    simp only [List.mem_append, List.mem_singleton, not_or]
    exact ⟨nickName.noAt, by decide⟩
  exact reports_of_cut nickName.noSpace (cut_bare absent) rest

theorem Reports.unique {received nick user host nick' user' host' : Bytes}
    (first : Reports received nick user host) (second : Reports received nick' user' host') :
    nick = nick' ∧ user = user' ∧ host = host' := by
  obtain ⟨msg, parsed, rfl, rfl, rfl⟩ := first 0
  obtain ⟨msg', parsed', rfl, rfl, rfl⟩ := second 0
  rw [parsed, Except.ok.injEq] at parsed'
  exact ⟨congrArg _ parsed', congrArg _ parsed', congrArg _ parsed'⟩

theorem ne_append_space (name : Bytes) : name ≠ name ++ [Byte.space] := by
  intro same
  simpa using congrArg List.length same

/-- No shape is ever reported exactly: the off-by-one does not depend on the names. -/
theorem never_exact {nick user host : Bytes} (nickName : IsName nick) (userName : IsName user)
    (hostName : IsName host) (rest : Bytes) :
    ¬ Reports (line (full nick user host) rest) nick user host ∧
    ¬ Reports (line (short nick host) rest) nick [] host ∧
    ¬ Reports (line nick rest) nick [] [] := by
  refine ⟨fun exact => ?_, fun exact => ?_, fun exact => ?_⟩
  · exact ne_append_space host (exact.unique (reports_full nickName userName hostName rest)).2.2
  · exact ne_append_space host (exact.unique (reports_short nickName hostName rest)).2.2
  · exact ne_append_space nick (exact.unique (reports_bare nickName rest)).1

theorem never_exact_saiv :
    ¬ Reports (line (full (ascii "saiv") (ascii "bot") (ascii "tv")) (ascii "JOIN #a"))
        (ascii "saiv") (ascii "bot") (ascii "tv") ∧
    ¬ Reports (line (short (ascii "saiv") (ascii "tv")) (ascii "JOIN #a"))
        (ascii "saiv") [] (ascii "tv") ∧
    ¬ Reports (line (ascii "saiv") (ascii "JOIN #a")) (ascii "saiv") [] [] :=
  never_exact ⟨by decide, by decide, by decide, by decide⟩ ⟨by decide, by decide, by decide, by decide⟩
    ⟨by decide, by decide, by decide, by decide⟩ (ascii "JOIN #a")

/-- `:saiv JOIN #a` reports the nick `saiv ` with its space. -/
theorem bare_origin_inexact :
    ¬ ∀ nick user host rest : Bytes, IsName nick → IsName user → IsName host → rest ≠ [] →
      Exact nick user host rest := by
  intro exact
  have reported := exact (ascii "saiv") (ascii "bot") (ascii "tv") (ascii "JOIN #a")
    ⟨by decide, by decide, by decide, by decide⟩ ⟨by decide, by decide, by decide, by decide⟩
    ⟨by decide, by decide, by decide, by decide⟩ (by decide)
  obtain ⟨msg, parsed, nick, -⟩ := reported.bare 0
  have wrong : (IRCMessage.ofLine 0 (line (ascii "saiv") (ascii "JOIN #a"))).toOption.map IRCMessage.getNick =
      some (ascii "saiv ") := by decide
  rw [parsed, Except.toOption, Option.map_some, nick] at wrong
  exact absurd wrong (by decide)

end Origin

end SaivBot
