import SaivBot.Bytes
import SaivBot.Clock
import SaivBot.Text.View

/-! `IRCMessage`: one line from the server and the views the parser cuts out of it.

A field the parser never assigned is a default view (a null pointer), kept apart
from an assigned empty view. The parser's early returns are the places where a
step finds nothing left to read.
-/

set_option autoImplicit false

namespace SaivBot
open StringView

structure IRCMessage where
  time : TimePoint
  data : Bytes
  nickView : Option View := none
  userView : Option View := none
  hostView : Option View := none
  commandView : Option View := none
  paramsVec : List View := []
  bodyView : Option View := none
  deriving DecidableEq

namespace IRCMessage

def fieldText (msg : IRCMessage) : Option View → Bytes
  | none => []
  | some view => view.text msg.data

def getNick (msg : IRCMessage) : Bytes := msg.fieldText msg.nickView
def getUser (msg : IRCMessage) : Bytes := msg.fieldText msg.userView
def getHost (msg : IRCMessage) : Bytes := msg.fieldText msg.hostView
def getCommand (msg : IRCMessage) : Bytes := msg.fieldText msg.commandView
def getParams (msg : IRCMessage) : List Bytes := msg.paramsVec.map (·.text msg.data)
def getBody (msg : IRCMessage) : Bytes := msg.fieldText msg.bodyView

def isSpace (c : Byte) : Bool := c == Byte.space
def isAt (c : Byte) : Bool := c == Byte.commercialAt
def isExclamation (c : Byte) : Bool := c == Byte.exclamation

/-- Nick, user and host out of the view behind the colon. -/
def parsePrefix (msg : IRCMessage) (prefixView : View) : Except ViewFault IRCMessage :=
  match findChar isAt (prefixView.text msg.data) with
  | some atPos =>
    match findChar isExclamation (prefixView.text msg.data) with
    | some ex => do
      let nick ← prefixView.substr 0 (some ex)
      -- With the two separators in the other order the count wraps, and the user runs to the end.
      let user ← prefixView.substr (ex + 1) (countBetween ex atPos)
      let host ← prefixView.substr (atPos + 1) none
      return { msg with nickView := some nick, userView := some user, hostView := some host }
    | none => do
      let nick ← prefixView.substr 0 (some atPos)
      let host ← prefixView.substr (atPos + 1) none
      return { msg with nickView := some nick, hostView := some host }
  | none => return { msg with nickView := some prefixView }

/-- The parameter loop. An iteration removes at least one byte, so the size of the view is enough
fuel; running out of it and finding the view empty are the same. -/
def parseParams (msg : IRCMessage) : Nat → View → Except ViewFault (IRCMessage × View)
  | 0, dataView => return (msg, dataView)
  | fuel + 1, dataView =>
    if dataView.size = 0 then return (msg, dataView)
    else do
      if (← dataView.front msg.data) = Byte.colon then return (msg, dataView)
      else
        match findChar isSpace (dataView.text msg.data) with
        | none =>
          let rest ← dataView.removePrefix dataView.size
          return ({ msg with paramsVec := msg.paramsVec ++ [dataView] }, rest)
        | some space =>
          let param ← dataView.substr 0 (some space)
          let rest ← dataView.removePrefix (space + 1)
          parseParams { msg with paramsVec := msg.paramsVec ++ [param] } fuel rest

def parseBody (msg : IRCMessage) (dataView : View) : Except ViewFault IRCMessage := do
  if (← dataView.front msg.data) = Byte.colon then
    let body ← dataView.substr 1 none
    return { msg with bodyView := some body }
  else return msg

/-- Parameters and body. -/
def parseArguments (msg : IRCMessage) (dataView : View) : Except ViewFault IRCMessage := do
  let (msg, rest) ← parseParams msg dataView.size dataView
  if rest.size = 0 then return msg
  else parseBody msg rest

/-- The command and what follows it. Without a space `space + 1` wraps to zero, and the word is
scanned again as the first parameter. -/
def parseCommand (msg : IRCMessage) (dataView : View) : Except ViewFault IRCMessage := do
  let space := findChar isSpace (dataView.text msg.data)
  let command ← dataView.substr 0 space
  let rest ← dataView.removePrefix (after space)
  let msg := { msg with commandView := some command }
  if rest.size = 0 then return msg
  else parseArguments msg rest

def parseImplementation (msg : IRCMessage) : Except ViewFault IRCMessage := do
  let dataView := View.whole msg.data
  if (← dataView.front msg.data) = Byte.colon then
    let space := findChar isSpace (dataView.text msg.data)
    -- The position of the space, taken as a count.
    let prefixView ← dataView.substr 1 space
    let msg ← parsePrefix msg prefixView
    let rest ← dataView.removePrefix (after space)
    if rest.size = 0 then return msg
    else parseCommand msg rest
  else parseCommand msg dataView

/-- The constructor from a received line. -/
def ofLine (time : TimePoint) (line : Bytes) : Except ViewFault IRCMessage :=
  parseImplementation { time, data := line }

/-! What each stage does to a view of known text. -/

variable {msg : IRCMessage} {view : View}

theorem isSpace_iff (c : Byte) : isSpace c = true ↔ c = Byte.space := by simp [isSpace]

theorem misses_space {word : Bytes} (clean : Byte.space ∉ word) : ∀ c ∈ word, isSpace c = false := by
  intro c member
  by_contra hit
  rw [Bool.not_eq_false, isSpace_iff] at hit
  exact clean (hit ▸ member)

theorem findSpace_append {word : Bytes} (clean : Byte.space ∉ word) (tail : Bytes) :
    findChar isSpace (word ++ Byte.space :: tail) = some word.length :=
  findChar_append (misses_space clean) rfl tail

theorem findSpace_none {word : Bytes} (clean : Byte.space ∉ word) : findChar isSpace word = none :=
  findChar_eq_none.mpr (misses_space clean)

/-- The nick cut out of `mask`, the text handed to `parsePrefix`. -/
def maskNick (mask : Bytes) : Bytes :=
  match findChar isAt mask with
  | some atPos =>
    match findChar isExclamation mask with
    | some ex => mask.take ex
    | none => mask.take atPos
  | none => mask

theorem parsePrefix_frame (msg : IRCMessage) (prefixView : View) : prefixView.Inside msg.data →
    ∃ nick user host,
      parsePrefix msg prefixView =
        .ok { msg with nickView := nick, userView := user, hostView := host } ∧
      msg.fieldText nick = maskNick (prefixView.text msg.data) := by
  intro inside
  have length := View.length_text inside
  unfold parsePrefix maskNick
  cases foundAt : findChar isAt (prefixView.text msg.data) with
  | none => exact ⟨some prefixView, _, _, rfl, rfl⟩
  | some atPos =>
    have boundAt := findChar_lt foundAt
    cases foundEx : findChar isExclamation (prefixView.text msg.data) with
    | none =>
      simp only [View.substr_of_le (Nat.zero_le _), View.substr_of_le (show atPos + 1 ≤ prefixView.size by omega)]
      exact ⟨some (prefixView.slice 0 (some atPos)), _, _, rfl, by simp [fieldText]⟩
    | some ex =>
      have boundEx := findChar_lt foundEx
      simp only [View.substr_of_le (Nat.zero_le _), View.substr_of_le (show atPos + 1 ≤ prefixView.size by omega),
        View.substr_of_le (show ex + 1 ≤ prefixView.size by omega)]
      exact ⟨some (prefixView.slice 0 (some ex)), _, _, rfl, by simp [fieldText]⟩

def pushParam (msg : IRCMessage) (param : View) : IRCMessage :=
  { msg with paramsVec := msg.paramsVec ++ [param] }

theorem parseParams_stop {fuel : Nat} (inside : view.Inside msg.data)
    (shape : view.text msg.data = [] ∨ ∃ tail, view.text msg.data = Byte.colon :: tail) :
    parseParams msg fuel view = .ok (msg, view) := by
  cases fuel with
  | zero => rfl
  | succ fuel =>
    rcases shape with empty | ⟨tail, shape⟩
    · have size : view.size = 0 := by rw [← View.length_text inside, empty]; rfl
      simp only [parseParams, size, ↓reduceIte]
      rfl
    · have size : view.size ≠ 0 := by rw [← View.length_text inside, shape]; simp
      simp only [parseParams, size, ↓reduceIte, View.front_of_text shape]
      rfl

theorem parseParams_word {fuel : Nat} (inside : view.Inside msg.data) {word tail : Bytes}
    (shape : view.text msg.data = word ++ Byte.space :: tail) (clean : Byte.space ∉ word)
    (start : word.head? ≠ some Byte.colon) :
    parseParams msg (fuel + 1) view =
      parseParams (msg.pushParam (view.slice 0 (some word.length))) fuel (view.drop (word.length + 1)) := by
  have length := View.length_text inside
  rw [shape, List.length_append, List.length_cons] at length
  have size : view.size ≠ 0 := by omega
  -- The first byte is that of the word, or the space behind an empty one.
  obtain ⟨c, rest, first, notColon⟩ : ∃ c rest, view.text msg.data = c :: rest ∧ c ≠ Byte.colon := by
    cases word with
    | nil => exact ⟨_, _, shape, by decide⟩
    | cons c rest => exact ⟨c, _, shape, by simpa using start⟩
  have found : findChar isSpace (view.text msg.data) = some word.length := by
    rw [shape]; exact findSpace_append clean tail
  simp only [parseParams, size, ↓reduceIte, View.front_of_text first, found,
    View.substr_of_le (Nat.zero_le _), View.removePrefix_of_le (show word.length + 1 ≤ view.size by omega)]
  simp only [bind, Except.bind, notColon, ↓reduceIte, pushParam]

theorem parseParams_last {fuel : Nat} (inside : view.Inside msg.data) {word : Bytes}
    (shape : view.text msg.data = word) (nonempty : word ≠ []) (clean : Byte.space ∉ word)
    (start : word.head? ≠ some Byte.colon) :
    parseParams msg (fuel + 1) view = .ok (msg.pushParam view, view.drop view.size) := by
  have length := View.length_text inside
  obtain ⟨c, rest, rfl⟩ := List.exists_cons_of_ne_nil nonempty
  rw [shape, List.length_cons] at length
  have size : view.size ≠ 0 := by omega
  have notColon : c ≠ Byte.colon := by simpa using start
  have found : findChar isSpace (view.text msg.data) = none := by rw [shape]; exact findSpace_none clean
  simp only [parseParams, size, ↓reduceIte, View.front_of_text shape, found,
    View.removePrefix_of_le (Nat.le_refl _)]
  simp only [bind, Except.bind, notColon, ↓reduceIte, pushParam]
  rfl

theorem parseBody_colon (msg : IRCMessage) (inside : view.Inside msg.data) {tail : Bytes}
    (shape : view.text msg.data = Byte.colon :: tail) :
    parseBody msg view = .ok { msg with bodyView := some (view.slice 1 none) } := by
  have length := View.length_text inside
  rw [shape, List.length_cons] at length
  simp only [parseBody, View.front_of_text shape, View.substr_of_le (show 1 ≤ view.size by omega)]
  rfl

theorem parseCommand_space (inside : view.Inside msg.data) {word tail : Bytes}
    (shape : view.text msg.data = word ++ Byte.space :: tail) (clean : Byte.space ∉ word) :
    parseCommand msg view =
      (let named := { msg with commandView := some (view.slice 0 (some word.length)) }
       if tail = [] then .ok named else parseArguments named (view.drop (word.length + 1))) := by
  have length := View.length_text inside
  rw [shape, List.length_append, List.length_cons] at length
  have found : findChar isSpace (view.text msg.data) = some word.length := by
    rw [shape]; exact findSpace_append clean tail
  obtain ⟨insideRest, textRest⟩ := View.behind_word inside shape
  have rest : (view.drop (word.length + 1)).size = 0 ↔ tail = [] := by
    rw [← View.length_text insideRest, textRest, List.length_eq_zero_iff]
  simp only [parseCommand, found, after, View.substr_of_le (Nat.zero_le _),
    View.removePrefix_of_le (show word.length + 1 ≤ view.size by omega)]
  simp only [bind, Except.bind, rest]
  rfl

theorem parseCommand_whole (inside : view.Inside msg.data) (clean : Byte.space ∉ view.text msg.data)
    (nonempty : view.text msg.data ≠ []) :
    parseCommand msg view =
      parseArguments { msg with commandView := some (view.slice 0 none) } (view.drop 0) := by
  have size : (view.drop 0).size ≠ 0 := by
    have length := View.length_text inside
    have positive := List.length_pos_iff.mpr nonempty
    simp only [View.drop]
    omega
  simp only [parseCommand, findSpace_none clean, after, View.substr_of_le (Nat.zero_le _),
    View.removePrefix_of_le (Nat.zero_le _)]
  simp only [bind, Except.bind, size, ↓reduceIte]

theorem parseImplementation_plain {c : Byte} {rest : Bytes} (shape : msg.data = c :: rest)
    (start : c ≠ Byte.colon) :
    parseImplementation msg = parseCommand msg (View.whole msg.data) := by
  have first : (View.whole msg.data).text msg.data = c :: rest := by rw [View.text_whole, shape]
  simp only [parseImplementation, View.front_of_text first]
  simp only [bind, Except.bind, start, ↓reduceIte]

/-- The count of the origin's view is its end position, so the view ends one byte late, on the space. -/
theorem mask_view (msg : IRCMessage) {word tail : Bytes}
    (shape : msg.data = Byte.colon :: word ++ Byte.space :: tail) :
    ((View.whole msg.data).slice 1 (some (word.length + 1))).Inside msg.data ∧
    ((View.whole msg.data).slice 1 (some (word.length + 1))).text msg.data = word ++ [Byte.space] := by
  have behind : msg.data.drop 1 = (word ++ [Byte.space]) ++ tail := by simp [shape]
  refine ⟨View.inside_slice (View.inside_whole _) (by simp [View.whole, shape]) _, ?_⟩
  rw [View.text_slice_some, View.text_whole, behind]
  exact List.take_left' (by simp)

theorem behind_view (msg : IRCMessage) {word tail : Bytes}
    (shape : msg.data = Byte.colon :: word ++ Byte.space :: tail) :
    ((View.whole msg.data).drop (word.length + 2)).Inside msg.data ∧
    ((View.whole msg.data).drop (word.length + 2)).text msg.data = tail :=
  View.behind_word (View.inside_whole _) ((View.text_whole _).trans shape)

theorem parseImplementation_origin {word tail : Bytes}
    (shape : msg.data = Byte.colon :: word ++ Byte.space :: tail) (clean : Byte.space ∉ word) :
    parseImplementation msg =
      (parsePrefix msg ((View.whole msg.data).slice 1 (some (word.length + 1)))).bind fun named =>
        if tail = [] then .ok named
        else parseCommand named ((View.whole msg.data).drop (word.length + 2)) := by
  have clean' : Byte.space ∉ Byte.colon :: word := by simpa using ⟨by decide, clean⟩
  have length := congrArg List.length shape
  simp only [List.length_append, List.length_cons] at length
  have size : (View.whole msg.data).size = msg.data.length := rfl
  have first : (View.whole msg.data).text msg.data = Byte.colon :: (word ++ Byte.space :: tail) := by
    rw [View.text_whole, shape, List.cons_append]
  have found : findChar isSpace ((View.whole msg.data).text msg.data) = some (word.length + 1) := by
    rw [View.text_whole, shape]; exact findSpace_append clean' tail
  obtain ⟨insideRest, textRest⟩ := behind_view msg shape
  have rest : ((View.whole msg.data).drop (word.length + 2)).size = 0 ↔ tail = [] := by
    rw [← View.length_text insideRest, textRest, List.length_eq_zero_iff]
  simp only [parseImplementation, View.front_of_text first, found, after,
    View.substr_of_le (show 1 ≤ (View.whole msg.data).size by omega),
    View.removePrefix_of_le (show word.length + 1 + 1 ≤ (View.whole msg.data).size by omega)]
  simp only [bind, Except.bind, ↓reduceIte, Nat.add_assoc, Nat.reduceAdd, rest]
  rfl

theorem parseImplementation_lone {word : Bytes} (shape : msg.data = Byte.colon :: word)
    (clean : Byte.space ∉ word) :
    parseImplementation msg =
      (parsePrefix msg ((View.whole msg.data).slice 1 none)).bind fun named =>
        parseCommand named ((View.whole msg.data).drop 0) := by
  have clean' : Byte.space ∉ Byte.colon :: word := by simpa using ⟨by decide, clean⟩
  have size : ((View.whole msg.data).drop 0).size ≠ 0 := by simp [View.drop, View.whole, shape]
  have first : (View.whole msg.data).text msg.data = Byte.colon :: word := by
    rw [View.text_whole, shape]
  have found : findChar isSpace ((View.whole msg.data).text msg.data) = none := by
    rw [first]; exact findSpace_none clean'
  simp only [parseImplementation, View.front_of_text first, found, after,
    View.substr_of_le (show 1 ≤ (View.whole msg.data).size by simp [View.whole, shape]),
    View.removePrefix_of_le (Nat.zero_le _)]
  simp only [bind, Except.bind, ↓reduceIte, size]

end IRCMessage

end SaivBot
