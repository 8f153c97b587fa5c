import SaivBot.Message.Totality

/-! Which lines are reported in pieces that do not overlap.

Two cuts can go wrong. A word without a space behind it is the command and is then read
again, and an origin with its separators the other way round shows its end twice.
-/

set_option autoImplicit false

namespace SaivBot
open StringView

/-- The origin with the space that ends it, and what is left of the line. -/
def splitPrefix (line : Bytes) : Bytes × Bytes :=
  if line.head? = some Byte.colon then
    match findChar IRCMessage.isSpace line with
    | some space => ((line.take (space + 1)).drop 1, line.drop (space + 1))
    | none => ([], line)
  else ([], line)

/-- An exclamation mark in a mask with an at sign comes in front of that. -/
def MaskInOrder (mask : Bytes) : Prop :=
  ∀ atPos ∈ findChar IRCMessage.isAt mask, ∀ ex ∈ findChar IRCMessage.isExclamation mask, ex < atPos

/-- The word that is taken for the command ends at a space. A lone colon shows nothing but itself. -/
def CommandEnds (text : Bytes) : Prop := Byte.space ∈ text ∨ text = [Byte.colon]

def Separated (line : Bytes) : Prop :=
  MaskInOrder (splitPrefix line).1 ∧ ((splitPrefix line).2 = [] ∨ CommandEnds (splitPrefix line).2)

instance (mask : Bytes) : Decidable (MaskInOrder mask) := inferInstanceAs (Decidable (∀ _ ∈ _, ∀ _ ∈ _, _))
instance (text : Bytes) : Decidable (CommandEnds text) := inferInstanceAs (Decidable (_ ∨ _))
instance (line : Bytes) : Decidable (Separated line) := inferInstanceAs (Decidable (_ ∧ (_ ∨ _)))

namespace IRCMessage

def originPieces (nick user host : Option View) : List View := nick.toList ++ (user.toList ++ host.toList)

def commandPieces (command : Option View) (params : List View) (body : Option View) : List View :=
  command.toList ++ (params ++ body.toList)

/-- The views of a message in the order of the line. -/
def pieces (msg : IRCMessage) : List View :=
  originPieces msg.nickView msg.userView msg.hostView ++ commandPieces msg.commandView msg.paramsVec msg.bodyView

/-- What is reported are pieces of the line, in order and without overlap. -/
structure InPieces (msg : IRCMessage) : Prop where
  inside : ∀ piece ∈ msg.pieces, piece.Inside msg.data
  apart : View.Apart msg.pieces

variable {msg : IRCMessage} {view : View}

theorem inPieces_of_spans {first : Nat} (spans : View.Spans first msg.pieces msg.data.length) : msg.InPieces :=
  ⟨fun _ member => (spans.of_mem member).2, spans.apart⟩

/-- What is found in a mask is not its last space. -/
theorem findChar_lt_mask {p : Byte → Bool} (misses : p Byte.space = false) {word : Bytes} {pos : Nat}
    (found : findChar p (word ++ [Byte.space]) = some pos) : pos < word.length := by
  obtain ⟨before, c, rest, same, rfl, hit, -⟩ := findChar_split found
  have length := congrArg List.length same
  simp only [List.length_append, List.length_cons, List.length_nil] at length
  have more : rest ≠ [] := by
    rintro rfl
    obtain ⟨-, last⟩ := List.append_inj' same rfl
    rw [← List.head_eq_of_cons_eq last, misses] at hit
    cases hit
  have positive := List.length_pos_iff.mpr more
  omega

/-- A mask ends with a space, so a user that runs to its end and the host show something. -/
theorem parsePrefix_pieces (msg : IRCMessage) (noUser : msg.userView = none) (noHost : msg.hostView = none)
    (inside : view.Inside msg.data) {word : Bytes} (shape : view.text msg.data = word ++ [Byte.space]) :
    ∃ nick user host,
      parsePrefix msg view = .ok { msg with nickView := nick, userView := user, hostView := host } ∧
      (MaskInOrder (view.text msg.data) → View.Spans view.start (originPieces nick user host) view.stop) ∧
      (¬ MaskInOrder (view.text msg.data) → ¬ View.Apart (originPieces nick user host)) := by
  have size := View.length_text inside
  rw [shape, List.length_append, List.length_singleton] at size
  rw [shape]
  unfold parsePrefix
  rw [shape]
  cases foundAt : findChar isAt (word ++ [Byte.space]) with
  | none =>
    refine ⟨some view, none, none, ?_, fun _ => ⟨Nat.le_refl _, Nat.le_refl _⟩, fun disorder => ?_⟩
    · simp only [noUser, noHost]
      rfl
    · exact absurd (by simp [MaskInOrder, foundAt]) disorder
  | some atPos =>
    have boundAt := findChar_lt_mask (by decide) foundAt
    cases foundEx : findChar isExclamation (word ++ [Byte.space]) with
    | none =>
      simp only [View.substr_of_le (Nat.zero_le _), View.substr_of_le (show atPos + 1 ≤ view.size by omega)]
      refine ⟨some (view.slice 0 (some atPos)), none, some (view.slice (atPos + 1) none), ?_, fun _ => ?_,
        fun disorder => ?_⟩
      · simp only [noUser]
        rfl
      · simp only [originPieces, Option.toList, List.cons_append, List.nil_append, View.Spans, View.stop, View.slice]
        omega
      · exact absurd (by simp [MaskInOrder, foundEx]) disorder
    | some ex =>
      have boundEx := findChar_lt_mask (by decide) foundEx
      have inOrder : MaskInOrder (word ++ [Byte.space]) ↔ ex < atPos := by
        simp [MaskInOrder, foundAt, foundEx]
      simp only [View.substr_of_le (Nat.zero_le _), View.substr_of_le (show atPos + 1 ≤ view.size by omega),
        View.substr_of_le (show ex + 1 ≤ view.size by omega), inOrder]
      refine ⟨_, _, _, rfl, fun order => ?_, fun disorder => ?_⟩
      · simp only [originPieces, Option.toList, List.cons_append, List.nil_append, View.Spans, View.stop, View.slice,
          countBetween, order, ↓reduceIte]
        omega
      · have listed : [view.slice (ex + 1) none, view.slice (atPos + 1) none].Sublist
            [view.slice 0 (some ex), view.slice (ex + 1) none, view.slice (atPos + 1) none] :=
          List.sublist_cons_self _ _
        simp only [originPieces, Option.toList, List.cons_append, List.nil_append, countBetween, disorder, ↓reduceIte]
        apply View.not_apart listed <;> simp only [View.slice, View.stop] <;> omega

theorem parseArguments_colon (msg : IRCMessage) (inside : view.Inside msg.data) {tail : Bytes}
    (shape : view.text msg.data = Byte.colon :: tail) :
    parseArguments msg view = .ok { msg with bodyView := some (view.slice 1 none) } := by
  have size : view.size ≠ 0 := by
    rw [← View.length_text inside, shape]
    simp
  simp only [parseArguments, parseParams_stop inside (.inr ⟨tail, shape⟩), bind, Except.bind, size, ↓reduceIte]
  exact parseBody_colon msg inside shape

/-- A word says something in the parameters or the body. -/
theorem exists_piece {params : List View} {body : Option View} {text : Bytes} (nonempty : text ≠ [])
    (clean : Byte.space ∉ text) (longer : text ≠ [Byte.colon])
    (arguments : (params.map (·.text msg.data), msg.fieldText body) = splitArguments text) :
    ∃ piece ∈ params ++ body.toList, piece.size ≠ 0 := by
  have shows {piece : View} (said : piece.text msg.data ≠ []) : piece.size ≠ 0 := by
    intro nothing
    exact said (by simp [View.text, nothing])
  rcases arguments_cases text with empty | ⟨tail, rfl⟩ | word | ⟨word, tail, rfl, -⟩
  · exact absurd empty nonempty
  · -- The rest of the word is its body.
    rw [splitArguments_colon, Prod.mk.injEq] at arguments
    cases body with
    | none => exact absurd (by rw [← arguments.2]; rfl) longer
    | some body =>
      refine ⟨body, by simp, shows fun silent => longer ?_⟩
      rw [← arguments.2, fieldText, silent]
  · rw [splitArguments_last word, Prod.mk.injEq] at arguments
    obtain ⟨param, member, same⟩ := List.mem_map.mp (arguments.1 ▸ List.mem_singleton_self text)
    exact ⟨param, by simp [member], shows (same ▸ nonempty)⟩
  · exact absurd (by simp) clean

/-- Arguments that are read from the text of the command lie in the command. -/
theorem not_apart_again {params : List View} {body : Option View}
    (shows : ∃ piece ∈ params ++ body.toList, piece.size ≠ 0)
    (spans : View.Spans (view.drop 0).start (params ++ body.toList) (view.drop 0).stop) :
    ¬ View.Apart (commandPieces (some (view.slice 0 none)) params body) := by
  obtain ⟨piece, member, shows⟩ := shows
  have listed : [view.slice 0 none, piece].Sublist (commandPieces (some (view.slice 0 none)) params body) :=
    List.cons_sublist_cons.mpr (List.singleton_sublist.mpr member)
  have within := spans.of_mem member
  apply View.not_apart listed <;> simp only [View.stop, View.slice, View.drop] at within ⊢ <;> omega

/-- The command is read with its arguments, or it is its own argument. -/
theorem parseCommand_pieces (msg : IRCMessage) (fresh : msg.paramsVec = []) (noBody : msg.bodyView = none)
    (inside : view.Inside msg.data) (nonempty : view.text msg.data ≠ []) :
    ∃ command params body,
      parseCommand msg view =
        .ok { msg with commandView := some command, paramsVec := params, bodyView := body } ∧
      (CommandEnds (view.text msg.data) → View.Spans view.start (commandPieces (some command) params body) view.stop) ∧
      (¬ CommandEnds (view.text msg.data) → ¬ View.Apart (commandPieces (some command) params body)) := by
  have size := View.length_text inside
  rcases split_space (view.text msg.data) with clean | ⟨word, tail, shape, clean⟩
  · have insideRest : (view.drop 0).Inside msg.data := View.inside_drop inside (Nat.zero_le _)
    have textRest : (view.drop 0).text msg.data = view.text msg.data := by simp
    rw [parseCommand_whole inside clean nonempty]
    by_cases lone : view.text msg.data = [Byte.colon]
    · rw [parseArguments_colon { msg with commandView := some (view.slice 0 none) } insideRest
        (textRest.trans lone)]
      refine ⟨_, [], some ((view.drop 0).slice 1 none), by rw [fresh], fun _ => ?_, fun lost => ?_⟩
      · rw [lone, List.length_singleton] at size
        simp only [commandPieces, Option.toList, List.cons_append, List.nil_append, View.Spans, View.stop,
          View.slice, View.drop]
        omega
      · exact absurd (.inr lone) lost
    · obtain ⟨params, body, parsed, spans, -, arguments⟩ := parseArguments_total
        { msg with commandView := some (view.slice 0 none) } noBody insideRest
      rw [parsed]
      refine ⟨view.slice 0 none, params, body, by simp only [fresh, List.nil_append], fun ends => ?_, fun _ => ?_⟩
      · rcases ends with space | colon
        · exact absurd space clean
        · exact absurd colon lone
      · exact not_apart_again (exists_piece nonempty clean lone (textRest ▸ arguments)) spans
  · have ends : CommandEnds (view.text msg.data) := .inl (by simp [shape])
    have length := congrArg List.length shape
    rw [List.length_append, List.length_cons, size] at length
    obtain ⟨insideRest, -⟩ := View.behind_word inside shape
    rw [parseCommand_space inside shape clean]
    by_cases stop : tail = []
    · refine ⟨view.slice 0 (some word.length), [], none, ?_, fun _ => ?_, absurd ends⟩
      · simp only [stop, ↓reduceIte, ← fresh, ← noBody]
      · simp only [commandPieces, Option.toList, List.cons_append, List.nil_append, View.Spans, View.stop, View.slice]
        omega
    · obtain ⟨params, body, parsed, spans, -⟩ := parseArguments_total
        { msg with commandView := some (view.slice 0 (some word.length)) } noBody insideRest
      refine ⟨view.slice 0 (some word.length), params, body, ?_, fun _ => ⟨Nat.le_refl _, ?_⟩, absurd ends⟩
      · simpa only [stop, ↓reduceIte, fresh, List.nil_append] using parsed
      · have behind : (view.drop (word.length + 1)).stop = view.stop := by
          simp only [View.stop, View.drop]
          omega
        rw [behind] at spans
        apply spans.lower
        simp only [View.stop, View.slice, View.drop]
        omega

/-! Lines. -/

theorem splitPrefix_plain {line : Bytes} (plain : ¬ StartsColon line) : splitPrefix line = ([], line) := by
  rw [splitPrefix, if_neg]
  rwa [← startsColon_iff]

theorem splitPrefix_lone {word : Bytes} (clean : Byte.space ∉ word) :
    splitPrefix (Byte.colon :: word) = ([], Byte.colon :: word) := by
  have clean' : Byte.space ∉ Byte.colon :: word := by simpa using ⟨by decide, clean⟩
  simp only [splitPrefix, List.head?_cons, ↓reduceIte, findSpace_none clean']

theorem splitPrefix_origin {word : Bytes} (clean : Byte.space ∉ word) (tail : Bytes) :
    splitPrefix (Byte.colon :: word ++ Byte.space :: tail) = (word ++ [Byte.space], tail) := by
  have clean' : Byte.space ∉ Byte.colon :: word := by simpa using ⟨by decide, clean⟩
  have front : (Byte.colon :: word ++ Byte.space :: tail).take ((Byte.colon :: word).length + 1) =
      Byte.colon :: word ++ [Byte.space] := by
    rw [List.take_length_add_append, List.take_succ_cons, List.take_zero]
  have found := findSpace_append clean' tail
  simp only [splitPrefix, found, front, drop_past]
  rfl

theorem maskInOrder_nil : MaskInOrder [] := nofun

section

variable {time : TimePoint} {named parsed : IRCMessage}

theorem plain_inPieces {line : Bytes} (nonempty : line ≠ []) (plain : ¬ StartsColon line)
    (done : parseCommand { time, data := line } (View.whole line) = .ok parsed) :
    parsed.InPieces ↔ Separated line := by
  obtain ⟨command, params, body, same, spans, overlap⟩ :=
    parseCommand_pieces { time, data := line } rfl rfl (View.inside_whole _) (by simpa using nonempty)
  obtain rfl := Except.ok.inj (done.symm.trans same)
  rw [View.text_whole] at spans overlap
  have separated : Separated line ↔ CommandEnds line := by
    simp only [Separated, splitPrefix_plain plain, maskInOrder_nil, nonempty, false_or, true_and]
  rw [separated]
  constructor
  · intro inPieces
    by_contra lost
    exact overlap lost inPieces.apart
  · intro ends
    have whole : View.Spans 0 (commandPieces (some command) params body) line.length := by
      simpa [View.stop, View.whole] using spans ends
    exact inPieces_of_spans whole

/-- A line that is all origin is read again as the command. -/
theorem lone_inPieces {word : Bytes} (clean : Byte.space ∉ word)
    (called : parsePrefix { time, data := Byte.colon :: word } ((View.whole (Byte.colon :: word)).slice 1 none) =
      .ok named)
    (done : parseCommand named ((View.whole (Byte.colon :: word)).drop 0) = .ok parsed) :
    parsed.InPieces ↔ Separated (Byte.colon :: word) := by
  by_cases nothing : word = []
  · subst nothing
    cases called
    cases done
    have inside : ∀ piece ∈ ([⟨1, 0⟩, ⟨0, 1⟩, ⟨1, 0⟩] : List View), piece.Inside [Byte.colon] := by
      simp [View.Inside]
    have apart : View.Apart [⟨1, 0⟩, ⟨0, 1⟩, ⟨1, 0⟩] := by decide
    exact iff_of_true ⟨inside, apart⟩ ⟨maskInOrder_nil, .inr (.inr rfl)⟩
  · have lost : ¬ CommandEnds (Byte.colon :: word) := by
      rintro (space | colon)
      · exact clean (List.mem_of_ne_of_mem (by decide) space)
      · exact nothing (List.cons.inj colon).2
    obtain ⟨nick, user, host, same, -⟩ := parsePrefix_frame { time, data := Byte.colon :: word }
      ((View.whole (Byte.colon :: word)).slice 1 none)
      (View.inside_slice (View.inside_whole _) (by simp [View.whole]) _)
    obtain rfl := Except.ok.inj (called.symm.trans same)
    obtain ⟨command, params, body, same, -, overlap⟩ := parseCommand_pieces
      { time, data := Byte.colon :: word, nickView := nick, userView := user, hostView := host } rfl rfl
      (View.inside_drop (View.inside_whole _) (Nat.zero_le _)) (by simp)
    obtain rfl := Except.ok.inj (done.symm.trans same)
    rw [View.text_drop, View.text_whole, List.drop_zero] at overlap
    refine iff_of_false (fun inPieces => overlap lost inPieces.apart.of_append.2) ?_
    rintro ⟨-, rest⟩
    rw [splitPrefix_lone clean] at rest
    exact rest.elim (by simp) lost

/-- The views of an origin, and that it is reported as it should be just where its mask is in order. -/
theorem origin_pieces {word : Bytes} (tail : Bytes)
    (called : parsePrefix { time, data := Byte.colon :: word ++ Byte.space :: tail }
      ((View.whole (Byte.colon :: word ++ Byte.space :: tail)).slice 1 (some (word.length + 1))) = .ok named) :
    ∃ nick user host,
      named = { time, data := Byte.colon :: word ++ Byte.space :: tail,
                nickView := nick, userView := user, hostView := host } ∧
      (MaskInOrder (word ++ [Byte.space]) → View.Spans 1 (originPieces nick user host) (word.length + 2)) ∧
      (View.Apart (originPieces nick user host) → MaskInOrder (word ++ [Byte.space])) := by
  obtain ⟨insideMask, mask⟩ := mask_view { time, data := Byte.colon :: word ++ Byte.space :: tail } rfl
  obtain ⟨nick, user, host, same, spans, overlap⟩ := parsePrefix_pieces _ rfl rfl insideMask mask
  rw [mask] at spans overlap
  have stop : ((View.whole (Byte.colon :: word ++ Byte.space :: tail)).slice 1 (some (word.length + 1))).stop =
      word.length + 2 := by
    simp only [View.stop, View.slice, View.whole, List.length_append, List.length_cons]
    omega
  refine ⟨nick, user, host, Except.ok.inj (called.symm.trans same), fun order => stop ▸ spans order, fun apart => ?_⟩
  by_contra disorder
  exact overlap disorder apart

theorem originOnly_inPieces {word : Bytes} (clean : Byte.space ∉ word)
    (called : parsePrefix { time, data := Byte.colon :: word ++ [Byte.space] }
      ((View.whole (Byte.colon :: word ++ [Byte.space])).slice 1 (some (word.length + 1))) = .ok named) :
    named.InPieces ↔ Separated (Byte.colon :: word ++ [Byte.space]) := by
  obtain ⟨nick, user, host, rfl, spans, order⟩ := origin_pieces [] called
  rw [Separated, splitPrefix_origin clean]
  constructor
  · intro inPieces
    exact ⟨order inPieces.apart.of_append.1, .inl rfl⟩
  · rintro ⟨inOrder, -⟩
    have bound : View.Spans (word.length + 2) [] (Byte.colon :: word ++ [Byte.space]).length := by
      simp [View.Spans]
    exact inPieces_of_spans ((spans inOrder).append bound)

theorem origin_inPieces {word tail : Bytes} (clean : Byte.space ∉ word) (more : tail ≠ [])
    (called : parsePrefix { time, data := Byte.colon :: word ++ Byte.space :: tail }
      ((View.whole (Byte.colon :: word ++ Byte.space :: tail)).slice 1 (some (word.length + 1))) = .ok named)
    (done : parseCommand named ((View.whole (Byte.colon :: word ++ Byte.space :: tail)).drop (word.length + 2)) =
      .ok parsed) :
    parsed.InPieces ↔ Separated (Byte.colon :: word ++ Byte.space :: tail) := by
  obtain ⟨nick, user, host, rfl, originSpans, order⟩ := origin_pieces tail called
  obtain ⟨insideRest, text⟩ := behind_view { time, data := Byte.colon :: word ++ Byte.space :: tail } rfl
  obtain ⟨command, params, body, same, spans, overlap⟩ := parseCommand_pieces
    { time, data := Byte.colon :: word ++ Byte.space :: tail, nickView := nick, userView := user, hostView := host }
    rfl rfl insideRest (by rw [text]; exact more)
  obtain rfl := Except.ok.inj (done.symm.trans same)
  rw [text] at spans overlap
  have start : ((View.whole (Byte.colon :: word ++ Byte.space :: tail)).drop (word.length + 2)).start =
      word.length + 2 := Nat.zero_add _
  have stop : ((View.whole (Byte.colon :: word ++ Byte.space :: tail)).drop (word.length + 2)).stop =
      (Byte.colon :: word ++ Byte.space :: tail).length := by
    simp only [View.stop, View.drop, View.whole, List.length_append, List.length_cons]
    omega
  rw [Separated, splitPrefix_origin clean]
  constructor
  · intro inPieces
    obtain ⟨originApart, commandApart⟩ := inPieces.apart.of_append
    refine ⟨order originApart, .inr ?_⟩
    by_contra lost
    exact overlap lost commandApart
  · rintro ⟨inOrder, rest⟩
    have behind := spans (rest.resolve_left more)
    rw [start, stop] at behind
    exact inPieces_of_spans ((originSpans inOrder).append behind)

/-- The pieces of a line do not overlap exactly where its origin is in order and its command ends. -/
theorem inPieces_iff {line : Bytes} {msg : IRCMessage} (parsed : ofLine time line = .ok msg) :
    msg.InPieces ↔ Separated line := by
  cases route_of_ok parsed with
  | plain nonempty plain done => exact plain_inPieces nonempty plain done
  | lone shape clean called done =>
    obtain rfl : line = Byte.colon :: _ := shape
    exact lone_inPieces clean called done
  | originOnly shape clean called =>
    obtain rfl : line = Byte.colon :: _ ++ [Byte.space] := shape
    exact originOnly_inPieces clean called
  | origin shape clean more called done =>
    obtain rfl : line = Byte.colon :: _ ++ Byte.space :: _ := shape
    exact origin_inPieces clean more called done

end

theorem inPieces_privmsg : ∃ msg, ofLine 0 (ascii ":saiv!s@h PRIVMSG #c d :hi") = .ok msg ∧
    msg.pieces = [⟨1, 4⟩, ⟨6, 1⟩, ⟨8, 2⟩, ⟨10, 7⟩, ⟨18, 2⟩, ⟨21, 1⟩, ⟨24, 2⟩] ∧ msg.InPieces := by
  obtain ⟨msg, parsed, views⟩ : ∃ msg, ofLine 0 (ascii ":saiv!s@h PRIVMSG #c d :hi") = .ok msg ∧
      msg.pieces = [⟨1, 4⟩, ⟨6, 1⟩, ⟨8, 2⟩, ⟨10, 7⟩, ⟨18, 2⟩, ⟨21, 1⟩, ⟨24, 2⟩] := ⟨_, rfl, by decide⟩
  exact ⟨msg, parsed, views, (inPieces_iff parsed).mpr (by decide)⟩

/-- The line is its command and its first parameter. -/
theorem lone_command_overlaps :
    ¬ ∀ (time : TimePoint) (line : Bytes) (msg : IRCMessage), line ≠ [] → ofLine time line = .ok msg →
      msg.InPieces := by
  intro inPieces
  obtain ⟨msg, parsed, views⟩ : ∃ msg, ofLine 0 (ascii "PING") = .ok msg ∧ msg.pieces = [⟨0, 4⟩, ⟨0, 4⟩] :=
    ⟨_, rfl, by decide⟩
  have apart := (inPieces 0 _ msg (by decide) parsed).apart
  rw [views] at apart
  exact absurd apart (by decide)

end IRCMessage

end SaivBot
