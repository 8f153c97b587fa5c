import SaivBot.Message.Shape
import SaivBot.Program
import SaivBot.Text.Span

/-! Every line but the empty one is parsed, and the parser reports what it says.

The parser reads element 0 four times and removes three prefixes. Only the first
read can fail.
-/

set_option autoImplicit false

namespace SaivBot
open StringView

namespace IRCMessage

/-- The loop reports the parameters, one behind the other, and stops in front of the body. Induction on the
fuel, one word of the text at a time. -/
theorem parseParams_total {msg : IRCMessage} {view : View} (inside : view.Inside msg.data) {fuel : Nat}
    (enough : view.size ≤ fuel) :
    ∃ views rest,
      parseParams msg fuel view = .ok ({ msg with paramsVec := msg.paramsVec ++ views }, rest) ∧
      rest.Inside msg.data ∧ View.Spans view.start views rest.start ∧ rest.stop = view.stop ∧
      views.map (·.text msg.data) = (splitArguments (view.text msg.data)).1 ∧
      (rest.text msg.data = [] ∧ (splitArguments (view.text msg.data)).2 = [] ∧ ¬ HasTrailing (view.text msg.data) ∨
        rest.text msg.data = Byte.colon :: (splitArguments (view.text msg.data)).2 ∧
          HasTrailing (view.text msg.data)) := by
  induction fuel generalizing msg view with
  | zero =>
    have length := View.length_text inside
    have empty : view.text msg.data = [] := List.length_eq_zero_iff.mp (by omega)
    exact ⟨[], view, by simp [parseParams, pure, Except.pure], inside, Nat.le_refl _, rfl, by simp [empty],
      by simp [empty]⟩
  | succ fuel ih =>
    -- Nothing left, a body, the last word of the line, or a word with more behind it.
    rcases arguments_cases (view.text msg.data) with empty | ⟨body, colon⟩ | word | ⟨word, tail, shape, clean, start⟩
    · refine ⟨[], view, ?_, inside, Nat.le_refl _, rfl, by simp [empty], by simp [empty]⟩
      rw [parseParams_stop inside (Or.inl empty), List.append_nil]
    · refine ⟨[], view, ?_, inside, Nat.le_refl _, rfl, by simp [colon], by simp [colon]⟩
      rw [parseParams_stop inside (Or.inr ⟨body, colon⟩), List.append_nil]
    · have split := splitArguments_last word
      refine ⟨[view], view.drop view.size, ?_, View.inside_drop inside (Nat.le_refl _),
        ⟨Nat.le_refl _, Nat.le_refl _⟩, by simp [View.stop, View.drop], ?_, Or.inl ?_⟩
      · exact parseParams_last inside rfl word.nonempty word.clean word.start
      · simp [split]
      · simp [split, ← View.length_text inside, hasTrailing_of_clean word.clean, word.noColon]
    · obtain ⟨inside', text⟩ := View.behind_word inside shape
      have length := View.length_text inside
      rw [shape, List.length_append, List.length_cons] at length
      have size : (view.drop (word.length + 1)).size = view.size - (word.length + 1) := rfl
      obtain ⟨views, rest, parsed, insideRest, spans, stop, params, body⟩ :=
        @ih (msg.pushParam (view.slice 0 (some word.length))) _ inside' (by rw [size]; omega)
      have behind : (view.drop (word.length + 1)).text (msg.pushParam (view.slice 0 (some word.length))).data = tail :=
        text
      rw [behind] at params body
      have noColon : ¬ StartsColon word := fun colon => start ((startsColon_iff word).mp colon)
      rw [shape, splitArguments_word clean start, hasTrailing_word clean, or_iff_right noColon]
      refine ⟨view.slice 0 (some word.length) :: views, rest, ?_, insideRest, ⟨Nat.le_refl _, ?_⟩, ?_, ?_, body⟩
      · rw [parseParams_word inside shape clean start]
        simpa [pushParam] using parsed
      · apply spans.lower
        simp only [View.stop, View.slice, View.drop]
        omega
      · rw [stop]
        simp only [View.stop, View.drop]
        omega
      · rw [List.map_cons, ← params]
        simp [shape, pushParam]

theorem parseArguments_total (msg : IRCMessage) (noBody : msg.bodyView = none) {view : View}
    (inside : view.Inside msg.data) :
    ∃ views body,
      parseArguments msg view =
        .ok { msg with paramsVec := msg.paramsVec ++ views, bodyView := body } ∧
      View.Spans view.start (views ++ body.toList) view.stop ∧ (body.isSome ↔ HasTrailing (view.text msg.data)) ∧
      (views.map (·.text msg.data), msg.fieldText body) = splitArguments (view.text msg.data) := by
  obtain ⟨views, rest, parsed, insideRest, spans, stop, params, body⟩ :=
    parseParams_total inside (Nat.le_refl view.size)
  have size := View.length_text insideRest
  simp only [parseArguments, parsed, bind, Except.bind]
  rcases body with ⟨empty, noText, noTrailing⟩ | ⟨colon, trailing⟩
  · rw [empty] at size
    refine ⟨views, none, ?_, ?_, iff_of_false nofun noTrailing, Prod.ext params noText.symm⟩
    · simp only [← size, List.length_nil, ↓reduceIte, ← noBody]
      rfl
    · exact spans.append (stop ▸ rest.start_le_stop)
  · rw [colon, List.length_cons] at size
    refine ⟨views, some (rest.slice 1 none), ?_, ?_, iff_of_true rfl trailing, Prod.ext params ?_⟩
    · have nonzero : rest.size ≠ 0 := by omega
      simp only [nonzero, ↓reduceIte]
      exact parseBody_colon { msg with paramsVec := msg.paramsVec ++ views } insideRest colon
    · refine spans.append ⟨Nat.le_add_right _ _, ?_⟩
      rw [← stop]
      simp only [View.Spans, View.stop, View.slice]
      omega
    · simp [fieldText, colon]

theorem parseCommand_total (msg : IRCMessage) (fresh : msg.paramsVec = []) (noBody : msg.bodyView = none)
    {view : View} (inside : view.Inside msg.data) (nonempty : view.text msg.data ≠ []) :
    ∃ command views body,
      parseCommand msg view =
        .ok { msg with commandView := some command, paramsVec := views, bodyView := body } ∧
      ∃ arguments, CommandShape (view.text msg.data) (command.text msg.data) arguments ∧
        (body.isSome ↔ HasTrailing arguments) ∧
        (views.map (·.text msg.data), msg.fieldText body) = splitArguments arguments := by
  rcases split_space (view.text msg.data) with clean | ⟨word, tail, shape, clean⟩
  · have inside' : (view.drop 0).Inside msg.data := View.inside_drop inside (Nat.zero_le _)
    obtain ⟨views, body, parsed, -, trailing, arguments⟩ :=
      parseArguments_total { msg with commandView := some (view.slice 0 none) } noBody inside'
    have text : (view.drop 0).text msg.data = view.text msg.data := by simp
    refine ⟨view.slice 0 none, views, body, ?_, view.text msg.data, ?_, text ▸ trailing, text ▸ arguments⟩
    · rw [parseCommand_whole inside clean nonempty, parsed]
      simp only [fresh, List.nil_append]
    · rw [View.text_slice_none, List.drop_zero]
      exact .lone clean
  · obtain ⟨inside', rest⟩ := View.behind_word inside shape
    have command : (view.slice 0 (some word.length)).text msg.data = word := by
      simp [shape]
    rw [parseCommand_space inside shape clean]
    by_cases stop : tail = []
    · refine ⟨view.slice 0 (some word.length), [], none, ?_, tail, ?_, ?_, ?_⟩
      · simp only [stop, ↓reduceIte, ← fresh, ← noBody]
      · rw [command]
        exact .spaced shape clean
      · simp [stop]
      · rw [stop]
        rfl
    · obtain ⟨views, body, parsed, -, trailing, arguments⟩ := parseArguments_total
        { msg with commandView := some (view.slice 0 (some word.length)) } noBody inside'
      refine ⟨view.slice 0 (some word.length), views, body, ?_, tail, ?_, rest ▸ trailing, rest ▸ arguments⟩
      · simpa only [stop, ↓reduceIte, fresh, List.nil_append] using parsed
      · rw [command]
        exact .spaced shape clean

/-- The message reports what the line says. -/
structure ReadOff (line : Bytes) (msg : IRCMessage) (arguments : Bytes) : Prop where
  data : msg.data = line
  shape : LineShape line msg.getNick msg.getCommand arguments
  arguments : (msg.getParams, msg.getBody) = splitArguments arguments

theorem plain_total {line : Bytes} (nonempty : line ≠ []) (plain : ¬ StartsColon line)
    (time : TimePoint) : ∃ msg arguments, ofLine time line = .ok msg ∧ ReadOff line msg arguments := by
  let msg : IRCMessage := { time, data := line }
  obtain ⟨c, rest, shape⟩ := List.exists_cons_of_ne_nil nonempty
  have start : c ≠ Byte.colon := fun colon => plain ⟨rest, by rw [shape, colon]⟩
  obtain ⟨command, views, body, parsed, arguments, commandShape, -, split⟩ :=
    parseCommand_total msg rfl rfl (View.inside_whole _) (by simpa [msg] using nonempty)
  rw [View.text_whole] at commandShape
  refine ⟨{ msg with commandView := some command, paramsVec := views, bodyView := body }, arguments, ?_,
    rfl, .plain plain commandShape, split⟩
  change parseImplementation msg = _
  rw [parseImplementation_plain shape start, parsed]

/-- A line that is all origin: the text behind it is the line again. -/
theorem lone_total {word : Bytes} (clean : Byte.space ∉ word) (time : TimePoint) :
    ∃ msg arguments, ofLine time (Byte.colon :: word) = .ok msg ∧
      ReadOff (Byte.colon :: word) msg arguments := by
  let msg : IRCMessage := { time, data := Byte.colon :: word }
  have whole := View.inside_whole msg.data
  have clean' : Byte.space ∉ msg.data := by simpa [msg] using ⟨by decide, clean⟩
  obtain ⟨nick, user, host, named, nickText⟩ := parsePrefix_frame msg
    ((View.whole msg.data).slice 1 none) (View.inside_slice whole (by simp [View.whole, msg]) _)
  have insideRest : ((View.whole msg.data).drop 0).Inside msg.data :=
    View.inside_drop whole (Nat.zero_le _)
  obtain ⟨command, views, body, parsed, arguments, commandShape, -, split⟩ := parseCommand_total
    { msg with nickView := nick, userView := user, hostView := host } rfl rfl insideRest (by simp [msg])
  -- Without a space nothing was removed, and the whole line is scanned again.
  have lone : command.text msg.data = msg.data ∧ arguments = msg.data := by
    rw [View.text_drop, View.text_whole, List.drop_zero] at commandShape
    change CommandShape msg.data (command.text msg.data) arguments at commandShape
    generalize command.text msg.data = text at commandShape ⊢
    cases commandShape with
    | lone _ => exact ⟨rfl, rfl⟩
    | spaced split _ => exact absurd (by rw [split]; simp) clean'
  refine ⟨{ msg with
    nickView := nick, userView := user, hostView := host
    commandView := some command, paramsVec := views, bodyView := body }, arguments, ?_, rfl, ?_, split⟩
  · change parseImplementation msg = _
    rw [parseImplementation_lone rfl clean, named]
    exact parsed
  · change LineShape msg.data (msg.fieldText nick) (command.text msg.data) arguments
    rw [nickText, lone.1, lone.2, View.text_slice_none, View.text_whole]
    exact .lone rfl clean

theorem origin_total {word : Bytes} (clean : Byte.space ∉ word) (tail : Bytes) (time : TimePoint) :
    ∃ msg arguments, ofLine time (Byte.colon :: word ++ Byte.space :: tail) = .ok msg ∧
      ReadOff (Byte.colon :: word ++ Byte.space :: tail) msg arguments := by
  let msg : IRCMessage := { time, data := Byte.colon :: word ++ Byte.space :: tail }
  obtain ⟨insideMask, mask⟩ := mask_view msg rfl
  obtain ⟨nick, user, host, named, nickText⟩ := parsePrefix_frame msg _ insideMask
  rw [mask] at nickText
  by_cases stop : tail = []
  · refine ⟨{ msg with nickView := nick, userView := user, hostView := host }, [], ?_, rfl, ?_, rfl⟩
    · change parseImplementation msg = _
      rw [parseImplementation_origin rfl clean, named]
      simp only [Except.bind, stop, ↓reduceIte]
    · change LineShape msg.data (msg.fieldText nick) [] []
      rw [nickText]
      exact .originOnly (by simp [msg, stop]) clean
  · obtain ⟨insideRest, text⟩ := behind_view msg rfl
    obtain ⟨command, views, body, parsed, arguments, commandShape, -, split⟩ := parseCommand_total
      { msg with nickView := nick, userView := user, hostView := host } rfl rfl insideRest
      (by rw [text]; exact stop)
    rw [text] at commandShape
    refine ⟨{ msg with
      nickView := nick, userView := user, hostView := host
      commandView := some command, paramsVec := views, bodyView := body }, arguments, ?_, rfl, ?_, split⟩
    · change parseImplementation msg = _
      rw [parseImplementation_origin rfl clean, named]
      simp only [Except.bind, stop, ↓reduceIte]
      exact parsed
    · change LineShape msg.data (msg.fieldText nick) (command.text msg.data) arguments
      rw [nickText]
      exact .origin rfl clean stop commandShape

theorem ofLine_total {line : Bytes} (nonempty : line ≠ []) (time : TimePoint) :
    ∃ msg arguments, ofLine time line = .ok msg ∧ ReadOff line msg arguments := by
  by_cases colon : StartsColon line
  · obtain ⟨rest, rfl⟩ := colon
    rcases split_space rest with clean | ⟨word, tail, rfl, clean⟩
    · exact lone_total clean time
    · exact origin_total clean tail time
  · exact plain_total nonempty colon time

/-- The ways through the parser, each with its calls. -/
inductive Route (msg : IRCMessage) : IRCMessage → Prop where
  | plain {parsed : IRCMessage} : msg.data ≠ [] → ¬ StartsColon msg.data →
      parseCommand msg (View.whole msg.data) = .ok parsed → Route msg parsed
  /-- An origin without a space is read again. -/
  | lone {word : Bytes} {named parsed : IRCMessage} : msg.data = Byte.colon :: word → Byte.space ∉ word →
      parsePrefix msg ((View.whole msg.data).slice 1 none) = .ok named →
      parseCommand named ((View.whole msg.data).drop 0) = .ok parsed → Route msg parsed
  | originOnly {word : Bytes} {named : IRCMessage} : msg.data = Byte.colon :: word ++ [Byte.space] →
      Byte.space ∉ word →
      parsePrefix msg ((View.whole msg.data).slice 1 (some (word.length + 1))) = .ok named → Route msg named
  | origin {word tail : Bytes} {named parsed : IRCMessage} : msg.data = Byte.colon :: word ++ Byte.space :: tail →
      Byte.space ∉ word → tail ≠ [] →
      parsePrefix msg ((View.whole msg.data).slice 1 (some (word.length + 1))) = .ok named →
      parseCommand named ((View.whole msg.data).drop (word.length + 2)) = .ok parsed → Route msg parsed

theorem route_of_ok {msg parsed : IRCMessage} (done : parseImplementation msg = .ok parsed) : Route msg parsed := by
  by_cases nonempty : msg.data = []
  · simp [parseImplementation, View.front, View.text, nonempty, bind, Except.bind] at done
  by_cases colon : StartsColon msg.data
  · obtain ⟨rest, shape⟩ := colon
    rcases split_space rest with clean | ⟨word, tail, rfl, clean⟩
    · rw [parseImplementation_lone shape clean] at done
      obtain ⟨named, called, done⟩ := Program.except_bind_eq_ok.mp done
      exact .lone shape clean called done
    · rw [parseImplementation_origin shape clean] at done
      obtain ⟨named, called, done⟩ := Program.except_bind_eq_ok.mp done
      split at done
      · next stop =>
        cases done
        exact .originOnly (stop ▸ shape) clean called
      · next more => exact .origin shape clean more called done
  · obtain ⟨c, rest, shape⟩ := List.exists_cons_of_ne_nil nonempty
    have start : c ≠ Byte.colon := fun same => colon ⟨rest, by rw [shape, same]⟩
    rw [parseImplementation_plain shape start] at done
    exact .plain nonempty colon done

end IRCMessage

end SaivBot
