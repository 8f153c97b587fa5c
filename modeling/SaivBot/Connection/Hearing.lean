import SaivBot.Connection.Draining
import SaivBot.Message.Grammar
import SaivBot.Message.LineBreaks

/-! What can be read from what has been written.

The bytes of a connection are read by the receiving half of another bot, in chunks of
its own. It finds the lines that were handed to the sending half, in their order and
with the command, the parameters and the text they were made of.
-/

set_option autoImplicit false

namespace SaivBot
open Transition StringView ReadBuffer DelimitedLines WellFormed

/-- A line as the bot puts it together: a command and its arguments, if any, and no origin. -/
structure Spoken where
  command : Bytes
  params : List Bytes
  trailing : Option Bytes
  commandWord : IsWord command
  paramsWords : ∀ param ∈ params, IsWord param

namespace Spoken

def text (said : Spoken) : Bytes := said.command ++ argumentsText said.params said.trailing

/-- The parser takes a command with nothing behind it for its own parameter. -/
def heardParams (said : Spoken) : List Bytes :=
  if said.params = [] ∧ said.trailing = none then [said.command] else said.params

/-- U+206D. -/
def mark : Bytes := [0xE2, 0x81, 0xAD]

theorem isWord_mark : IsWord mark := ⟨by decide, by decide, by decide⟩

/-- The line as it is written right behind itself: with the mark in its text, or as one more parameter. -/
def repeated (said : Spoken) : Spoken :=
  match said.trailing with
  | some body => { said with trailing := some (body ++ Sender.transparent) }
  | none => { said with
      params := said.params ++ [mark]
      paramsWords := by
        intro param member
        rcases List.mem_append.mp member with old | new
        · exact said.paramsWords param old
        · exact List.mem_singleton.mp new ▸ isWord_mark }

theorem text_repeated (said : Spoken) : said.repeated.text = said.text ++ Sender.transparent := by
  obtain ⟨command, params, trailing, commandWord, paramsWords⟩ := said
  cases trailing with
  | none => simp [repeated, text, argumentsText, trailingText, mark, Sender.transparent, Byte.space]
  | some body => simp [repeated, text, argumentsText, trailingText]

end Spoken

/-- Whenever the line is read, the parser reports what was said. -/
def Hears (said : Spoken) (line : Bytes) : Prop :=
  ∀ time, ∃ msg, IRCMessage.ofLine time line = .ok msg ∧ msg.getCommand = said.command ∧
    msg.getParams = said.heardParams ∧ msg.getBody = said.trailing.getD []

/-- The parser reports what a line is made of. -/
theorem hears_text (said : Spoken) : Hears said said.text := by
  intro time
  have plain : ¬ StartsColon said.text := said.commandWord.append_noColon _
  have nonempty : said.text ≠ [] := by simp [Spoken.text, said.commandWord.nonempty]
  obtain ⟨msg, arguments, parsed, readOff⟩ := IRCMessage.ofLine_total nonempty time
  have shape := (readOff.shape.plain_inv plain).2
  have split := readOff.arguments
  refine ⟨msg, parsed, ?_⟩
  by_cases alone : said.params = [] ∧ said.trailing = none
  · -- The only word of the line is its command and its arguments.
    have word : said.text = said.command := by
      rw [Spoken.text, alone.1, alone.2]
      exact List.append_nil _
    rw [word] at shape
    generalize msg.getCommand = command at shape ⊢
    cases shape with
    | lone =>
      rw [splitArguments_last said.commandWord, Prod.mk.injEq] at split
      refine ⟨rfl, split.1.trans ?_, split.2.trans ?_⟩
      · rw [Spoken.heardParams, if_pos alone]
      · rw [alone.2]
        rfl
    | spaced cut =>
      have clean := said.commandWord.clean
      rw [cut] at clean
      exact absurd (by simp) clean
  · have argument : said.params ≠ [] ∨ said.trailing ≠ none := by
      by_contra nothing
      simp only [not_or, not_not] at nothing
      exact alone nothing
    obtain ⟨behind, start⟩ := argumentsText_start argument
    have cut : said.text = said.command ++ Byte.space :: behind := by rw [Spoken.text, start]
    obtain ⟨command, same⟩ := shape.eq_of_spaced cut said.commandWord.clean
    rw [same, splitArguments_render said.paramsWords start, Prod.mk.injEq] at split
    rw [Spoken.heardParams, if_neg alone]
    exact ⟨command, split⟩

/-- A line that says something and is one line. -/
def Utters (said : Spoken) (line : Bytes) : Prop := said.text = line ∧ NoLineBreak line

theorem noLineBreak_transparent : NoLineBreak Sender.transparent := by decide

/-- A text on the wire is heard as what was said, or as its repetition. -/
theorem hears_carried {text line : Bytes} (carries : Sender.Carries text line) {said : Spoken} (utters : Utters said line) :
    (Hears said text ∨ Hears said.repeated text) ∧ NoLineBreak text := by
  obtain ⟨rfl, clean⟩ := utters
  rcases carries with rfl | rfl
  · exact ⟨.inl (hears_text said), clean⟩
  · refine ⟨.inr ?_, clean_append.mpr ⟨clean, noLineBreak_transparent⟩⟩
    rw [← said.text_repeated]
    exact hears_text said.repeated

/-- What was said of each line and its text on the wire. Induction on the texts. -/
theorem hears_each {texts lines : List Bytes} (carried : List.Forall₂ Sender.Carries texts lines)
    (spoken : ∀ line ∈ lines, ∃ said, Utters said line) :
    List.Forall₂ (fun line text => ∃ said, Utters said line ∧ (Hears said text ∨ Hears said.repeated text)) lines texts ∧
      ∀ text ∈ texts, NoLineBreak text := by
  induction carried with
  | nil => exact ⟨.nil, nofun⟩
  | cons carries _ ih =>
    obtain ⟨said, utters⟩ := spoken _ List.mem_cons_self
    obtain ⟨hears, clean⟩ := hears_carried carries utters
    obtain ⟨each, others⟩ := ih fun line member => spoken line (List.mem_cons_of_mem _ member)
    exact ⟨.cons ⟨said, utters, hears⟩ each, List.forall_mem_cons.mpr ⟨clean, others⟩⟩

/-- In chunks that cut no line end, texts on the wire are read one by one. -/
theorem reads_texts {texts chunks : List Bytes} (clean : ∀ text ∈ texts, NoLineBreak text)
    (whole : ∀ chunk ∈ chunks, WholePairs chunk) (stream : chunks.flatten = (texts.map (· ++ crlf)).flatten) :
    onReads ([], []) chunks = .ok (texts, []) := by
  have start : NoLineBreak (([], []) : List Bytes × Bytes).2 := clean_nil
  rw [onReads_paired whole start, List.nil_append, List.nil_append, stream]
  exact congrArg Except.ok (splitPairs_flatten clean)

/-- What a connection with no RECONNECT and no failing write has written so far, read in chunks that cut no line end,
is what was handed to it behind the login, in one order: each line is heard as it was said, or with U+206D behind it
where it repeats the line before. At rest nothing is missing. -/
theorem heard_run (start : Sender) (queue : start.sendQueue = []) (idle : start.sendQueueBusy = false)
    (nothing : start.operations = 0) (events : List Sender.Event) (s : Sender)
    (ran : run Sender.undisturbedStep start.onHandshake events = some s)
    (spoken : ∀ line ∈ start.loginLines ++ (start.sendHandlers ++ events.flatMap Sender.handed), ∃ said, Utters said line)
    (chunks : List Bytes) (whole : ∀ chunk ∈ chunks, WholePairs chunk) (stream : chunks.flatten = s.written.flatten) :
    ∃ order lines : List Bytes, order.Perm (start.sendHandlers ++ events.flatMap Sender.handed) ∧
      onReads ([], []) chunks = .ok (lines, []) ∧
      List.Forall₂ (fun line heard => ∃ said, Utters said line ∧ (Hears said heard ∨ Hears said.repeated heard))
        ((start.loginLines ++ order).take lines.length) lines ∧
      (s.AtRest → start.sendHandlers ++ events.flatMap Sender.handed ≠ [] →
        lines.length = (start.loginLines ++ order).length) := by
  have known := Sender.handed_run queue idle nothing ran
  obtain ⟨texts, delivering⟩ := known.delivers
  obtain ⟨later, pushed⟩ : ∃ later, s.pushed = start.loginLines ++ later := by
    rw [← known.identity]
    exact delivering.login
  have permuted : (later ++ s.sendHandlers).Perm (start.sendHandlers ++ events.flatMap Sender.handed) := by
    have lines := known.lines
    rw [pushed, List.append_assoc] at lines
    exact (List.perm_append_left_iff _).mp lines
  -- What is on the wire are the first lines pushed; those that wait for their handler come behind all of them.
  have taken : (start.loginLines ++ (later ++ s.sendHandlers)).take texts.length = s.pushed.take texts.length := by
    rw [← List.append_assoc, ← pushed, List.take_append_of_le_length delivering.delivered.length_le]
  have uttered : ∀ line ∈ s.pushed.take texts.length, ∃ said, Utters said line := by
    intro line member
    apply spoken
    have inside := List.mem_of_mem_take member
    rw [pushed, List.mem_append] at inside
    refine List.mem_append.mpr (inside.imp_right fun behind => ?_)
    exact permuted.mem_iff.mp (List.mem_append_left _ behind)
  obtain ⟨each, clean⟩ := hears_each delivering.delivered.carried uttered
  rw [delivering.delivered.written] at stream
  refine ⟨later ++ s.sendHandlers, texts, permuted, reads_texts clean whole stream, ?_, ?_⟩
  · rw [taken]
    exact each
  · intro rest some
    have written := known.written rest
    rw [if_neg some] at written
    obtain ⟨order, others, permuted', same, carried⟩ := written
    have counted : texts.length = others.length := by
      have sameLength := congrArg List.length (delivering.delivered.written.symm.trans same)
      simpa only [List.length_map] using sameLength
    rw [counted, carried.length_eq, List.length_append, List.length_append, permuted'.length_eq, permuted.length_eq]

/-! A login and a line behind it, in two chunks. -/

def spokenWord (command param : Bytes) (commandWord : IsWord command) (paramWord : IsWord param) : Spoken where
  command := command
  params := [param]
  trailing := none
  commandWord := commandWord
  paramsWords := fun _ member => List.mem_singleton.mp member ▸ paramWord

def cutChunks : List Bytes := [ascii "PASS sec", ascii "ret\r\nNICK saiv\r\nJOIN #saiv\r\n"]

theorem whole_cutChunks : ∀ chunk ∈ cutChunks, WholePairs chunk := by
  have first : NoLineBreak (ascii "PASS sec") := by decide
  have joins : WholePairs (ascii "JOIN #saiv" ++ (crlf ++ [])) := wholePairs_line (by decide) .nil
  have nicks : WholePairs (ascii "NICK saiv" ++ (crlf ++ (ascii "JOIN #saiv" ++ (crlf ++ [])))) :=
    wholePairs_line (by decide) joins
  have second := @wholePairs_line (ascii "ret") _ (by decide) nicks
  intro chunk member
  rcases List.mem_cons.mp member with rfl | member
  · exact first.paired
  · rw [List.mem_singleton.mp member]
    exact second

theorem heard_run_sample : ∃ s lines, run Sender.undisturbedStep Sender.sampleSender.onHandshake Sender.joining = some s ∧
    s.AtRest ∧ onReads ([], []) cutChunks = .ok (lines, []) ∧ lines.length = 3 := by
  have facts : (run Sender.undisturbedStep Sender.sampleSender.onHandshake Sender.joining).map
      (fun s => (s.written.flatten, s.sendHandlers, s.operations)) = some (cutChunks.flatten, [], 0) := by decide
  obtain ⟨s, ran, values⟩ := Option.map_eq_some_iff.mp facts
  simp only [Prod.mk.injEq] at values
  obtain ⟨stream, handlers, nothing⟩ := values
  have rest : s.AtRest := Sender.atRest_iff.mpr ⟨handlers, nothing⟩
  have word (text : Bytes) (nonempty : text ≠ []) (clean : Byte.space ∉ text) (start : text.head? ≠ some Byte.colon) :
      IsWord text := ⟨nonempty, clean, start⟩
  have spoken : ∀ line ∈ Sender.sampleSender.loginLines ++ (Sender.sampleSender.sendHandlers ++
      Sender.joining.flatMap Sender.handed), ∃ said, Utters said line := by
    intro line member
    have one : line = ascii "PASS " ++ ascii "secret" ∨ line = ascii "NICK " ++ ascii "saiv" ∨
        line = ascii "JOIN #saiv" := by
      simpa [Sender.loginLines, Sender.sampleSender, Sender.joining, Sender.handed] using member
    rcases one with rfl | rfl | rfl
    · exact ⟨spokenWord (ascii "PASS") (ascii "secret") (word _ (by decide) (by decide) (by decide))
        (word _ (by decide) (by decide) (by decide)), rfl, by decide⟩
    · exact ⟨spokenWord (ascii "NICK") (ascii "saiv") (word _ (by decide) (by decide) (by decide))
        (word _ (by decide) (by decide) (by decide)), rfl, by decide⟩
    · exact ⟨spokenWord (ascii "JOIN") (ascii "#saiv") (word _ (by decide) (by decide) (by decide))
        (word _ (by decide) (by decide) (by decide)), rfl, by decide⟩
  obtain ⟨order, lines, permuted, read, -, all⟩ :=
    heard_run Sender.sampleSender rfl rfl rfl Sender.joining s ran spoken cutChunks whole_cutChunks stream.symm
  refine ⟨s, lines, ran, rest, read, (all rest (by simp [Sender.joining, Sender.handed])).trans ?_⟩
  rw [List.length_append, permuted.length_eq]
  rfl

end SaivBot
