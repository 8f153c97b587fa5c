import SaivBot.Message.Totality

/-! Well-formed IRC lines and what the parser reports for them.

`WellFormed` is the wire grammar on its own terms; the parser is compared with
it through rendering only.
-/

set_option autoImplicit false

namespace SaivBot
open StringView

/-- A line with its optional origin and trailing part. With neither parameters nor a trailing part
the line would end behind the command, which the grammar leaves out. -/
structure WellFormed where
  origin : Option Bytes
  command : Bytes
  params : List Bytes
  trailing : Option Bytes
  originClean : ∀ word ∈ origin, Byte.space ∉ word
  commandWord : IsWord command
  paramsWords : ∀ param ∈ params, IsWord param
  argument : params ≠ [] ∨ trailing ≠ none

namespace WellFormed

def originText : Option Bytes → Bytes
  | none => []
  | some word => Byte.colon :: word ++ [Byte.space]

def trailingText : Option Bytes → Bytes
  | none => []
  | some body => Byte.space :: Byte.colon :: body

def argumentsText (params : List Bytes) (trailing : Option Bytes) : Bytes :=
  params.flatMap (Byte.space :: ·) ++ trailingText trailing

def render (line : WellFormed) : Bytes :=
  originText line.origin ++ line.command ++ argumentsText line.params line.trailing

theorem argumentsText_cons (param : Bytes) (params : List Bytes) (trailing : Option Bytes) :
    argumentsText (param :: params) trailing =
      Byte.space :: (param ++ argumentsText params trailing) := by
  simp [argumentsText]

/-- What is rendered behind the command starts with a space. -/
theorem argumentsText_start {params : List Bytes} {trailing : Option Bytes}
    (argument : params ≠ [] ∨ trailing ≠ none) :
    ∃ text, argumentsText params trailing = Byte.space :: text := by
  cases params with
  | nil =>
    obtain ⟨body, rfl⟩ := Option.ne_none_iff_exists'.mp (argument.resolve_left (by simp))
    exact ⟨Byte.colon :: body, by simp [argumentsText, trailingText]⟩
  | cons param params => exact ⟨_, argumentsText_cons param params trailing⟩

/-- Rendered arguments are read back. Induction on the parameters; what is behind a parameter decides
whether it ends at a space or at the end of the line. -/
theorem splitArguments_render {params : List Bytes} {trailing : Option Bytes}
    (words : ∀ param ∈ params, IsWord param) {text : Bytes}
    (shape : argumentsText params trailing = Byte.space :: text) :
    splitArguments text = (params, trailing.getD []) := by
  induction params generalizing text with
  | nil =>
    cases trailing with
    | none => cases shape
    | some body =>
      obtain rfl : Byte.colon :: body = text := by simpa [argumentsText, trailingText] using shape
      exact splitArguments_colon body
  | cons param params ih =>
    have word := words param (by simp)
    rw [argumentsText_cons, List.cons.injEq] at shape
    obtain ⟨-, rfl⟩ := shape
    -- Something follows and the parameter ends at its space, or the line ends with it.
    by_cases argument : params ≠ [] ∨ trailing ≠ none
    · obtain ⟨text, start⟩ := argumentsText_start argument
      rw [start, splitArguments_word word.clean word.start,
        ih (fun p member => words p (by simp [member])) start]
    · simp only [not_or, not_not] at argument
      obtain ⟨rfl, rfl⟩ := argument
      have last : argumentsText [] none = [] := rfl
      rw [last, List.append_nil, splitArguments_last word]
      rfl

/-- The parser inverts rendering on command, parameters and body. -/
theorem parse_render (line : WellFormed) (time : TimePoint) :
    ∃ msg, IRCMessage.ofLine time line.render = .ok msg ∧ msg.getCommand = line.command ∧
      msg.getParams = line.params ∧ msg.getBody = line.trailing.getD [] := by
  obtain ⟨text, start⟩ := argumentsText_start line.argument
  have spelled : ∃ nick, Spells nick line.command text line.render := by
    have rendered : line.render = originText line.origin ++ line.command ++ Byte.space :: text := by
      rw [render, start]
    cases origin : line.origin with
    | none =>
      rw [origin] at rendered
      exact ⟨_, _, .none, rendered⟩
    | some word =>
      rw [origin] at rendered
      exact ⟨_, _, .some (line.originClean word (by rw [origin]; rfl)), rendered⟩
  obtain ⟨nick, spells⟩ := spelled
  have nonempty : line.render ≠ [] := by simp [render, line.commandWord.nonempty]
  obtain ⟨msg, arguments, parsed, readOff⟩ := IRCMessage.ofLine_total nonempty time
  obtain ⟨-, command, rfl⟩ := readOff.shape.eq_of_spells line.commandWord spells
  have split := readOff.arguments
  rw [splitArguments_render line.paramsWords start, Prod.mk.injEq] at split
  exact ⟨msg, parsed, command, split⟩

end WellFormed

end SaivBot
