import SaivBot.Connection.ReadBuffer
import SaivBot.Message.Replying
import SaivBot.Message.Totality

/-! Texts without a line break, and the lines the bot makes of them.

A line is put together from fixed texts and from pieces of what has been read. None of
the formatters adds a line break of its own.
-/

set_option autoImplicit false

namespace SaivBot
open ReadBuffer DelimitedLines StringView

/-- What `async_write` is to be given: a line and its end. -/
def OneLine (text : Bytes) : Prop := ∃ line, text = line ++ crlf ∧ NoLineBreak line

theorem oneLine_append_crlf {line : Bytes} : OneLine (line ++ crlf) ↔ NoLineBreak line := by
  constructor
  · rintro ⟨other, same, clean⟩
    rwa [List.append_cancel_right same]
  · exact fun clean => ⟨line, rfl, clean⟩

/-! The formatters. -/

theorem tolower_lineBreak {c : Byte} (clean : c ≠ Byte.carriageReturn ∧ c ≠ Byte.newline) :
    tolower c ≠ Byte.carriageReturn ∧ tolower c ≠ Byte.newline := by
  unfold tolower
  split
  · simp only [Byte.carriageReturn, Byte.newline] at clean ⊢
    grind
  · exact clean

theorem noLineBreak_toLowerCaseString {text : Bytes} (clean : NoLineBreak text) :
    NoLineBreak (toLowerCaseString text) := by
  intro c member
  obtain ⟨source, inside, rfl⟩ := List.mem_map.mp member
  exact tolower_lineBreak (clean source inside)

theorem noLineBreak_formatIRCChannelName {text : Bytes} (clean : NoLineBreak text) :
    NoLineBreak (formatIRCChannelName text) := by
  have hash : NoLineBreak [Byte.hash] := by decide
  unfold formatIRCChannelName
  split
  · exact hash
  · have lower := noLineBreak_toLowerCaseString clean
    split
    · exact lower
    · exact clean_append.mpr ⟨hash, lower⟩

theorem noLineBreak_decimal (n : Nat) : NoLineBreak (decimal n) := by
  intro c member
  obtain ⟨lower, upper⟩ := isDigit_of_mem_decimal member
  constructor
  · rintro rfl
    exact absurd lower (by decide)
  · rintro rfl
    exact absurd lower (by decide)

theorem noLineBreak_privmsg {channel msg : Bytes} :
    NoLineBreak (privmsg channel msg) ↔ NoLineBreak channel ∧ NoLineBreak msg := by
  have command : NoLineBreak (ascii "PRIVMSG ") := by decide
  have colon : NoLineBreak (ascii " :") := by decide
  simp [privmsg, command, colon]

theorem noLineBreak_joinLine {channel : Bytes} : NoLineBreak (joinLine channel) ↔ NoLineBreak channel := by
  have command : NoLineBreak (ascii "JOIN ") := by decide
  simp [joinLine, command]

theorem noLineBreak_partLine {channel : Bytes} : NoLineBreak (partLine channel) ↔ NoLineBreak channel := by
  have command : NoLineBreak (ascii "PART ") := by decide
  simp [partLine, command]

theorem noLineBreak_whisper {target msg : Bytes} :
    NoLineBreak (whisper target msg) ↔ NoLineBreak target ∧ NoLineBreak msg := by
  have command : NoLineBreak (ascii "PRIVMSG #jtv :") := by decide
  have whispers : NoLineBreak (ascii "/w ") := by decide
  have blank : NoLineBreak (ascii " ") := by decide
  simp [whisper, command, whispers, blank]

/-! The fields of a message are pieces of its line. -/

namespace IRCMessage

variable {msg : IRCMessage}

theorem data_ofLine {time : TimePoint} {line : Bytes} (parsed : ofLine time line = .ok msg) : msg.data = line := by
  have nonempty : line ≠ [] := by
    rintro rfl
    cases parsed
  obtain ⟨other, arguments, parsed', readOff⟩ := ofLine_total nonempty time
  rw [parsed] at parsed'
  cases parsed'
  exact readOff.data

variable (clean : NoLineBreak msg.data)

include clean

theorem noLineBreak_fieldText (field : Option View) : NoLineBreak (msg.fieldText field) := by
  cases field with
  | none => exact clean_nil
  | some view => exact clean.of_subset (view.text_subset msg.data)

theorem noLineBreak_getNick : NoLineBreak msg.getNick := noLineBreak_fieldText clean msg.nickView

theorem noLineBreak_getBody : NoLineBreak msg.getBody := noLineBreak_fieldText clean msg.bodyView

theorem noLineBreak_firstParam {channel : Bytes} (named : msg.firstParam = .ok channel) : NoLineBreak channel := by
  unfold firstParam at named
  split at named
  · cases named
  · next params =>
    cases named
    have member : channel ∈ msg.getParams := by rw [params]; simp
    obtain ⟨view, -, rfl⟩ := List.mem_map.mp member
    exact clean.of_subset (view.text_subset msg.data)

/-- An answer to a message has no line break if its text has none. -/
theorem noLineBreak_replyLine {reply line : Bytes} (text : NoLineBreak reply)
    (made : msg.replyLine reply = .ok line) : NoLineBreak line := by
  unfold replyLine at made
  split at made
  · cases named : msg.firstParam with
    | error abort =>
      rw [named] at made
      cases made
    | ok channel =>
      rw [named] at made
      cases made
      exact noLineBreak_privmsg.mpr ⟨noLineBreak_firstParam clean named, text⟩
  · split at made
    · cases made
      exact noLineBreak_whisper.mpr ⟨noLineBreak_getNick clean, text⟩
    · cases made

end IRCMessage

end SaivBot
