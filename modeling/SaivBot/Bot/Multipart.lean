import SaivBot.Bot.Commands
import SaivBot.Logs.Finding
import SaivBot.Text.Delimiter

/-! What the host reads in an upload.

The boundary is known to everybody, so a message may contain it. A delimiter needs a
line break in front of two dashes, and every line of a dump begins with its time.
-/

set_option autoImplicit false

namespace SaivBot
open StringView Program

namespace Multipart

/-- A part of a `multipart/form-data` body. -/
structure Part where
  headers : Bytes
  data : Bytes
  /-- What stands behind the delimiter that ends the data. -/
  behind : Bytes
  deriving DecidableEq

def opening (boundary : Bytes) : Bytes := ascii "--" ++ boundary ++ crlf
def delimiter (boundary : Bytes) : Bytes := crlf ++ ascii "--" ++ boundary

/-- The headers end at the first empty line, and the data at the first delimiter. -/
def decode (boundary body : Bytes) : Option Part :=
  if (opening boundary).isPrefixOf body then do
    let lines := body.drop (opening boundary).length
    let size ← findText (crlf ++ crlf) lines
    let content := lines.drop (size + (crlf ++ crlf).length)
    let length ← findText (delimiter boundary) content
    return {
      headers := lines.take size
      data := content.take length
      behind := content.drop (length + (delimiter boundary).length) }
  else none

theorem decode_of_found {boundary headers data behind : Bytes}
    (blank : findText (crlf ++ crlf) (headers ++ (crlf ++ crlf)) = some headers.length)
    (ends : findText (delimiter boundary) (data ++ (delimiter boundary ++ behind)) = some data.length) :
    decode boundary (opening boundary ++ (headers ++ (crlf ++ crlf) ++ (data ++ (delimiter boundary ++ behind)))) =
      some ⟨headers, data, behind⟩ := by
  have starts : (opening boundary).isPrefixOf
      (opening boundary ++ (headers ++ (crlf ++ crlf) ++ (data ++ (delimiter boundary ++ behind)))) = true :=
    List.isPrefixOf_iff_prefix.mpr (List.prefix_append _ _)
  have content (xs : Bytes) : (headers ++ (crlf ++ crlf) ++ xs).drop (headers.length + (crlf ++ crlf).length) = xs := by
    rw [← List.length_append, List.drop_left]
  have rest : (data ++ (delimiter boundary ++ behind)).drop (data.length + (delimiter boundary).length) = behind := by
    rw [← List.append_assoc, ← List.length_append, List.drop_left]
  have front (xs : Bytes) : (headers ++ (crlf ++ crlf) ++ xs).take headers.length = headers := by
    rw [List.append_assoc, List.take_left]
  simp only [decode, starts, ↓reduceIte, List.drop_left, findText_extend blank, front, content, ends, rest,
    Option.bind_eq_bind, Option.bind_some, List.take_left]
  rfl

end Multipart

open Multipart

namespace NuulsUploader

def partHeaders : Bytes :=
  ascii "Content-Disposition: form-data; name=xddd; filename=xddd.png" ++ crlf ++ ascii "Content-Type: text/plain"

/-- The host takes out of the body what was put in, and finds it closed behind that. -/
def Recovers (text : Bytes) : Prop :=
  decode boundary (packBody text) = some ⟨partHeaders, text, ascii "--"⟩ ∧
    delimiter boundary ++ ascii "--" <:+ packBody text

theorem packBody_parts (text : Bytes) :
    packBody text =
      opening boundary ++ (partHeaders ++ (crlf ++ crlf) ++ (text ++ (delimiter boundary ++ ascii "--"))) := by
  simp only [packBody, opening, partHeaders, delimiter, List.append_assoc]

/-- The delimiter is found behind the text, so the host takes out the text. -/
theorem recovers_of_found {text : Bytes}
    (ends : findText (delimiter boundary) (text ++ (delimiter boundary ++ ascii "--")) = some text.length) :
    Recovers text := by
  have blank : findText (crlf ++ crlf) (partHeaders ++ (crlf ++ crlf)) = some partHeaders.length := by decide
  rw [Recovers, packBody_parts]
  refine ⟨decode_of_found blank ends, ?_⟩
  exact ⟨opening boundary ++ (partHeaders ++ (crlf ++ crlf) ++ text), by simp only [List.append_assoc]⟩

/-- What is written for a time: on one line, and no delimiter's beginning. -/
structure PlainStamp (stamp : Bytes) : Prop where
  unbroken : Byte.newline ∉ stamp
  undashed : ¬ ascii "--" <+: stamp

/-- An entry of a dump: a time, a space, and text on the same line. -/
inductive Entry : Bytes → Prop where
  | mk {stamp rest : Bytes} : PlainStamp stamp → Byte.newline ∉ rest →
      Entry (stamp ++ Byte.space :: rest ++ [Byte.newline])

theorem PlainStamp.not_dashes {stamp : Bytes} (plain : PlainStamp stamp) (rest more : Bytes) :
    ¬ ascii "--" ++ more <+: stamp ++ Byte.space :: rest := by
  intro starts
  have dashes : ascii "--" = [45, 45] := by decide
  have begun := (List.prefix_append (ascii "--") more).trans starts
  rw [dashes] at begun
  -- The dashes would take up the space if they were not the stamp's own.
  match stamp, plain with
  | [], _ => simp [Byte.space] at begun
  | [c], _ => simp [Byte.space] at begun
  | c :: d :: stamp, plain =>
    apply plain.undashed
    rw [dashes]
    simpa using begun

/-- However long the dump is and whatever the lines say. -/
theorem recovers_flatten {texts : List Bytes} (each : ∀ text ∈ texts, Entry text) : Recovers texts.flatten := by
  have lines : ∀ text ∈ texts, ∃ line, text = line ++ [Byte.newline] ∧ Byte.newline ∉ line ∧
      ¬ ascii "--" ++ boundary <+: line := by
    intro text member
    obtain ⟨plain, unbroken⟩ := each text member
    refine ⟨_, rfl, ?_, plain.not_dashes _ _⟩
    simp only [List.mem_append, List.mem_cons, not_or]
    exact ⟨plain.unbroken, by decide, unbroken⟩
  obtain ⟨lines, same, fine⟩ := exists_endLines lines
  rw [same]
  apply recovers_of_found
  exact findText_endLines (by decide) (by decide) (by decide) (fun line member => (fine line member).1)
    (fun line member => (fine line member).2) _

theorem entry_of_parts {stamp rest text : Bytes} (plain : PlainStamp stamp) (unbroken : Byte.newline ∉ rest)
    (shape : text = stamp ++ ascii " " ++ rest ++ ascii "\n") : Entry text := by
  have gap : ascii " " = [Byte.space] := by decide
  have ending : ascii "\n" = [Byte.newline] := by decide
  rw [shape, gap, ending, List.append_assoc stamp, List.singleton_append]
  exact .mk plain unbroken

end NuulsUploader

open NuulsUploader

/-- Nothing that is said breaks the line. -/
structure FoundLine.Unbroken (found : FoundLine) : Prop where
  channel : ∀ channelName, found.channel = some channelName → Byte.newline ∉ channelName
  name : Byte.newline ∉ found.line.getNameView
  message : Byte.newline ∉ found.line.getMessageView

theorem clipText_entries {env : Environment} (stamps : ∀ time, PlainStamp (env.showTime time)) {lines : List IRCMessage}
    (unbroken : ∀ msg ∈ lines, Byte.newline ∉ msg.getNick ∧ Byte.newline ∉ msg.getBody) :
    ∃ texts : List Bytes, clipText env lines = texts.flatten ∧ ∀ text ∈ texts, Entry text := by
  refine ⟨_, List.flatMap_def, fun text member => ?_⟩
  obtain ⟨msg, inside, rfl⟩ := List.mem_map.mp member
  obtain ⟨nick, body⟩ := unbroken msg inside
  have rest : Byte.newline ∉ msg.getNick ++ ascii ": " ++ msg.getBody := by
    simp only [List.mem_append, not_or]
    exact ⟨⟨nick, by decide⟩, body⟩
  exact entry_of_parts (stamps msg.time) rest (by simp only [List.append_assoc])

theorem dumpLine_entry {query : FindQuery} (stamps : ∀ time, PlainStamp (query.showTime time)) {found : FoundLine}
    (unbroken : found.Unbroken) {text : Bytes} (dumped : query.dumpLine found = .ok text) : Entry text := by
  unfold FindQuery.dumpLine at dumped
  split at dumped
  · cases dumped
  · next channelName known =>
    cases dumped
    have rest : Byte.newline ∉ ascii "#" ++ channelName ++ ascii " " ++ found.line.getNameView ++ ascii ": " ++
        found.line.getMessageView := by
      simp only [List.mem_append, not_or]
      exact ⟨⟨⟨⟨⟨by decide, unbroken.channel channelName known⟩, by decide⟩, unbroken.name⟩, by decide⟩,
        unbroken.message⟩
    have marked : ascii " #" = ascii " " ++ ascii "#" := by decide
    exact entry_of_parts (stamps found.line.time) rest (by simp only [marked, List.append_assoc])

theorem dumpFunc_entries {query : FindQuery} (stamps : ∀ time, PlainStamp (query.showTime time)) {lines : List FoundLine}
    (unbroken : ∀ found ∈ lines, found.Unbroken) {text : Bytes} (dumped : query.dumpFunc lines = .ok text) :
    ∃ texts : List Bytes, text = texts.flatten ∧ ∀ text ∈ texts, Entry text := by
  obtain ⟨texts, each, same⟩ := except_bind_eq_ok.mp dumped
  cases same
  refine ⟨texts, rfl, fun text member => ?_⟩
  have printed := map_of_mapM each
  have entry : Except.ok text ∈ (query.sorting.sort lines).map query.dumpLine := by
    rw [printed]
    exact List.mem_map.mpr ⟨text, member, rfl⟩
  obtain ⟨found, inside, shown⟩ := List.mem_map.mp entry
  exact dumpLine_entry stamps (unbroken found ((query.sorting.perm lines).mem_iff.mp inside)) shown

/-- Whatever is dumped, the host takes it out of the upload as it was. -/
theorem dumps_recovered {env : Environment} {query : FindQuery} (clipStamps : ∀ time, PlainStamp (env.showTime time))
    (findStamps : ∀ time, PlainStamp (query.showTime time)) :
    (∀ lines : List IRCMessage, (∀ msg ∈ lines, Byte.newline ∉ msg.getNick ∧ Byte.newline ∉ msg.getBody) →
      Recovers (clipText env lines)) ∧
    ∀ (lines : List FoundLine) (text : Bytes), (∀ found ∈ lines, found.Unbroken) →
      query.dumpFunc lines = .ok text → Recovers text := by
  refine ⟨fun lines unbroken => ?_, fun lines text unbroken dumped => ?_⟩
  · obtain ⟨texts, same, entries⟩ := clipText_entries clipStamps unbroken
    rw [same]
    exact recovers_flatten entries
  · obtain ⟨texts, rfl, entries⟩ := dumpFunc_entries findStamps unbroken dumped
    exact recovers_flatten entries

/-! Somebody says the delimiter. -/

def epochStamp : Bytes := ascii "1970-01-01 00:00:00.000000000"

def boundaryMessage : IRCMessage where
  time := 0
  data := ascii ":saiv!s@h PRIVMSG #c :\r--" ++ boundary
  nickView := some ⟨1, 4⟩
  userView := some ⟨6, 1⟩
  hostView := some ⟨8, 2⟩
  commandView := some ⟨10, 7⟩
  paramsVec := [⟨18, 2⟩]
  bodyView := some ⟨22, 28⟩

def boundaryLine : FoundLine where
  channel := some (ascii "c")
  line := {
    address := 0
    line := ascii "[1970-01-01 00:00:00] #c saiv: --" ++ boundary
    timeView := ⟨1, 19⟩
    time := 0
    nameView := ⟨25, 4⟩
    messageView := ⟨31, 27⟩ }

theorem dumps_recovered_boundary :
    Recovers (clipText { bareEnvironment with showTime := fun _ => epochStamp } [boundaryMessage, boundaryMessage]) ∧
      Recovers (epochStamp ++ ascii " #c saiv: --" ++ boundary ++ ascii "\n") := by
  have stamp : PlainStamp epochStamp := ⟨by decide, by decide⟩
  obtain ⟨clip, find⟩ := @dumps_recovered { bareEnvironment with showTime := fun _ => epochStamp }
    { Finding.sampleJob.query with showTime := fun _ => epochStamp } (fun _ => stamp) (fun _ => stamp)
  refine ⟨clip _ ?_, find [boundaryLine] _ ?_ ?_⟩
  · decide
  · intro found member
    rw [List.mem_singleton.mp member]
    exact ⟨by rintro channelName ⟨⟩; decide, by decide, by decide⟩
  · rfl

end SaivBot
