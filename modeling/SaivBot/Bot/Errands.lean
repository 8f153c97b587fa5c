import SaivBot.Bot.Querying
import SaivBot.Bot.Unbroken

/-! The downloads and uploads a command has started, and the lines they hand to the send strand.

A line begins with the nick of the user. Behind it stand fixed texts and numbers, but
for the link, which is what the upload host has sent back.
-/

set_option autoImplicit false

namespace SaivBot
open Program ReadBuffer DelimitedLines

open Finding (Event)

/-- The callback of `clip`'s upload. -/
def clipCommandCallback (ircMsg : IRCMessage) (str : Bytes) : Except Abort Bytes :=
  ircMsg.replyLine (ircMsg.getNick ++ ascii ", " ++ str)

/-- A query is downloading logs, and a `find` perhaps uploading; a clip is uploading. The number of targets
may be zero. -/
inductive Errand where
  | count (query : CountQuery) (request : LogRequest) (downloader : LogDownloader CountShared)
  | find (query : FindQuery) (request : LogRequest) (downloader : LogDownloader FindShared)
  | clip (ircMsg : IRCMessage) (uploader : NuulsUploader)

namespace Errand

/-- `run`, with the query of the plan. A message that names no channel is never answered, for its answers throw. -/
inductive Starts (env : Environment) : Posted → Errand → Prop where
  | count {plan : QueryPlan} {asker : Request} {request : LogRequest} {query : CountQuery} :
      plan.countQuery env asker = .ok query →
      Starts env (.download .count plan asker.ircMsg request)
        (.count query request (LogDownloader.run (CountQuery.start request.targets.length)))
  | find {plan : QueryPlan} {asker : Request} {request : LogRequest} {sorting : TimeSort} {query : FindQuery} :
      plan.findQuery env sorting asker = .ok query →
      Starts env (.download .find plan asker.ircMsg request)
        (.find query request (LogDownloader.run (FindQuery.start request.targets.length)))
  | clip {text : Bytes} {ircMsg : IRCMessage} :
      Starts env (.upload text ircMsg) (.clip ircMsg (NuulsUploader.run text))

/-- The errand after a handler has run, and the lines the handler has posted. -/
def step : Errand → Event → Option (Errand × List Bytes)
  | .count query request s, .downloads event =>
    (query.step request s event).map fun s' =>
      (.count query request s', s'.shared.posted.drop s.shared.posted.length)
  | .find query request s, event =>
    (query.step request s event).map fun s' =>
      (.find query request s', s'.shared.posted.drop s.shared.posted.length)
  | .clip ircMsg uploader, .uploads operation ec body =>
    (uploader.step operation ec body).map fun (uploader, called) =>
      (.clip ircMsg uploader, called.toList.flatMap fun str => (clipCommandCallback ircMsg str).toOption.toList)
  | .count .., .uploads .. | .clip .., .downloads _ => none

/-- What a step is, for each kind of errand. -/
inductive Moves : Errand → Event → Errand → List Bytes → Prop where
  | count {query : CountQuery} {request : LogRequest} {s s' : LogDownloader CountShared} {event : Downloading.Event} :
      query.step request s event = some s' →
      Moves (.count query request s) (.downloads event) (.count query request s')
        (s'.shared.posted.drop s.shared.posted.length)
  | find {query : FindQuery} {request : LogRequest} {s s' : LogDownloader FindShared} {event : Event} :
      query.step request s event = some s' →
      Moves (.find query request s) event (.find query request s') (s'.shared.posted.drop s.shared.posted.length)
  | clip {ircMsg : IRCMessage} {uploader uploader' : NuulsUploader} {operation : Uploading.Operation} {ec : ErrorCode}
      {body : Bytes} {called : Option Bytes} : uploader.step operation ec body = some (uploader', called) →
      Moves (.clip ircMsg uploader) (.uploads operation ec body) (.clip ircMsg uploader')
        (called.toList.flatMap fun str => (clipCommandCallback ircMsg str).toOption.toList)

theorem moves_of_step {errand errand' : Errand} {event : Event} {lines : List Bytes}
    (stepped : errand.step event = some (errand', lines)) : Moves errand event errand' lines := by
  cases errand with
  | count query request s =>
    cases event with
    | uploads operation ec body => cases stepped
    | downloads event =>
      obtain ⟨s', moved, same⟩ := Option.map_eq_some_iff.mp stepped
      cases same
      exact .count moved
  | find query request s =>
    obtain ⟨s', moved, same⟩ := Option.map_eq_some_iff.mp stepped
    cases same
    exact .find moved
  | clip ircMsg uploader =>
    cases event with
    | downloads event => cases stepped
    | uploads operation ec body =>
      obtain ⟨⟨uploader', called⟩, moved, same⟩ := Option.map_eq_some_iff.mp stepped
      cases same
      exact .clip moved

/-! Where line breaks can come from. -/

/-- The body that the host sends back has no line break. -/
def UnbrokenBody (event : Event) : Prop := ∀ body, event = .uploads .read .success body → NoLineBreak body

/-- Neither the message, nor what has been posted, nor the body that has been read has a line break. -/
def Unbroken : Errand → Prop
  | .count query _ s => NoLineBreak query.request.ircMsg.data ∧ ∀ line ∈ s.shared.posted, NoLineBreak line
  | .find query _ s => NoLineBreak query.request.ircMsg.data ∧ (∀ line ∈ s.shared.posted, NoLineBreak line) ∧
      ∀ upload, s.shared.upload = some upload → NoLineBreak upload.response
  | .clip ircMsg uploader => NoLineBreak ircMsg.data ∧ NoLineBreak uploader.response

theorem Starts.unbroken {env : Environment} {posted : Posted} {errand : Errand} (starts : Starts env posted errand)
    (clean : posted.Unbroken) : errand.Unbroken := by
  cases starts with
  | count made =>
    obtain ⟨-, rfl, -⟩ := QueryPlan.countQuery_spec made
    exact ⟨clean, by simp [LogDownloader.run, CountQuery.start]⟩
  | find made =>
    obtain ⟨-, rfl, -⟩ := QueryPlan.findQuery_spec made
    refine ⟨clean, by simp [LogDownloader.run, FindQuery.start], ?_⟩
    simp [LogDownloader.run, FindQuery.start]
  | clip => exact ⟨clean, clean_nil⟩

/-- An answer that is put behind what has been posted. -/
theorem noLineBreak_posted {posted : List Bytes} {line : Bytes} (earlier : ∀ line ∈ posted, NoLineBreak line)
    (clean : NoLineBreak line) : ∀ other ∈ posted ++ [line], NoLineBreak other := by
  rw [List.forall_mem_append]
  exact ⟨earlier, by simpa using clean⟩

/-- The line to the channel of a request. -/
theorem noLineBreak_answer {request : Request} (clean : NoLineBreak request.ircMsg.data) {text : Bytes}
    (fixed : NoLineBreak text) : NoLineBreak (privmsg request.channel (request.ircMsg.getNick ++ text)) :=
  IRCMessage.noLineBreak_replyLine clean (noLineBreak_named clean fixed) (request.replyLine _)

/-- A link has a line break exactly when the body has one. -/
theorem noLineBreak_link {ircMsg : IRCMessage} (clean : NoLineBreak ircMsg.data) {str line : Bytes}
    (made : clipCommandCallback ircMsg str = .ok line) : NoLineBreak line ↔ NoLineBreak str := by
  constructor
  · intro fine
    unfold clipCommandCallback IRCMessage.replyLine at made
    split at made
    · cases named : ircMsg.firstParam with
      | error abort =>
        rw [named] at made
        cases made
      | ok channel =>
        rw [named] at made
        cases made
        exact (clean_append.mp (noLineBreak_privmsg.mp fine).2).2
    · split at made
      · cases made
        exact (clean_append.mp (noLineBreak_whisper.mp fine).2).2
      · cases made
  · intro body
    refine IRCMessage.noLineBreak_replyLine clean ?_ made
    rw [List.append_assoc]
    exact noLineBreak_named clean (clean_append.mpr ⟨noLineBreak_comma, body⟩)

/-! What the handlers of each errand post. -/

theorem posted_countCommandCallback {query : CountQuery} {log : Log} {shared next : CountShared}
    (called : query.countCommandCallback log shared = .ok next) :
    next.posted = shared.posted ∨
      ∃ count, next.posted = shared.posted ++ [privmsg query.request.channel (query.countReply count)] := by
  obtain ⟨count, counted⟩ := CountQuery.callback_returns_iff.mp ⟨next, called⟩
  rcases Nat.lt_trichotomy shared.referenceCount 1 with spent | last | more
  · rw [CountQuery.callback_ignored counted (Nat.lt_one_iff.mp spent)] at called
    cases called
    exact .inl rfl
  · rw [CountQuery.callback_last counted last] at called
    cases called
    exact .inr ⟨_, rfl⟩
  · rw [CountQuery.callback_waiting counted more] at called
    cases called
    exact .inl rfl

theorem unbroken_countStep {query : CountQuery} {request : LogRequest} {s s' : LogDownloader CountShared}
    {event : Downloading.Event} (unbroken : (Errand.count query request s).Unbroken)
    (stepped : query.step request s event = some s') : (Errand.count query request s').Unbroken := by
  obtain ⟨clean, posted⟩ := unbroken
  refine ⟨clean, ?_⟩
  rcases LogDownloader.step_shared stepped with same | ⟨log, called⟩ | refused
  · rwa [same]
  · rcases posted_countCommandCallback called with same | ⟨count, same⟩
    · rwa [same]
    · rw [same]
      have colon : NoLineBreak (ascii ", count: ") := by decide
      refine noLineBreak_posted posted ?_
      rw [CountQuery.countReply, List.append_assoc]
      exact noLineBreak_answer clean (clean_append.mpr ⟨colon, noLineBreak_decimal count⟩)
  · change query.countCommandErrorHandler s.shared = _ at refused
    rw [query.errorHandler_ok] at refused
    rw [← Except.ok.inj refused]
    refine noLineBreak_posted posted ?_
    rw [CountQuery.errorReply, List.append_assoc]
    exact noLineBreak_answer clean (by decide)

theorem posted_findCommandCallback {query : FindQuery} {log : Log} {shared next : FindShared}
    (called : query.findCommandCallback log shared = .ok next) :
    (next.upload = shared.upload ∨ ∃ text, next.upload = some (NuulsUploader.run text)) ∧
      (next.posted = shared.posted ∨
        next.posted = shared.posted ++ [privmsg query.request.channel query.noHitReply]) := by
  unfold FindQuery.findCommandCallback at called
  dsimp only at called
  split at called
  · split at called
    · split at called
      · obtain ⟨str, -, same⟩ := except_bind_eq_ok.mp called
        cases same
        exact ⟨.inr ⟨str, rfl⟩, .inl rfl⟩
      · rw [query.request.replyLine] at called
        cases called
        exact ⟨.inl rfl, .inr rfl⟩
    · cases called
      exact ⟨.inl rfl, .inl rfl⟩
  · cases called
    exact ⟨.inl rfl, .inl rfl⟩

/-- The response is what the host has sent, and that is what is called back with. -/
theorem unbroken_uploader {uploader uploader' : NuulsUploader} {operation : Uploading.Operation} {ec : ErrorCode}
    {body : Bytes} {called : Option Bytes} (stepped : uploader.step operation ec body = some (uploader', called))
    (clean : NoLineBreak uploader.response) (fine : UnbrokenBody (.uploads operation ec body)) :
    NoLineBreak uploader'.response ∧ ∀ str ∈ called, NoLineBreak str := by
  obtain ⟨-, response, calls⟩ := NuulsUploader.step_texts stepped
  refine ⟨?_, fun str asked => (calls str asked).1 ▸ clean⟩
  rcases response with same | ⟨rfl, rfl, same⟩
  · exact same ▸ clean
  · exact same ▸ fine body rfl

theorem unbroken_findStep {query : FindQuery} {request : LogRequest} {s s' : LogDownloader FindShared} {event : Event}
    (unbroken : (Errand.find query request s).Unbroken) (fine : UnbrokenBody event)
    (stepped : query.step request s event = some s') : (Errand.find query request s').Unbroken := by
  obtain ⟨clean, posted, responses⟩ := unbroken
  refine ⟨clean, ?_⟩
  cases event with
  | downloads event =>
    rcases LogDownloader.step_shared stepped with same | ⟨log, called⟩ | refused
    · rw [same]
      exact ⟨posted, responses⟩
    · obtain ⟨upload, lines⟩ := posted_findCommandCallback called
      constructor
      · rcases lines with same | same
        · rwa [same]
        · rw [same]
          exact noLineBreak_posted posted (noLineBreak_answer clean (by decide))
      · rcases upload with same | ⟨text, same⟩
        · rwa [same]
        · rw [same]
          rintro _ ⟨⟩
          exact clean_nil
    · change query.findCommandErrorHandler s.shared = _ at refused
      rw [Finding.errorHandler_ok] at refused
      rw [← Except.ok.inj refused]
      refine ⟨noLineBreak_posted posted ?_, responses⟩
      rw [FindQuery.errorReply, List.append_assoc]
      exact noLineBreak_answer clean (by decide)
  | uploads operation ec body =>
    obtain ⟨shared, uploaded, rfl⟩ := Option.map_eq_some_iff.mp stepped
    obtain ⟨upload, next, called, running, moved, rfl⟩ := FindQuery.uploads_cases uploaded
    obtain ⟨response, calls⟩ := unbroken_uploader moved (responses upload running) fine
    constructor
    · cases called with
      | none => simpa using posted
      | some str =>
        refine noLineBreak_posted posted ?_
        rw [FindQuery.linkLine, List.append_assoc]
        exact noLineBreak_answer clean (clean_append.mpr ⟨noLineBreak_comma, calls str rfl⟩)
    · rintro _ ⟨⟩
      exact response

/-- One case for each errand. -/
theorem Unbroken.step {errand errand' : Errand} {event : Event} {lines : List Bytes} (unbroken : errand.Unbroken)
    (fine : UnbrokenBody event) (stepped : errand.step event = some (errand', lines)) :
    errand'.Unbroken ∧ ∀ line ∈ lines, NoLineBreak line := by
  cases errand with
  | count query request s =>
    cases event with
    | uploads operation ec body => cases stepped
    | downloads event =>
      obtain ⟨s', moved, same⟩ := Option.map_eq_some_iff.mp stepped
      cases same
      have unbroken' := unbroken_countStep unbroken moved
      exact ⟨unbroken', fun line member => unbroken'.2 line (List.mem_of_mem_drop member)⟩
  | find query request s =>
    obtain ⟨s', moved, same⟩ := Option.map_eq_some_iff.mp stepped
    cases same
    have unbroken' := unbroken_findStep unbroken fine moved
    exact ⟨unbroken', fun line member => unbroken'.2.1 line (List.mem_of_mem_drop member)⟩
  | clip ircMsg uploader =>
    cases event with
    | downloads event => cases stepped
    | uploads operation ec body =>
      obtain ⟨clean, response⟩ := unbroken
      obtain ⟨⟨uploader', called⟩, moved, same⟩ := Option.map_eq_some_iff.mp stepped
      cases same
      obtain ⟨response', calls⟩ := unbroken_uploader moved response fine
      refine ⟨⟨clean, response'⟩, ?_⟩
      intro line member
      obtain ⟨str, asked, member⟩ := List.mem_flatMap.mp member
      cases made : clipCommandCallback ircMsg str with
      | error abort => simp [made, Except.toOption] at member
      | ok answer =>
        obtain rfl : line = answer := by simpa [made, Except.toOption] using member
        exact (noLineBreak_link clean made).mpr (calls str (Option.mem_toList.mp asked))

end Errand

end SaivBot
