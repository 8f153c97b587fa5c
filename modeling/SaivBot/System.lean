import SaivBot.Bot.Errands
import SaivBot.Bot.Loading
import SaivBot.Bot.Rearming
import SaivBot.Connection.Framing

/-! The whole bot: its read strand, its send strand, and what its commands have started elsewhere.

They share nothing but posted work, so a step of the system is a step of one of them; a
handshake belongs to both strands.
-/

set_option autoImplicit false

namespace SaivBot
open Program BotState Transition ReadBuffer DelimitedLines

structure System where
  bot : BotState
  sender : Sender
  errands : List Errand

/-- Work for the send strand. -/
def Posted.sends : Posted → Bool
  | .sendIRC _ | .suspendWrite => true
  | _ => false

namespace System

inductive Event where
  | reading (event : ReadStrand.Event)
  | sending (event : Sender.Event)
  | handshake
  /-- Work the read strand has posted reaches the send strand, or is started. -/
  | dispatch (index : Nat)
  | start (index : Nat)
  | running (index : Nat) (event : Finding.Event)

/-- Events of the send strand that no other part of the bot takes part in. -/
def Own : Sender.Event → Prop
  | .post _ | .handshake false => False
  | _ => True

/-- Posted work is taken off. -/
def taken (bot : BotState) (index : Nat) : BotState := { bot with posted := bot.posted.eraseIdx index }

/-- The lines a handler posts, one after the other. -/
def accepted (sender : Sender) (lines : List Bytes) : Sender :=
  lines.foldl (fun sender line => sender.accept (.sendIRC line)) sender

variable (env : Environment)

inductive Step : System → Event → System → Prop where
  | reading {s : System} {event : ReadStrand.Event} {bot : BotState} : event ≠ .handshake →
      ReadStrand.Step env s.bot event bot → Step s (.reading event) { s with bot }
  | sending {s : System} {event : Sender.Event} {sender : Sender} : Own event →
      s.sender.step event = some sender → Step s (.sending event) { s with sender }
  | handshake {s : System} {bot : BotState} {sender : Sender} : s.sender.step (.handshake false) = some sender →
      ReadStrand.Step env s.bot .handshake bot → Step s .handshake { s with bot, sender }
  | dispatch {s : System} {index : Nat} {work : Posted} : s.bot.posted[index]? = some work → work.sends = true →
      Step s (.dispatch index) { s with bot := taken s.bot index, sender := s.sender.accept work }
  | start {s : System} {index : Nat} {work : Posted} {errand : Errand} : s.bot.posted[index]? = some work →
      Errand.Starts env work errand →
      Step s (.start index) { s with bot := taken s.bot index, errands := s.errands ++ [errand] }
  | running {s : System} {index : Nat} {event : Finding.Event} {errand errand' : Errand} {lines : List Bytes} :
      s.errands[index]? = some errand → errand.step event = some (errand', lines) →
      Step s (.running index event)
        { s with sender := accepted s.sender lines, errands := s.errands.set index errand' }

/-- The upload host sends a body without a line break, and a reconnect finds no operation of the send queue
under way. -/
def Careful (s : System) : Event → Prop
  | .sending .reconnect => s.sender.operations = 0
  | .running _ event => Errand.UnbrokenBody event
  | _ => True

def CarefulStep (s : System) (event : Event) (s' : System) : Prop := Step env s event s' ∧ Careful s event

/-- The bot has read its configuration file and has begun to connect. -/
structure Started (file : ConfigFile) (s : System) : Prop where
  bot : ∃ text, s.bot = loaded file text
  constructed : s.sender.Constructed
  login : s.sender.nick = file.nick ∧ s.sender.password = file.password
  written : s.sender.written = []
  errands : s.errands = []

/-- No party holds a text with a line break that can become a line. -/
structure Unbroken (s : System) : Prop where
  bot : s.bot.Unbroken
  sender : s.sender.Framing
  errands : ∀ errand ∈ s.errands, errand.Unbroken

variable {env} {s s' : System}

theorem Started.unbroken {file : ConfigFile} (started : Started file s)
    (login : NoLineBreak file.nick ∧ NoLineBreak file.password)
    (channels : ∀ channel ∈ file.channels, NoLineBreak channel) : Unbroken s := by
  refine ⟨?_, started.constructed.framing ?_ started.written, by simp [started.errands]⟩
  · obtain ⟨text, same⟩ := started.bot
    rw [same]
    refine ⟨login.1, ?_, by simp [loaded], by simp [loaded]⟩
    intro channel member
    rw [← AList.lookup_isSome, lookup_loaded] at member
    by_cases named : channel ∈ file.channels
    · exact channels channel named
    · simp [named] at member
  · rw [started.login.1, started.login.2]
    exact ⟨login.2, login.1⟩

theorem Unbroken.taken (unbroken : s.bot.Unbroken) (index : Nat) : (taken s.bot index).Unbroken :=
  unbroken.take fun _ member => List.mem_of_mem_eraseIdx member

theorem framing_accepted {lines : List Bytes} {sender : Sender} (framing : sender.Framing)
    (clean : ∀ line ∈ lines, NoLineBreak line) : (accepted sender lines).Framing := by
  induction lines generalizing sender with
  | nil => exact framing
  | cons line lines ih =>
    have settled : sender.Settled (.post (.sendIRC line)) := by
      rintro _ ⟨⟩
      exact clean line (by simp)
    exact ih (framing.step settled rfl) fun other member => clean other (by simp [member])

/-- One case for each party. -/
theorem Unbroken.step {event : Event} (libraries : env.Unbroken) (unbroken : Unbroken s)
    (step : CarefulStep env s event s') : Unbroken s' := by
  obtain ⟨step, careful⟩ := step
  cases step with
  | reading _ step =>
    exact ⟨ReadStrand.unbroken_step libraries unbroken.bot step, unbroken.sender, unbroken.errands⟩
  | @sending event sender own ran =>
    refine ⟨unbroken.bot, unbroken.sender.step ?_ ran, unbroken.errands⟩
    cases event with
    | post work => exact own.elim
    | reconnect => exact careful
    | _ => trivial
  | handshake ran step =>
    have settled : s.sender.Settled (.handshake false) := trivial
    exact ⟨ReadStrand.unbroken_step libraries unbroken.bot step, unbroken.sender.step settled ran,
      unbroken.errands⟩
  | @dispatch index work posted _ =>
    have clean : work.Unbroken := unbroken.bot.posted work (List.mem_of_getElem? posted)
    have settled : s.sender.Settled (.post work) := by
      rintro line rfl
      exact clean
    exact ⟨Unbroken.taken unbroken.bot index, unbroken.sender.step settled rfl, unbroken.errands⟩
  | @start index work errand posted starts =>
    have clean : work.Unbroken := unbroken.bot.posted work (List.mem_of_getElem? posted)
    refine ⟨Unbroken.taken unbroken.bot index, unbroken.sender, ?_⟩
    rw [List.forall_mem_append]
    exact ⟨unbroken.errands, by simpa using starts.unbroken clean⟩
  | @running index event errand errand' lines found ran =>
    obtain ⟨clean, answers⟩ := (unbroken.errands errand (List.mem_of_getElem? found)).step careful ran
    refine ⟨unbroken.bot, framing_accepted unbroken.sender answers, ?_⟩
    intro other member
    rcases List.mem_or_eq_of_mem_set member with old | rfl
    · exact unbroken.errands other old
    · exact clean

/-- Whatever the server sends and the users write: as long as the upload host sends bodies without a line break
and no reconnect overtakes an operation of the send queue, each write is one line. -/
theorem writes_lines {file : ConfigFile} {start : System} (libraries : env.Unbroken) (started : Started file start)
    (login : NoLineBreak file.nick ∧ NoLineBreak file.password)
    (channels : ∀ channel ∈ file.channels, NoLineBreak channel)
    (reached : Reaches (CarefulStep env) start s) : ∀ text ∈ s.sender.written, OneLine text := by
  have unbroken : Unbroken s :=
    reached.invariant (started.unbroken login channels) fun unbroken step => unbroken.step libraries step
  exact unbroken.sender.written

/-- The send strand runs on its own. -/
theorem reaches_sending {env : Environment} {s : System} (events : List Sender.Event) {sender : Sender}
    (own : ∀ event ∈ events, Own event ∧ event ≠ .reconnect) (ran : run Sender.step s.sender events = some sender) :
    Reaches (CarefulStep env) s { s with sender } := by
  induction events generalizing s with
  | nil =>
    cases ran
    exact .refl
  | cons event events ih =>
    obtain ⟨next, first, rest⟩ := Option.bind_eq_some_iff.mp ran
    obtain ⟨alone, other⟩ := own event (by simp)
    have careful : Careful s (.sending event) := by
      cases event with
      | reconnect => exact absurd rfl other
      | _ => trivial
    have step : CarefulStep env s (.sending event) { s with sender := next } := ⟨.sending alone first, careful⟩
    exact .head ⟨_, step⟩ (@ih { s with sender := next } (fun other member => own other (by simp [member])) rest)

/-! A whitelisted user asks for a clip, and the upload host answers with more than a link. -/

/-- A parser that has read `clip -lines_from_now 1`. -/
def clipParser : OptionParser :=
  { ReadStrand.wordParser with
    parse := fun _ _ => ⟨fun _ => none, fun _ => none, fun _ => none, fun _ => some 1, fun _ => false⟩ }

def clipEnvironment : Environment := { bareEnvironment with optionParser := clipParser }

theorem unbroken_clipEnvironment : clipEnvironment.Unbroken where
  extractFirstWord := by
    intro input word rest extracted
    simp only [clipEnvironment, clipParser, ReadStrand.wordParser] at extracted
    split at extracted
    · cases extracted
    · cases extracted
      exact fun _ member => List.dropWhile_subset _ (List.mem_of_mem_drop member)
  parse := nofun
  showSeconds _ := clean_nil

def clipFile : ConfigFile where
  host := []
  port := []
  nick := ascii "saiv"
  password := ascii "secret"
  modlist := []
  whitelist := [ascii "u"]
  channels := [ascii "#c"]

def sampleSystem : System := ⟨loaded clipFile [], Sender.sampleSender, []⟩

theorem started_sampleSystem : Started clipFile sampleSystem :=
  ⟨⟨[], rfl⟩, Sender.constructed_sampleSender, ⟨rfl, rfl⟩, rfl, rfl⟩

def connected : System where
  bot := final (ReadStrand.onHandshake clipEnvironment sampleSystem.bot)
  sender := Sender.onHandshake { Sender.sampleSender with resolves := 0 }
  errands := []

theorem reaches_connected : Reaches (CarefulStep clipEnvironment) sampleSystem connected := by
  let sender : Sender := { Sender.sampleSender with resolves := 0, handshakes := 1 }
  have connects : Reaches (CarefulStep clipEnvironment) sampleSystem { sampleSystem with sender } :=
    reaches_sending [.resolve false, .connect false] (by simp [Own]) rfl
  have meets : CarefulStep clipEnvironment { sampleSystem with sender } .handshake connected :=
    ⟨.handshake rfl .handshake, trivial⟩
  exact .tail connects ⟨_, meets⟩

def clipMessage : IRCMessage where
  time := 0
  data := ascii ":u!u@h PRIVMSG #c :saiv clip -lines_from_now 1"
  nickView := some ⟨1, 1⟩
  userView := some ⟨3, 1⟩
  hostView := some ⟨5, 2⟩
  commandView := some ⟨7, 7⟩
  paramsVec := [⟨15, 2⟩]
  bodyView := some ⟨19, 27⟩

def clipping : BotState :=
  final (ReadStrand.onRead clipEnvironment (clipMessage.data ++ crlf) (ReadStrand.completeRead connected.bot))

/-- The upload at one of its stages. -/
def uploading (bot : BotState) (pending : Option Uploading.Operation) (response : Bytes) : System where
  bot := taken bot 3
  sender := connected.sender
  errands := [.clip clipMessage ⟨NuulsUploader.packBody [], pending, response⟩]

def response : Bytes := ascii "x\r\nQUIT"

def link : Bytes := ascii "PRIVMSG #c :u, x\r\nQUIT"

def answered (bot : BotState) : System :=
  { uploading bot none response with sender := connected.sender.accept (.sendIRC link) }

def uploadOf : Posted → Option (Bytes × IRCMessage)
  | .upload text ircMsg => some (text, ircMsg)
  | _ => none

theorem posted_clipping : clipping.posted[3]? = some (.upload [] clipMessage) := by
  have found : clipping.posted[3]?.bind uploadOf = some ([], clipMessage) := by decide +kernel
  obtain ⟨work, posted, which⟩ := Option.bind_eq_some_iff.mp found
  cases work with
  | upload text ircMsg =>
    cases which
    exact posted
  | _ => cases which

theorem next_uploading {bot : BotState} (posted : bot.posted[3]? = some (.upload [] clipMessage)) :
    Next (Step clipEnvironment) { connected with bot } (uploading bot (some .resolve) []) :=
  ⟨_, .start posted .clip⟩

theorem reaches_answered (bot : BotState) :
    Reaches (Step clipEnvironment) (uploading bot (some .resolve) []) (answered bot) := by
  have goes {pending next : Option Uploading.Operation} {operation : Uploading.Operation} {body sent got : Bytes}
      (moved : NuulsUploader.step ⟨NuulsUploader.packBody [], pending, sent⟩ operation .success body =
        some (⟨NuulsUploader.packBody [], next, got⟩, none)) :
      Next (Step clipEnvironment) (uploading bot pending sent) (uploading bot next got) := by
    have ran : Errand.step (.clip clipMessage ⟨NuulsUploader.packBody [], pending, sent⟩)
        (.uploads operation .success body) =
          some (.clip clipMessage ⟨NuulsUploader.packBody [], next, got⟩, []) := by
      rw [Errand.step, moved]
      rfl
    have step : Step clipEnvironment (uploading bot pending sent) (.running 0 (.uploads operation .success body))
      { uploading bot pending sent with
        sender := accepted (uploading bot pending sent).sender []
        errands := (uploading bot pending sent).errands.set 0
          (.clip clipMessage ⟨NuulsUploader.packBody [], next, got⟩) } :=
      .running rfl ran
    exact ⟨_, step⟩
  have calls : Next (Step clipEnvironment) (uploading bot (some .shutdown) response) (answered bot) := by
    have ran : Errand.step (.clip clipMessage ⟨NuulsUploader.packBody [], some .shutdown, response⟩)
        (.uploads .shutdown .success []) =
          some (.clip clipMessage ⟨NuulsUploader.packBody [], none, response⟩, [link]) := by
      have made : clipCommandCallback clipMessage response = .ok link := by decide +kernel
      have shut : NuulsUploader.step ⟨NuulsUploader.packBody [], some .shutdown, response⟩ .shutdown .success [] =
          some (⟨NuulsUploader.packBody [], none, response⟩, some response) := rfl
      rw [Errand.step, shut]
      simp [made, Except.toOption]
    have step : Step clipEnvironment (uploading bot (some .shutdown) response)
        (.running 0 (.uploads .shutdown .success []))
        { uploading bot (some .shutdown) response with
          sender := accepted (uploading bot (some .shutdown) response).sender [link]
          errands := (uploading bot (some .shutdown) response).errands.set 0
            (.clip clipMessage ⟨NuulsUploader.packBody [], none, response⟩) } := .running rfl ran
    exact ⟨_, step⟩
  have resolve : Next (Step clipEnvironment) (uploading bot (some .resolve) []) (uploading bot (some .connect) []) :=
    @goes _ _ .resolve [] _ _ rfl
  have connect : Next (Step clipEnvironment) (uploading bot (some .connect) []) (uploading bot (some .handshake) []) :=
    @goes _ _ .connect [] _ _ rfl
  have handshake : Next (Step clipEnvironment) (uploading bot (some .handshake) []) (uploading bot (some .write) []) :=
    @goes _ _ .handshake [] _ _ rfl
  have write : Next (Step clipEnvironment) (uploading bot (some .write) []) (uploading bot (some .read) []) :=
    @goes _ _ .write [] _ _ rfl
  have read : Next (Step clipEnvironment) (uploading bot (some .read) []) (uploading bot (some .shutdown) response) :=
    @goes _ _ .read response _ _ rfl
  exact .tail (.tail (.tail (.tail (.tail (.single resolve) connect) handshake) write) read) calls

/-- A password, a nick and one more line. -/
def threeWrites : List Sender.Event :=
  [.push 0 (10 * ticksPerSecond), .complete false (10 * ticksPerSecond) (20 * ticksPerSecond),
    .complete false (20 * ticksPerSecond) (30 * ticksPerSecond)]

theorem own_threeWrites : ∀ event ∈ threeWrites, Own event ∧ event ≠ .reconnect := by
  simp [threeWrites, Own]

theorem writes_lines_sample : ∃ s, Reaches (CarefulStep clipEnvironment) sampleSystem s ∧
    s.sender.written = [ascii "PASS secret" ++ crlf, ascii "NICK saiv" ++ crlf, ascii "JOIN #saiv" ++ crlf] ∧
    ∀ text ∈ s.sender.written, OneLine text := by
  have posted : connected.bot.posted[0]? = some (.sendIRC (ascii "JOIN #saiv")) := by rfl
  have dispatch : CarefulStep clipEnvironment connected (.dispatch 0)
      { connected with
        bot := taken connected.bot 0
        sender := connected.sender.accept (.sendIRC (ascii "JOIN #saiv")) } := ⟨.dispatch posted rfl, trivial⟩
  have written : (run Sender.step (connected.sender.accept (.sendIRC (ascii "JOIN #saiv"))) threeWrites).map
      (·.written) = some [ascii "PASS secret" ++ crlf, ascii "NICK saiv" ++ crlf, ascii "JOIN #saiv" ++ crlf] := by decide
  obtain ⟨sender, ran, lines⟩ := Option.map_eq_some_iff.mp written
  have reached : Reaches (CarefulStep clipEnvironment) sampleSystem
      { connected with bot := taken connected.bot 0, sender } :=
    (reaches_connected.tail ⟨_, dispatch⟩).trans (reaches_sending threeWrites own_threeWrites ran)
  exact ⟨_, reached, lines,
    writes_lines unbroken_clipEnvironment started_sampleSystem (by decide) (by decide) reached⟩

/-- The user has asked for a clip, and the answer of the upload host goes on with a line of its own. -/
theorem body_injects_line : ¬ ∀ (env : Environment) (file : ConfigFile) (start s : System), env.Unbroken →
    Started file start → NoLineBreak file.nick ∧ NoLineBreak file.password →
    (∀ channel ∈ file.channels, NoLineBreak channel) → Reaches (Step env) start s →
    ∀ text ∈ s.sender.written, OneLine text := by
  intro lines
  have read : Step clipEnvironment connected (.reading (.read (clipMessage.data ++ crlf)))
      { connected with bot := clipping } := .reading nofun (.read (by decide +kernel))
  have written : (run Sender.step (connected.sender.accept (.sendIRC link)) threeWrites).map (·.written.getLast?) =
      some (some (link ++ crlf)) := by decide
  obtain ⟨sender, ran, last⟩ := Option.map_eq_some_iff.mp written
  have sends : Reaches (Step clipEnvironment) (answered clipping) { answered clipping with sender } :=
    (reaches_sending threeWrites own_threeWrites ran).weaken fun step => step.1
  have reached : Reaches (Step clipEnvironment) sampleSystem { answered clipping with sender } :=
    ((((reaches_connected.weaken fun step => step.1).tail ⟨_, read⟩).tail (next_uploading posted_clipping)).trans
      (reaches_answered clipping)).trans sends
  have one := lines clipEnvironment clipFile sampleSystem _ unbroken_clipEnvironment started_sampleSystem
    (by decide) (by decide) reached (link ++ crlf) (List.mem_of_getLast? last)
  have clean := oneLine_append_crlf.mp one
  revert clean
  decide

end System

end SaivBot
