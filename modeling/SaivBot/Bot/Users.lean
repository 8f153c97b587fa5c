import SaivBot.Bot.Loading
import SaivBot.Membership

/-! Whom the bot knows as whitelisted and as moderator.

A promote and a demote store names in lower case and the lookups look for names in
lower case. The file is read as it stands.
-/

set_option autoImplicit false

namespace SaivBot
open Program BotState Transition Membership

/-- The list has the name, in any case. -/
def Listed (entries : List Bytes) (user : Bytes) : Prop :=
  ∃ entry ∈ entries, toLowerCaseString entry = toLowerCaseString user

/-- A message of a moderator that calls the command for this user. -/
def Orders (env : Environment) (file : ConfigFile) (change : WhitelistChange) (user : Bytes) (msg : IRCMessage) : Prop :=
  msg.getCommand = ascii "PRIVMSG" ∧ Listed file.modlist msg.getNick ∧
    ∃ inputLine word, calledCommand env file.nick msg.getBody = some (change.command, inputLine) ∧
      (env.optionParser.parse [⟨change.command.text.command, [.word]⟩] inputLine).text 0 = some word ∧
      toLowerCaseString word = toLowerCaseString user

/-- Whitelisted is whom the latest order has promoted, and whom the file names where there was none. The
moderators are those of the file. -/
structure Recognises (env : Environment) (file : ConfigFile) (history : List IRCMessage) (bot : BotState) : Prop where
  whitelisted : ∀ user, bot.isWhitelisted user = true ↔
    Inside (Orders env file promotion user) (Orders env file demotion user) (Listed file.whitelist user) history
  moderators : ∀ user, bot.isModerator user = true ↔ Listed file.modlist user

/-- Every entry has its lower case form in the list. -/
def LowerCaseClosed (entries : List Bytes) : Prop := ∀ entry ∈ entries, toLowerCaseString entry ∈ entries

variable {env : Environment} {tolerated : Exception → Bool} {msg : IRCMessage} {bot bot' : BotState}

/-! The whitelist after one message. -/

/-- The whitelist once the change is made, if there is one. -/
def changed (whitelist : Finset Bytes) : Option (WhitelistChange × Bytes) → Finset Bytes
  | some (change, user) => change.change user whitelist
  | none => whitelist

theorem absorbs_whitelist (silent : asked env msg bot = none) : Absorbs env msg bot (Alike BotState.whitelist) where
  posting _ _ _ := rfl
  configFile _ _ := rfl
  whitelist _ _ _ asks := by
    rw [silent] at asks
    cases asks
  channels _ _ _ := rfl
  suspendRead _ _ := rfl

/-- A change that does not apply would change nothing. -/
theorem change_of_not_applies {change : WhitelistChange} (which : change = promotion ∨ change = demotion)
    {user : Bytes} {whitelist : Finset Bytes} (not : change.applies user whitelist = false) :
    change.change user whitelist = whitelist := by
  rcases which with rfl | rfl
  · exact Finset.insert_eq_self.mpr (by simpa [promotion] using not)
  · exact Finset.erase_eq_self.mpr (by simpa [demotion] using not)

/-- The command changes the whitelist as it was asked to, whether the change can be saved or not. -/
theorem whitelist_runCommand {change : WhitelistChange} {user : Bytes} {posted : List Posted}
    (asks : asked env msg bot = some (change, user)) :
    (final (runCommand env.optionParser (commandContainers env) msg { bot with posted := posted })).whitelist =
      change.change user bot.whitelist := by
  obtain ⟨-, which, inputLine, called, names⟩ := asked_eq_some.mp asks
  have ran : runCommand env.optionParser (commandContainers env) msg { bot with posted := posted } =
      whitelistCommandFunc env change msg inputLine { bot with posted := posted } := by
    rw [runCommand_eq]
    simp only [called]
    rcases which with rfl | rfl <;> rfl
  rw [ran]
  rcases whitelistCommandFunc_cases change with
    ⟨ran, idle⟩ | ⟨other, names', -, ⟨abort, ran, -⟩ | ⟨channel, -, ran⟩⟩
  · rw [ran]
    exact (change_of_not_applies which (idle user names)).symm
  · obtain rfl : user = other := Option.some.inj (names.symm.trans names')
    rw [ran]
    rfl
  · obtain rfl : user = other := Option.some.inj (names.symm.trans names')
    rw [ran]
    exact preserves_saveConfig env (fun _ _ => rfl) _

/-- The free text fails in a fault only. -/
theorem fault_of_parseFreeMessage {abort : Abort} (failed : parseFreeMessage msg bot = .error abort bot') :
    ∃ fault, abort = .fault fault := by
  unfold parseFreeMessage at failed
  cases raffle : StringView.findText (ascii "A multi-raffle has begun") msg.getBody with
  | none =>
    rw [raffle] at failed
    cases failed
  | some pos =>
    rw [raffle] at failed
    unfold IRCMessage.firstParam at failed
    cases params : msg.getParams with
    | nil =>
      rw [params] at failed
      cases failed
      exact ⟨_, rfl⟩
    | cons param params =>
      rw [params] at failed
      cases failed

theorem whitelist_processed (ran : processed env tolerated bot msg = some bot') :
    bot'.whitelist = changed bot.whitelist (asked env msg bot) := by
  have after := final_of_processed ran
  cases asks : asked env msg bot with
  | none =>
    rw [after]
    exact leads_processMessage (absorbs_whitelist asks)
  | some order =>
    obtain ⟨change, user⟩ := order
    have privmsg := (asked_eq_some.mp asks).1
    cases free : parseFreeMessage msg bot with
    | error abort heard =>
      obtain ⟨fault, rfl⟩ := fault_of_parseFreeMessage free
      simp [processed, processMessage, privmsg, bind_error free] at ran
    | ok _ heard =>
      obtain ⟨posted, rfl, -⟩ := leads_parseFreeMessage_grows.ok free
      have kept : Preserves BotState.whitelist (bufferMessage msg) := preserves_bufferMessage (fun _ _ => rfl) msg
      rw [after, processMessage_privmsg privmsg, view_final_bind fun _ => kept, bind_ok free]
      exact whitelist_runCommand asks

theorem promotion_ne_demotion : promotion ≠ demotion := by
  intro same
  have commands : Commands.promoteCommand = .demoteCommand := congrArg WhitelistChange.command same
  cases commands

/-- A name is in after its promotion, and out after its demotion. -/
theorem mem_whitelist_processed (ran : processed env tolerated bot msg = some bot') (user : Bytes) :
    user ∈ bot'.whitelist ↔
      asked env msg bot = some (promotion, user) ∨
        (user ∈ bot.whitelist ∧ ¬ asked env msg bot = some (demotion, user)) := by
  rw [whitelist_processed ran]
  cases asks : asked env msg bot with
  | none => simp [changed]
  | some order =>
    obtain ⟨change, other⟩ := order
    rcases (asked_eq_some.mp asks).2.1 with rfl | rfl
    · have promoted : user ∈ changed bot.whitelist (some (promotion, other)) ↔ user = other ∨ user ∈ bot.whitelist :=
        Finset.mem_insert
      simp [promoted, promotion_ne_demotion.symm, eq_comm]
    · have demoted : user ∈ changed bot.whitelist (some (demotion, other)) ↔ user ≠ other ∧ user ∈ bot.whitelist :=
        Finset.mem_erase
      simp [demoted, promotion_ne_demotion.symm, eq_comm, and_comm]

/-! What the file names. -/

theorem listed_iff {entries : List Bytes} (closed : LowerCaseClosed entries) (user : Bytes) :
    toLowerCaseString user ∈ entries ↔ Listed entries user := by
  constructor
  · exact fun member => ⟨toLowerCaseString user, member, toLowerCaseString_idem user⟩
  · rintro ⟨entry, member, same⟩
    rw [← same]
    exact closed entry member

theorem isModerator_iff {file : ConfigFile} {text : Bytes} (same : identity bot = identity (loaded file text))
    (user : Bytes) : bot.isModerator user = true ↔ toLowerCaseString user ∈ file.modlist := by
  have modlist : bot.modlist = file.modlist.toFinset := congrArg (fun identity => identity.2.2.2.2) same
  rw [isModerator, decide_eq_true_eq, modlist, List.mem_toFinset]

/-- The bot takes as an order what is one. -/
theorem asked_iff_orders {file : ConfigFile} {text : Bytes} (closed : LowerCaseClosed file.modlist)
    (same : identity bot = identity (loaded file text)) {change : WhitelistChange}
    (which : change = promotion ∨ change = demotion) (user : Bytes) :
    asked env msg bot = some (change, toLowerCaseString user) ↔ Orders env file change user msg := by
  have nick : bot.nick = file.nick := congrArg (fun identity => identity.2.2.1) same
  rw [asked_eq_some, nick, Orders, ← listed_iff closed, ← isModerator_iff same]
  by_cases moderator : bot.isModerator msg.getNick = true
  · simp [which, changedUser, moderator]
  · simp [changedUser, moderator]

/-! Runs of messages. -/

/-- The whitelist against the orders so far. -/
structure Registered (env : Environment) (file : ConfigFile) (text : Bytes) (history : List IRCMessage)
    (bot : BotState) : Prop where
  identity : identity bot = SaivBot.identity (loaded file text)
  whitelist : ∀ user, toLowerCaseString user ∈ bot.whitelist ↔
    Inside (Orders env file promotion user) (Orders env file demotion user) (Listed file.whitelist user) history

theorem registered_run {file : ConfigFile} {text : Bytes} (users : LowerCaseClosed file.whitelist)
    (moderators : LowerCaseClosed file.modlist) {history : List IRCMessage}
    (ran : run (processed env tolerated) (loaded file text) history = some bot) :
    Registered env file text history bot := by
  refine @run_invariant _ _ _ _ (Registered env file text) ?_ ?_ _ _ ran
  · refine ⟨rfl, fun user => ?_⟩
    rw [inside_nil, ← listed_iff users]
    exact List.mem_toFinset
  · intro history bot msg bot' ⟨same, whitelist⟩ step
    refine ⟨(identity_processed step).trans same, fun user => ?_⟩
    rw [mem_whitelist_processed step, asked_iff_orders moderators same (.inl rfl),
      asked_iff_orders moderators same (.inr rfl), whitelist user, inside_append]

/-- Everybody is known as the file and the orders since say, exactly when the file has the lower case form of
each name it has. -/
theorem recognises_iff (env : Environment) (file : ConfigFile) (text : Bytes) :
    (∀ history bot, run (processed env fun _ => true) (loaded file text) history = some bot →
      Recognises env file history bot) ↔
      LowerCaseClosed file.whitelist ∧ LowerCaseClosed file.modlist := by
  constructor
  · -- The bot that has just read the file knows each of its entries.
    intro known
    obtain ⟨whitelisted, moderators⟩ := known [] (loaded file text) rfl
    constructor
    · intro entry member
      have listed := (whitelisted entry).mpr (inside_nil.mpr ⟨entry, member, rfl⟩)
      exact List.mem_toFinset.mp (of_decide_eq_true listed)
    · intro entry member
      have listed := (moderators entry).mpr ⟨entry, member, rfl⟩
      exact List.mem_toFinset.mp (of_decide_eq_true listed)
  · rintro ⟨users, moderators⟩ history bot ran
    obtain ⟨same, whitelist⟩ := registered_run users moderators ran
    constructor
    · intro user
      rw [isWhitelisted, decide_eq_true_eq, whitelist user]
    · intro user
      rw [isModerator_iff same, listed_iff moderators]

/-- A file whose only moderator is written as the name is shown. -/
def shownFile : ConfigFile where
  host := []
  port := []
  nick := ascii "saiv"
  password := []
  modlist := [ascii "SaivNator"]
  whitelist := []
  channels := []

theorem listed_moderator_unknown :
    ¬ ∀ (env : Environment) (file : ConfigFile) (text : Bytes) (history : List IRCMessage) (bot : BotState),
      run (processed env fun _ => true) (loaded file text) history = some bot → Recognises env file history bot := by
  intro known
  have moderators := (known bareEnvironment shownFile [] [] _ rfl).moderators (ascii "SaivNator")
  have refused : (loaded shownFile []).isModerator (ascii "SaivNator") = false := by decide
  rw [refused] at moderators
  exact Bool.false_ne_true (moderators.mpr ⟨ascii "SaivNator", by simp [shownFile], rfl⟩)

end SaivBot
