import SaivBot.Bot.Effects

/-! What a message cannot change.

A message reaches the whitelist, the configuration file, the channels and the work it
posts, and only a RECONNECT the two suspensions.
-/

set_option autoImplicit false

namespace SaivBot
open Program BotState

/-- A view that does not see the channels either. -/
structure Unaware {τ : Type} (view : BotState → τ) : Prop extends Blind view where
  channels : ∀ bot channels, view { bot with channels := channels } = view bot

section

variable {τ : Type} {view : BotState → τ} (unaware : Unaware view) (env : Environment) (msg : IRCMessage)

include unaware

theorem absorbs_view (bot : BotState) (other : msg.getCommand ≠ ascii "RECONNECT") :
    Absorbs env msg bot (Alike view) where
  posting bot' work causes := by
    apply unaware.posting
    rintro rfl
    cases causes with
    | command _ _ _ posts => cases posts
    | suspendWrite reconnect => exact other reconnect
  configFile bot' text := unaware.configFile bot' text
  whitelist bot' _ _ _ := unaware.whitelist bot' _
  channels bot' channels _ := unaware.channels bot' channels
  suspendRead _ reconnect := absurd reconnect other

theorem preserves_processMessage
    (reconnect : msg.getCommand = ascii "RECONNECT" → Preserves view postDoRECONNECT) :
    Preserves view (processMessage env (commandContainers env) msg) := by
  by_cases isReconnect : msg.getCommand = ascii "RECONNECT"
  · unfold processMessage
    rw [if_neg (by rw [isReconnect]; decide), if_neg (by rw [isReconnect]; decide), if_pos isReconnect]
    exact reconnect isReconnect
  · exact fun bot => leads_processMessage (absorbs_view unaware env msg bot isReconnect)

end

/-- What the read strand works on. -/
def reading (bot : BotState) : Bytes × List IRCMessage × Nat := (bot.buffer, bot.msgPreBuffer, bot.pendingReads)

theorem unaware_reading : Unaware reading where
  posting _ _ _ := rfl
  whitelist _ _ := rfl
  configFile _ _ := rfl
  channels _ _ := rfl

/-- No message touches the buffers of the read strand. -/
theorem reading_processMessage (env : Environment) (msg : IRCMessage) :
    Preserves reading (processMessage env (commandContainers env) msg) := by
  apply preserves_processMessage unaware_reading
  intro _
  apply preserves_bind
  · exact preserves_modify fun _ => rfl
  · exact fun _ => preserves_modify fun _ => rfl

/-- Whether reading is suspended, and how many suspensions of the send strand have been posted. -/
def suspensions (bot : BotState) : Bool × Nat := (bot.suspendRead, bot.posted.countP Posted.isSuspendWrite)

theorem unaware_suspensions : Unaware suspensions where
  posting bot work other := by
    cases work with
    | suspendWrite => exact absurd rfl other
    | sendIRC | shutdown | insertMessage | download | upload => simp [suspensions, posting, Posted.isSuspendWrite]
  whitelist _ _ := rfl
  configFile _ _ := rfl
  channels _ _ := rfl

/-- A RECONNECT suspends reading and posts one suspension; no other message does either. -/
theorem suspensions_processMessage (env : Environment) (msg : IRCMessage) (bot : BotState) :
    suspensions (final (processMessage env (commandContainers env) msg bot)) =
      if msg.getCommand = ascii "RECONNECT" then (true, (suspensions bot).2 + 1) else suspensions bot := by
  by_cases reconnect : msg.getCommand = ascii "RECONNECT"
  · rw [if_pos reconnect, processMessage, if_neg (by rw [reconnect]; decide), if_neg (by rw [reconnect]; decide),
      if_pos reconnect, postDoRECONNECT, modify_bind]
    change suspensions ({ bot with suspendRead := true }.posting .suspendWrite) = (true, (suspensions bot).2 + 1)
    simp [suspensions, posting, Posted.isSuspendWrite]
  · rw [if_neg reconnect]
    exact preserves_processMessage unaware_suspensions env msg (fun same => absurd same reconnect) bot

end SaivBot
