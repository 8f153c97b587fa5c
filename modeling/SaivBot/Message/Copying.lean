import Mathlib.Data.List.TakeWhile
import SaivBot.Message.Totality

/-! Copies of a message.

Each view is put at its distance from the text, which a view that was never set does not
have, and the parameters are appended to those the target has already.
-/

set_option autoImplicit false

namespace SaivBot
open StringView Program

/-- `IRCMessage` in memory, its views as addresses. -/
structure MessageObject where
  /-- Where the characters of `m_data` lie. -/
  address : Nat
  time : TimePoint
  data : Bytes
  nickView : View
  userView : View
  hostView : View
  commandView : View
  paramsVec : List View
  bodyView : View
  deriving DecidableEq

inductive CopyFault where
  | assertion
  /-- An iterator was used that an insertion had invalidated. -/
  | invalidIterator
  deriving DecidableEq, Repr

/-- The argument of `copyImplementation`: another object, or `*this`. -/
inductive CopySource where
  | other (source : MessageObject)
  | itself

abbrev CopyM := EStateM CopyFault MessageObject

namespace MessageObject

/-- The null pointer. -/
def nullView : View := ⟨0, 0⟩

/-- `IRCMessage()`. -/
def initial (address : Nat) : MessageObject where
  address := address
  time := 0
  data := []
  nickView := nullView
  userView := nullView
  hostView := nullView
  commandView := nullView
  paramsVec := []
  bodyView := nullView

end MessageObject

namespace CopySource

/-- What the source is while the target looks like this. -/
def read : CopySource → MessageObject → MessageObject
  | other source, _ => source
  | itself, target => target

/-- `m_data = source.m_data`, which leaves the characters at `address`. -/
def copyData (address : Nat) : CopySource → CopyM Unit
  | other source => modify fun target => { target with data := source.data, address }
  -- A string that is assigned to itself stays where it is.
  | itself => return ()

/-- The loop over the source's parameters compares with the end it began with. -/
def advance : CopySource → CopyM Unit
  | other _ => return ()
  | itself => throw .invalidIterator

variable (source : CopySource)

def assert (condition : Prop) [Decidable condition] : CopyM Unit :=
  if condition then return () else throw .assertion

def copyView (view : MessageObject → View) (assign : View → MessageObject → MessageObject) : CopyM Unit := do
  let target ← get
  let original := source.read target
  let sourceView := view original
  assert (sourceView.start ≥ original.address)
  modify (assign (sourceView.rebase original.address target.address))

/-- `reserve` comes first and changes no element. -/
def copyParams : List View → CopyM Unit
  | [] => return ()
  | e :: rest => do
    let target ← get
    let original := source.read target
    assert (e.start ≥ original.address)
    modify fun target => { target with paramsVec := target.paramsVec ++ [e.rebase original.address target.address] }
    source.advance
    copyParams rest

def copyImplementation (address : Nat) : CopyM Unit := do
  modify fun target => { target with time := (source.read target).time }
  source.copyData address
  source.copyView (·.nickView) fun view target => { target with nickView := view }
  source.copyView (·.userView) fun view target => { target with userView := view }
  source.copyView (·.hostView) fun view target => { target with hostView := view }
  source.copyView (·.commandView) fun view target => { target with commandView := view }
  let target ← get
  source.copyParams (source.read target).paramsVec
  source.copyView (·.bodyView) fun view target => { target with bodyView := view }

end CopySource

/-- What is assigned to: an object whose characters lie at `address` afterwards, or the source itself. -/
inductive CopyTarget where
  | other (object : MessageObject) (address : Nat)
  | itself

namespace CopyTarget

def assign (source : MessageObject) : CopyTarget → EStateM.Result CopyFault MessageObject Unit
  | other object address => (CopySource.other source).copyImplementation address object
  | itself => CopySource.itself.copyImplementation source.address source

/-- The copy constructor. -/
def constructed (address : Nat) : CopyTarget := other (.initial address) address

/-- The target as it is before. -/
def before (source : MessageObject) : CopyTarget → MessageObject
  | other object _ => object
  | itself => source

end CopyTarget

namespace MessageObject

def fieldText (object : MessageObject) (view : View) : Bytes := (view.rebase object.address 0).text object.data

def getNick (object : MessageObject) : Bytes := object.fieldText object.nickView
def getUser (object : MessageObject) : Bytes := object.fieldText object.userView
def getHost (object : MessageObject) : Bytes := object.fieldText object.hostView
def getCommand (object : MessageObject) : Bytes := object.fieldText object.commandView
def getParams (object : MessageObject) : List Bytes := object.paramsVec.map object.fieldText
def getBody (object : MessageObject) : Bytes := object.fieldText object.bodyView

/-- The range of a view in the object's own text. -/
def range (object : MessageObject) (view : View) : Option View :=
  if object.address ≤ view.start then some (view.rebase object.address 0) else none

def ranges (object : MessageObject) : List (Option View) :=
  (object.nickView :: object.userView :: object.hostView :: object.commandView :: object.bodyView ::
    object.paramsVec).map object.range

/-- The copy reports what the source does, from the same ranges of its own text. -/
structure SameMessage (source copy : MessageObject) : Prop where
  time : copy.time = source.time
  data : copy.data = source.data
  nick : copy.getNick = source.getNick
  user : copy.getUser = source.getUser
  host : copy.getHost = source.getHost
  command : copy.getCommand = source.getCommand
  params : copy.getParams = source.getParams
  body : copy.getBody = source.getBody
  ranges : copy.ranges = source.ranges

/-- No view comes before the text. -/
structure Anchored (object : MessageObject) : Prop where
  nick : object.address ≤ object.nickView.start
  user : object.address ≤ object.userView.start
  host : object.address ≤ object.hostView.start
  command : object.address ≤ object.commandView.start
  params : ∀ param ∈ object.paramsVec, object.address ≤ param.start
  body : object.address ≤ object.bodyView.start

/-- The text at another address, each view at its distance, behind the parameters that are there. -/
def moved (source : MessageObject) (address : Nat) (present : List View) : MessageObject where
  address := address
  time := source.time
  data := source.data
  nickView := source.nickView.rebase source.address address
  userView := source.userView.rebase source.address address
  hostView := source.hostView.rebase source.address address
  commandView := source.commandView.rebase source.address address
  paramsVec := present ++ source.paramsVec.map (·.rebase source.address address)
  bodyView := source.bodyView.rebase source.address address

end MessageObject

open MessageObject

namespace CopySource

variable {source : CopySource} {target copy : MessageObject}

theorem assert_bind_eq_ok {β : Type} {condition : Prop} [Decidable condition] {f : Unit → CopyM β} {b : β} :
    (assert condition >>= f) target = .ok b copy ↔ condition ∧ f () target = .ok b copy := by
  by_cases holds : condition
  · simp only [assert, holds, ↓reduceIte, true_and]
    rfl
  · simp only [assert, holds, ↓reduceIte, false_and, iff_false]
    exact nofun

theorem copyView_eq_ok {view : MessageObject → View} {assign : View → MessageObject → MessageObject} :
    source.copyView view assign target = .ok () copy ↔
      (source.read target).address ≤ (view (source.read target)).start ∧
        copy = assign ((view (source.read target)).rebase (source.read target).address target.address) target := by
  rw [copyView, get_bind, assert_bind_eq_ok]
  refine and_congr_right fun _ => ⟨?_, ?_⟩
  · rintro ⟨⟩
    rfl
  · rintro rfl
    rfl

theorem copyView_bind_eq_ok {β : Type} {view : MessageObject → View}
    {assign : View → MessageObject → MessageObject} {f : Unit → CopyM β} {b : β} :
    (source.copyView view assign >>= f) target = .ok b copy ↔
      (source.read target).address ≤ (view (source.read target)).start ∧
        f () (assign ((view (source.read target)).rebase (source.read target).address target.address) target) =
          .ok b copy := by
  rw [bind_eq_ok]
  constructor
  · rintro ⟨_, middle, first, rest⟩
    obtain ⟨anchored, rfl⟩ := copyView_eq_ok.mp first
    exact ⟨anchored, rest⟩
  · rintro ⟨anchored, rest⟩
    exact ⟨(), _, copyView_eq_ok.mpr ⟨anchored, rfl⟩, rest⟩

/-- The parameters of another object are appended. -/
theorem copyParams_other {original : MessageObject} {params : List View} :
    (other original).copyParams params target = .ok () copy ↔
      (∀ param ∈ params, original.address ≤ param.start) ∧
        copy = { target with
          paramsVec := target.paramsVec ++ params.map (·.rebase original.address target.address) } := by
  induction params generalizing target with
  | nil => simp [copyParams, pure, EStateM.pure, eq_comm]
  | cons e rest ih =>
    have others := @ih { target with paramsVec := target.paramsVec ++ [e.rebase original.address target.address] }
    rw [List.append_assoc, List.singleton_append] at others
    rw [copyParams, get_bind, assert_bind_eq_ok, modify_bind, List.forall_mem_cons, and_assoc]
    exact and_congr_right fun _ => others

/-- An object has nothing to append to itself. -/
theorem copyParams_itself {params : List View} :
    itself.copyParams params target = .ok () copy ↔ params = [] ∧ copy = target := by
  cases params with
  | nil => simp [copyParams, pure, EStateM.pure, eq_comm]
  | cons e rest =>
    rw [copyParams, get_bind, assert_bind_eq_ok]
    refine iff_of_false ?_ nofun
    rintro ⟨-, ran⟩
    cases ran

theorem copyImplementation_other {original : MessageObject} {address : Nat} :
    (other original).copyImplementation address target = .ok () copy ↔
      original.Anchored ∧ copy = original.moved address target.paramsVec := by
  simp only [copyImplementation, copyData, modify_bind, copyView_bind_eq_ok, get_bind, read]
  rw [bind_eq_ok]
  constructor
  · rintro ⟨nick, user, host, command, ⟨⟩, middle, copied, last⟩
    obtain ⟨params, rfl⟩ := copyParams_other.mp copied
    obtain ⟨body, rfl⟩ := copyView_eq_ok.mp last
    exact ⟨⟨nick, user, host, command, params, body⟩, rfl⟩
  · rintro ⟨anchored, rfl⟩
    refine ⟨anchored.nick, anchored.user, anchored.host, anchored.command, (), _,
      copyParams_other.mpr ⟨anchored.params, rfl⟩, ?_⟩
    exact copyView_eq_ok.mpr ⟨anchored.body, rfl⟩

theorem rebase_anchored {view : View} {address : Nat} (anchored : address ≤ view.start) :
    view.rebase address address = view := by
  simp only [View.rebase, Nat.add_sub_cancel' anchored]

/-- A view is put back where it is. -/
theorem copyView_itself {β : Type} {view : MessageObject → View} {assign : View → MessageObject → MessageObject}
    (same : assign (view target) target = target) {f : Unit → CopyM β} {b : β} :
    (itself.copyView view assign >>= f) target = .ok b copy ↔
      target.address ≤ (view target).start ∧ f () target = .ok b copy := by
  rw [copyView_bind_eq_ok]
  refine and_congr_right fun anchored => ?_
  simp only [read] at anchored ⊢
  rw [rebase_anchored anchored, same]

/-- An object without parameters is left as it is by an assignment to itself. -/
theorem copyImplementation_itself {address : Nat} :
    itself.copyImplementation address target = .ok () copy ↔
      target.Anchored ∧ target.paramsVec = [] ∧ copy = target := by
  have start : itself.copyImplementation address target =
      (itself.copyView (·.nickView) (fun view target => { target with nickView := view }) >>= fun _ =>
        itself.copyView (·.userView) (fun view target => { target with userView := view }) >>= fun _ =>
        itself.copyView (·.hostView) (fun view target => { target with hostView := view }) >>= fun _ =>
        itself.copyView (·.commandView) (fun view target => { target with commandView := view }) >>= fun _ =>
        get >>= fun target => itself.copyParams target.paramsVec >>= fun _ =>
        itself.copyView (·.bodyView) (fun view target => { target with bodyView := view })) target := rfl
  rw [start, copyView_itself rfl, copyView_itself rfl, copyView_itself rfl, copyView_itself rfl, get_bind, bind_eq_ok]
  constructor
  · rintro ⟨nick, user, host, command, ⟨⟩, middle, copied, last⟩
    obtain ⟨nothing, rfl⟩ := copyParams_itself.mp copied
    obtain ⟨body, rfl⟩ : middle.address ≤ middle.bodyView.start ∧ _ := copyView_eq_ok.mp last
    refine ⟨⟨nick, user, host, command, by simp [nothing], body⟩, nothing, ?_⟩
    simp only [read]
    rw [rebase_anchored body]
  · rintro ⟨anchored, nothing, rfl⟩
    refine ⟨anchored.nick, anchored.user, anchored.host, anchored.command, (), copy,
      copyParams_itself.mpr ⟨nothing, rfl⟩, ?_⟩
    refine copyView_eq_ok.mpr ⟨anchored.body, ?_⟩
    simp only [read]
    rw [rebase_anchored anchored.body]

end CopySource

open CopySource

namespace CopyTarget

/-- No assertion fails, and the target holds the message. -/
def Copies (source : MessageObject) (target : CopyTarget) : Prop :=
  ∃ copy, target.assign source = .ok () copy ∧ SameMessage source copy

end CopyTarget

namespace MessageObject

variable {source : MessageObject}

/-- A view of the moved text is the same range and shows the same. -/
theorem range_moved (address : Nat) (present : List View) {view : View} (anchored : source.address ≤ view.start) :
    (source.moved address present).range (view.rebase source.address address) = source.range view := by
  have behind : (source.moved address present).address ≤ (view.rebase source.address address).start :=
    Nat.le_add_right _ _
  rw [range, if_pos behind, range, if_pos anchored]
  simp only [moved, View.rebase_rebase]

theorem fieldText_moved (address : Nat) (present : List View) (view : View) :
    (source.moved address present).fieldText (view.rebase source.address address) = source.fieldText view := by
  simp only [fieldText, moved, View.rebase_rebase]

/-- The moved text is the same message where no parameters were there. -/
theorem sameMessage_moved_iff (anchored : source.Anchored) (address : Nat) (present : List View) :
    SameMessage source (source.moved address present) ↔ present = [] := by
  constructor
  · intro same
    have count := congrArg List.length same.params
    simp only [getParams, moved, List.length_map, List.length_append] at count
    exact List.eq_nil_of_length_eq_zero (by omega)
  · rintro rfl
    have text (view : View) : (source.moved address []).fieldText _ = _ := fieldText_moved address [] view
    have range {view : View} (inside : source.address ≤ view.start) := range_moved address [] inside
    refine ⟨rfl, rfl, text _, text _, text _, text _, ?_, text _, ?_⟩
    · change (source.paramsVec.map (·.rebase source.address address)).map _ = _
      rw [List.map_map]
      exact List.map_congr_left fun view _ => text view
    · have params : (source.paramsVec.map (·.rebase source.address address)).map (source.moved address []).range =
          source.paramsVec.map source.range := by
        rw [List.map_map]
        exact List.map_congr_left fun view member => range (anchored.params view member)
      have shown : (source.moved address []).ranges =
          [source.range source.nickView, source.range source.userView, source.range source.hostView,
            source.range source.commandView, source.range source.bodyView] ++ source.paramsVec.map source.range := by
        rw [← range anchored.nick, ← range anchored.user, ← range anchored.host, ← range anchored.command,
          ← range anchored.body, ← params]
        rfl
      exact shown

end MessageObject

namespace CopyTarget

open MessageObject

variable {source : MessageObject}

theorem copies_iff (target : CopyTarget) :
    target.Copies source ↔ source.Anchored ∧ (target.before source).paramsVec = [] := by
  cases target with
  | other object address =>
    constructor
    · rintro ⟨copy, ran, same⟩
      obtain ⟨anchored, rfl⟩ := copyImplementation_other.mp ran
      exact ⟨anchored, (sameMessage_moved_iff anchored _ _).mp same⟩
    · rintro ⟨anchored, nothing⟩
      exact ⟨_, copyImplementation_other.mpr ⟨anchored, rfl⟩, (sameMessage_moved_iff anchored _ _).mpr nothing⟩
  | itself =>
    constructor
    · rintro ⟨copy, ran, same⟩
      obtain ⟨anchored, nothing, rfl⟩ := copyImplementation_itself.mp ran
      exact ⟨anchored, nothing⟩
    · rintro ⟨anchored, nothing⟩
      exact ⟨source, copyImplementation_itself.mpr ⟨anchored, nothing, rfl⟩, rfl, rfl, rfl, rfl, rfl, rfl, rfl, rfl, rfl⟩

end CopyTarget

/-! Messages from a line. -/

/-- Behind the first space, or the text itself. -/
def behindSpace (text : Bytes) : Bytes := text.drop (after (findChar IRCMessage.isSpace text))

/-- An origin with both of its separators, and behind the command a trailing part. -/
def SetsEveryView (line : Bytes) : Prop :=
  StartsColon line ∧
    (Byte.exclamation ∈ line.takeWhile (· ≠ Byte.space) ∧ Byte.commercialAt ∈ line.takeWhile (· ≠ Byte.space)) ∧
    HasTrailing (behindSpace (behindSpace line))

instance (line : Bytes) : Decidable (SetsEveryView line) := inferInstanceAs (Decidable (_ ∧ (_ ∧ _) ∧ _))

theorem behindSpace_clean {text : Bytes} (clean : Byte.space ∉ text) : behindSpace text = text := by
  rw [behindSpace, IRCMessage.findSpace_none clean, after, List.drop_zero]

theorem behindSpace_word {word : Bytes} (clean : Byte.space ∉ word) (tail : Bytes) :
    behindSpace (word ++ Byte.space :: tail) = tail := by
  rw [behindSpace, IRCMessage.findSpace_append clean, after, drop_past]

theorem takeWhile_clean {word : Bytes} (clean : Byte.space ∉ word) : word.takeWhile (· ≠ Byte.space) = word := by
  rw [List.takeWhile_eq_self_iff]
  intro c member
  simp only [decide_eq_true_eq]
  exact fun same => clean (same ▸ member)

theorem takeWhile_word {word : Bytes} (clean : Byte.space ∉ word) (tail : Bytes) :
    (word ++ Byte.space :: tail).takeWhile (· ≠ Byte.space) = word := by
  rw [List.takeWhile_append_of_pos (List.takeWhile_eq_self_iff.mp (takeWhile_clean clean)),
    List.takeWhile_cons_of_neg (by simp), List.append_nil]

theorem setsEveryView_origin {word : Bytes} (clean : Byte.space ∉ word) (tail : Bytes) :
    SetsEveryView (Byte.colon :: word ++ Byte.space :: tail) ↔
      (Byte.exclamation ∈ word ∧ Byte.commercialAt ∈ word) ∧ HasTrailing (behindSpace tail) := by
  have clean' : Byte.space ∉ Byte.colon :: word := by simpa using ⟨by decide, clean⟩
  have starts : StartsColon (Byte.colon :: word ++ Byte.space :: tail) := ⟨_, rfl⟩
  have others : Byte.exclamation ≠ Byte.colon ∧ Byte.commercialAt ≠ Byte.colon := by decide
  rw [SetsEveryView, takeWhile_word clean', behindSpace_word clean', and_iff_right starts]
  simp [others]

theorem setsEveryView_lone {word : Bytes} (clean : Byte.space ∉ word) :
    SetsEveryView (Byte.colon :: word) ↔ Byte.exclamation ∈ word ∧ Byte.commercialAt ∈ word := by
  have clean' : Byte.space ∉ Byte.colon :: word := by simpa using ⟨by decide, clean⟩
  have starts : StartsColon (Byte.colon :: word) := ⟨_, rfl⟩
  have others : Byte.exclamation ≠ Byte.colon ∧ Byte.commercialAt ≠ Byte.colon := by decide
  rw [SetsEveryView, takeWhile_clean clean', behindSpace_clean clean', behindSpace_clean clean', and_iff_right starts]
  simp [others]

theorem CommandShape.arguments_eq {text command arguments : Bytes} (shape : CommandShape text command arguments) :
    arguments = behindSpace text := by
  cases shape with
  | lone clean => exact (behindSpace_clean clean).symm
  | spaced split clean => rw [split, behindSpace_word clean]

namespace IRCMessage

/-- The parser has set every view. -/
def Complete (msg : IRCMessage) : Prop :=
  (msg.nickView.isSome ∧ msg.userView.isSome ∧ msg.hostView.isSome) ∧ msg.commandView.isSome ∧ msg.bodyView.isSome

def placeView (address : Nat) : Option View → View
  | none => nullView
  | some view => view.rebase 0 address

/-- The object that holds the message, its characters at this address. -/
def placed (address : Nat) (msg : IRCMessage) : MessageObject where
  address := address
  time := msg.time
  data := msg.data
  nickView := placeView address msg.nickView
  userView := placeView address msg.userView
  hostView := placeView address msg.hostView
  commandView := placeView address msg.commandView
  paramsVec := msg.paramsVec.map (·.rebase 0 address)
  bodyView := placeView address msg.bodyView

variable {msg : IRCMessage} {address : Nat}

theorem fieldText_placed (view : Option View) :
    (msg.placed address).fieldText (placeView address view) = msg.fieldText view := by
  cases view with
  | none => simp [MessageObject.fieldText, placeView, nullView, View.rebase, View.text, fieldText]
  | some view =>
    simp only [MessageObject.fieldText, placed, placeView, View.rebase_rebase, fieldText]
    rw [rebase_anchored (Nat.zero_le _)]

/-- The object reports what the message does. -/
theorem placed_reports :
    (msg.placed address).getNick = msg.getNick ∧ (msg.placed address).getUser = msg.getUser ∧
      (msg.placed address).getHost = msg.getHost ∧ (msg.placed address).getCommand = msg.getCommand ∧
      (msg.placed address).getParams = msg.getParams ∧ (msg.placed address).getBody = msg.getBody := by
  refine ⟨fieldText_placed _, fieldText_placed _, fieldText_placed _, fieldText_placed _, ?_, fieldText_placed _⟩
  simp only [MessageObject.getParams, placed, List.map_map]
  exact List.map_congr_left fun view _ => fieldText_placed (some view)

theorem anchored_placeView_iff (allocated : 0 < address) (view : Option View) :
    address ≤ (placeView address view).start ↔ view.isSome := by
  cases view with
  | none => simp [placeView, nullView, Nat.ne_of_gt allocated]
  | some view => simp [placeView, View.rebase]

/-- A view that was never set comes before every text. -/
theorem anchored_placed_iff (allocated : 0 < address) (msg : IRCMessage) :
    (msg.placed address).Anchored ↔ msg.Complete := by
  have set := anchored_placeView_iff allocated
  constructor
  · rintro ⟨nick, user, host, command, -, body⟩
    exact ⟨⟨(set _).mp nick, (set _).mp user, (set _).mp host⟩, (set _).mp command, (set _).mp body⟩
  · rintro ⟨⟨nick, user, host⟩, command, body⟩
    refine ⟨(set _).mpr nick, (set _).mpr user, (set _).mpr host, (set _).mpr command, ?_, (set _).mpr body⟩
    intro param member
    obtain ⟨view, -, rfl⟩ := List.mem_map.mp member
    exact Nat.le_add_right _ _

theorem mem_of_findChar {p : Byte → Bool} {separator : Byte} (test : ∀ c, p c = true ↔ c = separator)
    {text : Bytes} {pos : Nat} (found : findChar p text = some pos) : separator ∈ text := by
  obtain ⟨before, c, rest, rfl, -, hit, -⟩ := findChar_split found
  rw [(test c).mp hit]
  simp

theorem notMem_of_findChar {p : Byte → Bool} {separator : Byte} (hit : p separator = true) {text : Bytes}
    (missing : findChar p text = none) : separator ∉ text := by
  intro member
  have miss := findChar_eq_none.mp missing separator member
  rw [hit] at miss
  cases miss

/-- Nick, user and host are set where the mask has both separators. -/
theorem parsePrefix_sets {named : IRCMessage} {view : View} (noUser : msg.userView = none)
    (noHost : msg.hostView = none) (called : parsePrefix msg view = .ok named) :
    (named.nickView.isSome ∧ named.userView.isSome ∧ named.hostView.isSome) ↔
      Byte.exclamation ∈ view.text msg.data ∧ Byte.commercialAt ∈ view.text msg.data := by
  unfold parsePrefix at called
  split at called
  · next atPos foundAt =>
    have hasAt : Byte.commercialAt ∈ view.text msg.data := mem_of_findChar (by simp [isAt]) foundAt
    split at called
    · next ex foundEx =>
      obtain ⟨nick, -, called⟩ := except_bind_eq_ok.mp called
      obtain ⟨user, -, called⟩ := except_bind_eq_ok.mp called
      obtain ⟨host, -, called⟩ := except_bind_eq_ok.mp called
      cases called
      exact iff_of_true ⟨rfl, rfl, rfl⟩ ⟨mem_of_findChar (by simp [isExclamation]) foundEx, hasAt⟩
    · next missing =>
      obtain ⟨nick, -, called⟩ := except_bind_eq_ok.mp called
      obtain ⟨host, -, called⟩ := except_bind_eq_ok.mp called
      cases called
      have absent := notMem_of_findChar (show isExclamation Byte.exclamation = true from rfl) missing
      exact iff_of_false (by simp [noUser]) fun both => absent both.1
  · next missing =>
    cases called
    have absent := notMem_of_findChar (show isAt Byte.commercialAt = true from rfl) missing
    exact iff_of_false (by simp [noHost]) fun both => absent both.2

/-- The constructor sets every view just of these lines. -/
theorem complete_iff {time : TimePoint} {line : Bytes} (parsed : ofLine time line = .ok msg) :
    msg.Complete ↔ SetsEveryView line := by
  cases route_of_ok parsed with
  | plain nonempty plain done =>
    obtain ⟨command, views, body, same, -⟩ :=
      parseCommand_total { time, data := line } rfl rfl (View.inside_whole _) (by simpa using nonempty)
    obtain rfl := Except.ok.inj (done.symm.trans same)
    exact iff_of_false (by simp [Complete]) fun sets => plain sets.1
  | @lone word named _ shape clean called done =>
    obtain rfl : line = Byte.colon :: word := shape
    have sets := parsePrefix_sets rfl rfl called
    rw [View.text_slice_none, View.text_whole] at sets
    obtain ⟨nick, user, host, same, -⟩ := parsePrefix_frame { time, data := Byte.colon :: word }
      ((View.whole (Byte.colon :: word)).slice 1 none)
      (View.inside_slice (View.inside_whole _) (by simp [View.whole]) _)
    obtain rfl := Except.ok.inj (called.symm.trans same)
    obtain ⟨command, views, body, same, arguments, commandShape, trailing, -⟩ := parseCommand_total
      { time, data := Byte.colon :: word, nickView := nick, userView := user, hostView := host } rfl rfl
      (View.inside_drop (View.inside_whole _) (Nat.zero_le _)) (by simp)
    obtain rfl := Except.ok.inj (done.symm.trans same)
    rw [View.text_drop, View.text_whole, List.drop_zero] at commandShape
    have clean' : Byte.space ∉ Byte.colon :: word := by simpa using ⟨by decide, clean⟩
    rw [commandShape.arguments_eq, behindSpace_clean clean'] at trailing
    have cut : (nick.isSome ∧ user.isSome ∧ host.isSome) ↔ Byte.exclamation ∈ word ∧ Byte.commercialAt ∈ word := sets
    rw [setsEveryView_lone clean, ← cut]
    exact ⟨And.left, fun origin => ⟨origin, rfl, trailing.mpr (hasTrailing_colon word)⟩⟩
  | @originOnly word _ shape clean called =>
    obtain rfl : line = Byte.colon :: word ++ [Byte.space] := shape
    obtain ⟨insideMask, -⟩ := mask_view { time, data := Byte.colon :: word ++ [Byte.space] } rfl
    obtain ⟨nick, user, host, same, -⟩ := parsePrefix_frame _ _ insideMask
    obtain rfl := Except.ok.inj (called.symm.trans same)
    rw [setsEveryView_origin clean]
    exact iff_of_false (by simp [Complete]) fun sets => by simpa [behindSpace] using sets.2
  | @origin word tail named _ shape clean more called done =>
    obtain rfl : line = Byte.colon :: word ++ Byte.space :: tail := shape
    obtain ⟨insideMask, mask⟩ := mask_view { time, data := Byte.colon :: word ++ Byte.space :: tail } rfl
    have sets := parsePrefix_sets rfl rfl called
    rw [mask] at sets
    obtain ⟨nick, user, host, same, -⟩ := parsePrefix_frame _ _ insideMask
    obtain rfl := Except.ok.inj (called.symm.trans same)
    obtain ⟨insideRest, text⟩ := behind_view { time, data := Byte.colon :: word ++ Byte.space :: tail } rfl
    obtain ⟨command, views, body, same, arguments, commandShape, trailing, -⟩ := parseCommand_total
      { time, data := Byte.colon :: word ++ Byte.space :: tail, nickView := nick, userView := user, hostView := host }
      rfl rfl insideRest (by rw [text]; exact more)
    obtain rfl := Except.ok.inj (done.symm.trans same)
    rw [text] at commandShape
    rw [commandShape.arguments_eq] at trailing
    have others : Byte.exclamation ≠ Byte.space ∧ Byte.commercialAt ≠ Byte.space := by decide
    have cut : (nick.isSome ∧ user.isSome ∧ host.isSome) ↔ Byte.exclamation ∈ word ∧ Byte.commercialAt ∈ word := by
      simpa [others] using sets
    rw [setsEveryView_origin clean, ← trailing, ← cut]
    exact ⟨fun complete => ⟨complete.1, complete.2.2⟩, fun sets => ⟨sets.1, rfl, sets.2⟩⟩

/-- Which copies of a received message succeed: those of messages with every view set, to an object that has
no parameters. -/
theorem copies_line_iff {time : TimePoint} {line : Bytes} (parsed : ofLine time line = .ok msg)
    (allocated : 0 < address) (target : CopyTarget) :
    target.Copies (msg.placed address) ↔
      SetsEveryView line ∧ (target.before (msg.placed address)).paramsVec = [] := by
  rw [CopyTarget.copies_iff, anchored_placed_iff allocated, complete_iff parsed]

theorem copies_privmsg : ∃ msg, ofLine 0 (ascii ":saiv!s@h PRIVMSG #c :hi") = .ok msg ∧
    (CopyTarget.constructed 512).Copies (msg.placed 64) := by
  obtain ⟨msg, parsed⟩ : ∃ msg, ofLine 0 (ascii ":saiv!s@h PRIVMSG #c :hi") = .ok msg := ⟨_, rfl⟩
  exact ⟨msg, parsed, (copies_line_iff parsed (by decide) _).mpr ⟨by decide, rfl⟩⟩

/-- A message without an origin cannot be copied at all. -/
theorem ping_copy_asserts :
    ¬ ∀ (time : TimePoint) (line : Bytes) (msg : IRCMessage) (address : Nat) (target : CopyTarget), line ≠ [] →
      ofLine time line = .ok msg → 0 < address → target.Copies (msg.placed address) := by
  intro copies
  obtain ⟨msg, parsed, asserts⟩ : ∃ msg, ofLine 0 (ascii "PING :tmi.twitch.tv") = .ok msg ∧
      (CopyTarget.constructed 512).assign (msg.placed 64) =
        .error .assertion { MessageObject.initial 512 with data := ascii "PING :tmi.twitch.tv" } := ⟨_, rfl, rfl⟩
  obtain ⟨copy, ran, -⟩ := copies 0 _ msg 64 (.constructed 512) (by decide) parsed (by decide)
  rw [asserts] at ran
  cases ran

end IRCMessage

end SaivBot
