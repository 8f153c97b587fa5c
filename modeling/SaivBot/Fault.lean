import SaivBot.Text.View

/-! How a handler can fail to return: undefined behaviour and C++ exceptions.

`workFunc` catches an exception and keeps the thread running; nothing is promised
about a program that has reached a fault.
-/

set_option autoImplicit false

namespace SaivBot

inductive Fault where
  | view (fault : StringView.ViewFault)
  /-- An iterator past the end was handed to `string::erase`. -/
  | eraseRange
  /-- An end iterator was dereferenced. -/
  | endIterator
  /-- Element 0 of an empty parameter list was read. -/
  | emptyParams
  /-- A view was read after the string it points into was destroyed. -/
  | danglingView
  /-- A loop did not end. -/
  | endlessLoop
  /-- `front` or `pop` of an empty `std::queue`. -/
  | emptyQueue
  /-- A string was destroyed while `async_write` was writing it. -/
  | destroyedWrite
  deriving DecidableEq, Repr

inductive Exception where
  /-- `std::regex_error` of a malformed pattern. -/
  | regexError
  /-- `vector::reserve` did not get its memory. -/
  | lengthError
  /-- `saveConfig` could not open the file or serialise the configuration. -/
  | saveConfig
  /-- "Can't reply to IRCMessage". -/
  | cantReply
  deriving DecidableEq, Repr

inductive Abort where
  | fault (fault : Fault)
  | raise (exception : Exception)
  deriving DecidableEq, Repr

def Abort.ofView (fault : StringView.ViewFault) : Abort := .fault (.view fault)

end SaivBot
