import SaivBot.Bytes

/-! `DankHttp::NuulsUploader`: one request, one operation after the other.

There is no error handler: a handler that meets an error throws, and nobody learns
of it. Only the last one calls back.
-/

set_option autoImplicit false

namespace SaivBot

/-- `boost::system::error_code`, as far as the handlers tell codes apart. -/
inductive ErrorCode where
  | success
  | streamTruncated
  | failure
  deriving DecidableEq, Repr

namespace Uploading

inductive Operation where
  | resolve
  | connect
  | handshake
  | write
  | read
  | shutdown
  deriving DecidableEq, Repr

end Uploading

open Uploading (Operation)

structure NuulsUploader where
  /-- The body of the request. -/
  request : Bytes
  /-- The operation whose handler has not run yet. -/
  pending : Option Operation
  response : Bytes
  deriving DecidableEq, Repr

namespace NuulsUploader

def boundary : Bytes := ascii "pajaSpajaSpajaSpajaSpajaS"

def packBody (data : Bytes) : Bytes :=
  ascii "--" ++ boundary ++ crlf ++
    ascii "Content-Disposition: form-data; name=xddd; filename=xddd.png" ++ crlf ++
    ascii "Content-Type: text/plain" ++ crlf ++ crlf ++ data ++ crlf ++ ascii "--" ++ boundary ++ ascii "--"

def run (data : Bytes) : NuulsUploader where
  request := packBody data
  pending := some .resolve
  response := []

/-- The exception leaves the handler; no operation is left that holds the uploader. -/
def leave (s : NuulsUploader) : NuulsUploader := { s with pending := none }

def resolveHandler (ec : ErrorCode) (s : NuulsUploader) : NuulsUploader :=
  if ec ≠ .success then leave s else { s with pending := some .connect }

def connectHandler (ec : ErrorCode) (s : NuulsUploader) : NuulsUploader :=
  if ec ≠ .success then leave s else { s with pending := some .handshake }

def handshakeHandler (ec : ErrorCode) (s : NuulsUploader) : NuulsUploader :=
  if ec ≠ .success then leave s else { s with pending := some .write }

def writeHandler (ec : ErrorCode) (s : NuulsUploader) : NuulsUploader :=
  if ec ≠ .success then leave s else { s with pending := some .read }

def readHandler (ec : ErrorCode) (body : Bytes) (s : NuulsUploader) : NuulsUploader :=
  if ec ≠ .success then leave s else { s with pending := some .shutdown, response := body }

/-- The body handed to the callback, if it is called. -/
def shutdownHandler (ec : ErrorCode) (s : NuulsUploader) : NuulsUploader × Option Bytes :=
  if ec ≠ .success ∧ ec ≠ .streamTruncated then (leave s, none)
  else ({ s with pending := none }, some s.response)

def handle (s : NuulsUploader) (ec : ErrorCode) (body : Bytes) : Operation → NuulsUploader × Option Bytes
  | .resolve => (resolveHandler ec s, none)
  | .connect => (connectHandler ec s, none)
  | .handshake => (handshakeHandler ec s, none)
  | .write => (writeHandler ec s, none)
  | .read => (readHandler ec body s, none)
  | .shutdown => shutdownHandler ec s

/-- The outstanding operation completes, having read `body` if it is the read. -/
def step (s : NuulsUploader) (operation : Operation) (ec : ErrorCode) (body : Bytes) :
    Option (NuulsUploader × Option Bytes) :=
  if s.pending = some operation then some (handle s ec body operation) else none

/-- The handler of the operation throws. A truncated stream is no error where it is shut down. -/
def Fails (operation : Operation) (ec : ErrorCode) : Prop :=
  ec ≠ .success ∧ (operation = .shutdown → ec ≠ .streamTruncated)

instance (operation : Operation) (ec : ErrorCode) : Decidable (Fails operation ec) :=
  inferInstanceAs (Decidable (_ ∧ _))

/-- What one step does: it ends the chain where it fails, calls back where it was the last operation, and
goes on otherwise. -/
theorem step_cases {s s' : NuulsUploader} {operation : Operation} {ec : ErrorCode} {body : Bytes}
    {called : Option Bytes} (stepped : step s operation ec body = some (s', called)) :
    s.pending = some operation ∧
      ((Fails operation ec ∧ s'.pending = none ∧ called = none) ∨
        (¬ Fails operation ec ∧ operation = .shutdown ∧ s'.pending = none ∧ called = some s.response) ∨
        (¬ Fails operation ec ∧ s'.pending ≠ none ∧ called = none)) := by
  simp only [step, Option.ite_none_right_eq_some, Option.some.injEq] at stepped
  obtain ⟨pending, handled⟩ := stepped
  refine ⟨pending, ?_⟩
  cases operation with
  | shutdown =>
    simp only [handle, shutdownHandler] at handled
    split at handled
    · next fails =>
      cases handled
      exact .inl ⟨⟨fails.1, fun _ => fails.2⟩, rfl, rfl⟩
    · next fine =>
      cases handled
      exact .inr (.inl ⟨fun fails => fine ⟨fails.1, fails.2 rfl⟩, rfl, rfl, rfl⟩)
  | resolve | connect | handshake | write | read =>
    by_cases success : ec = .success
    · simp only [handle, resolveHandler, connectHandler, handshakeHandler, writeHandler, readHandler, success, ne_eq,
        not_true_eq_false, ↓reduceIte, Prod.mk.injEq] at handled
      obtain ⟨rfl, rfl⟩ := handled
      exact .inr (.inr ⟨fun fails => fails.1 success, by simp, rfl⟩)
    · simp only [handle, resolveHandler, connectHandler, handshakeHandler, writeHandler, readHandler, success, ne_eq,
        not_false_eq_true, ↓reduceIte, Prod.mk.injEq] at handled
      obtain ⟨rfl, rfl⟩ := handled
      exact .inl ⟨⟨success, nofun⟩, rfl, rfl⟩

/-- The request stays, the response is what has been read last, and it is what is called back with. -/
theorem step_texts {s s' : NuulsUploader} {operation : Operation} {ec : ErrorCode} {body : Bytes}
    {called : Option Bytes} (stepped : step s operation ec body = some (s', called)) :
    s'.request = s.request ∧
      (s'.response = s.response ∨ (operation = .read ∧ ec = .success ∧ s'.response = body)) ∧
      ∀ str ∈ called, str = s.response ∧ s'.response = s.response := by
  simp only [step, Option.ite_none_right_eq_some, Option.some.injEq] at stepped
  obtain ⟨-, handled⟩ := stepped
  cases operation with
  | shutdown =>
    simp only [handle, shutdownHandler] at handled
    split at handled
    · cases handled
      exact ⟨rfl, .inl rfl, by simp⟩
    · cases handled
      exact ⟨rfl, .inl rfl, by simp⟩
  | read =>
    simp only [handle, readHandler] at handled
    split at handled
    · cases handled
      exact ⟨rfl, .inl rfl, by simp⟩
    · next success =>
      cases handled
      exact ⟨rfl, .inr ⟨rfl, not_not.mp success, rfl⟩, by simp⟩
  | resolve | connect | handshake | write =>
    simp only [handle, resolveHandler, connectHandler, handshakeHandler, writeHandler] at handled
    split at handled
    · cases handled
      exact ⟨rfl, .inl rfl, by simp⟩
    · cases handled
      exact ⟨rfl, .inl rfl, by simp⟩

end NuulsUploader

end SaivBot
