import FauPortalen.Foundations.Comparators
import FauPortalen.Membership.EmailParsing
import FauPortalen.Register.Source

/-! The client of the public sources: a request and its retries, what is read from NSR's answers,
and NSR's paged list, which is never returned in part.
-/

set_option linter.unusedSectionVars false

namespace FauPortalen.Register

open Foundations

-----------------------------------------------------------------------------------------
-- Errors

/-- The public source an error came from. -/
inductive Source
  | nsr
  | kartverket
  | ssb
  | brreg
deriving DecidableEq

inductive SourceErrorKind
  /-- The missing field or the class of the error, and a position: never a value. -/
  | parse (detail : String)
  | unexpectedValue (field : String)
  | status (status : Nat)
  | transport
  | tooManyPages
  | incompletePaging
  | io
deriving DecidableEq

structure SourceError where
  source : Source
  kind : SourceErrorKind
deriving DecidableEq

/-- The JSON library's classes of errors. -/
inductive JsonCategory
  | readFailure
  | malformed
  | wrongData
  | endOfInput
deriving DecidableEq

/-- How the library prints a class. -/
def JsonCategory.name : JsonCategory → String
  | .readFailure => "Io"
  | .malformed => "Syntax"
  | .wrongData => "Data"
  | .endOfInput => "Eof"

structure JsonError where
  category : JsonCategory
  message : String
  row : Nat
  column : Nat
deriving DecidableEq

/-- The name of the field that is missing, when the message says that one is. -/
def JsonError.missing? (e : JsonError) : Option String :=
  let before := "missing field `".toList
  if before.isPrefixOf e.message.toList then
    some (String.ofList ((e.message.toList.drop before.length).takeWhile (·.toNat != 0x60)))
  else none

/-- A body that cannot be read. The library's own message may quote the input, so it is left out.
-/
def SourceError.parse (source : Source) (e : JsonError) : SourceError :=
  if e.category = .readFailure then ⟨source, .io⟩
  else
    let position := " at line " ++ toString e.row ++ " column " ++ toString e.column
    match e.missing? with
    | some field => ⟨source, .parse ("missing field " ++ field ++ position)⟩
    | none => ⟨source, .parse (e.category.name ++ " error" ++ position)⟩

-----------------------------------------------------------------------------------------
-- Requests

structure Request where
  source : Source
  url : String
  query : List (String × String)
  acceptJson : Bool
deriving DecidableEq

/-- A status, and a body unless reading it breaks off. -/
structure Response where
  status : Nat
  body : Option (List UInt8)
deriving DecidableEq

structure SourceUrls where
  nsr : String
  kartverket : String
  ssb : String
  brreg : String
deriving DecidableEq

structure SourceClient where
  /-- What the network answers to the request that is sent after as many others, if anything. -/
  network : Nat → Request → Option Response
  urls : SourceUrls
  /-- In seconds, before the second and the third attempt. -/
  retryDelays : Nat × Nat

def defaultRetryDelays : Nat × Nat := (1, 4)

/-- A failure of the server or of the network may pass, any other one will not. -/
def retryable : SourceErrorKind → Bool
  | .status status => 500 ≤ status && status < 600
  | .transport => true
  | _ => false

namespace SourceClient

variable (client : SourceClient) (request : Request)

def getOnce (sent : Nat) : Except SourceError (List UInt8) :=
  match client.network sent request with
  | none => .error ⟨request.source, .transport⟩
  | some response =>
      if 200 ≤ response.status ∧ response.status < 300 then
        match response.body with
        | some body => .ok body
        | none => .error ⟨request.source, .transport⟩
      else .error ⟨request.source, .status response.status⟩

/-- One attempt, and one more after each delay while the failure may pass. Beside the answer is
the number of requests sent by then.
-/
def getAfter : List Nat → Nat → Except SourceError (List UInt8) × Nat
  | [], sent => (client.getOnce request sent, sent + 1)
  | _ :: delays, sent =>
      match client.getOnce request sent with
      | .error e =>
          if retryable e.kind then getAfter delays (sent + 1)
          else (.error e, sent + 1)
      | .ok body => (.ok body, sent + 1)

def get (sent : Nat) : Except SourceError (List UInt8) × Nat :=
  client.getAfter request [client.retryDelays.1, client.retryDelays.2] sent

/-- The answer is that of one attempt, every attempt before it failed in a way that may pass, and
so did this one when a delay is left.
-/
theorem getAfter_spec (delays : List Nat) (sent : Nat)
    : ∃ retries ≤ delays.length,
        client.getAfter request delays sent
          = (client.getOnce request (sent + retries), sent + retries + 1)
        ∧ (∀ earlier < retries, ∃ e, client.getOnce request (sent + earlier) = .error e
          ∧ retryable e.kind)
        ∧ (retries < delays.length →
          ∀ e, client.getOnce request (sent + retries) = .error e → ¬ retryable e.kind) := by
  induction delays generalizing sent with
  | nil => exact ⟨0, Nat.le_refl 0, rfl, by simp, by simp⟩
  | cons delay delays ih =>
      rw [getAfter]
      cases once : client.getOnce request sent with
      | ok body => exact ⟨0, by simp, by simp [once], by simp, by simp [once]⟩
      | error e =>
          by_cases passes : retryable e.kind
          · obtain ⟨retries, few, same, failed, last⟩ := ih (sent + 1)
            have moved (k : Nat) : sent + 1 + k = sent + (k + 1) := by omega
            refine ⟨retries + 1, Nat.succ_le_succ few, ?_, ?_, ?_⟩
            · simp only [passes, if_true, same, moved]
            · intro earlier before
              cases earlier with
              | zero => exact ⟨e, once, passes⟩
              | succ k => exact moved k ▸ failed k (Nat.lt_of_succ_lt_succ before)
            · intro left
              exact moved retries ▸ last (Nat.lt_of_succ_lt_succ left)
          · exact ⟨0, by simp, by simp [passes, once], by simp, by simp [once, passes]⟩

/-- A request takes at most three attempts. -/
theorem get_attempts (sent : Nat)
    : sent < (client.get request sent).2 ∧ (client.get request sent).2 ≤ sent + 3 := by
  obtain ⟨retries, few, same, -⟩ := client.getAfter_spec request
    [client.retryDelays.1, client.retryDelays.2] sent
  rw [get, same]
  have atMost : retries ≤ 2 := few
  exact ⟨by omega, by omega⟩

end SourceClient

end FauPortalen.Register
