import SetScaler.Failure
import SetScaler.Json.Reader

/-!
Exchanges with the API server: requests, answers, and what an answer says when it is read as a
resource. A server that refuses a request explains itself in the body of its answer.
-/

namespace SetScaler.Api

inductive Method where
  | get
  | patch
  | delete
deriving DecidableEq, Repr

def Method.name : Method → String
  | get => "GET"
  | patch => "PATCH"
  | delete => "DELETE"

structure HttpRequest where
  method : Method
  path : String
  /-- The parameters before they are escaped, in ascending order of their names. -/
  query : List (String × String) := []
  body : Option (String × Json) := none
deriving Repr

/-- Characters that may stand in a path as they are. -/
def isPathChar (c : Char) : Bool :=
  0x21 ≤ c.toNat && c != '<' && c != '>' && c.toNat != 0x60

structure HttpAnswer where
  status : Nat
  body : String
deriving Repr, Inhabited

structure Refusal where
  code : UInt16
  reason : String := ""
deriving DecidableEq, Repr

/-- The reason of a refusal because there is no such resource. -/
def notFound : String := "NotFound"

namespace Refusal

def ofJson? (json : Json) : Option Refusal := do
  let record ← Record.ofJson? ["status", "message", "reason", "code"] json
  let _ ← record.required "status" Json.str?
  let _ ← record.optional "message" "" Json.str?
  return {
    code := ← record.required "code" Json.uint16?
    reason := ← record.optional "reason" "" Json.str? }

end Refusal

namespace HttpAnswer

/-- Why the server refused the request, if it did: in its own words, or by the status alone when the
body does not explain it. -/
def refusal? (answer : HttpAnswer) : Option Refusal :=
  if 400 ≤ answer.status ∧ answer.status < 600 then
    some (((Json.read? answer.body).bind Refusal.ofJson?).getD ⟨UInt16.ofNat answer.status, ""⟩)
  else none

def payload {α : Type} (answer : HttpAnswer) (read : Json → Option α) : Except Failure α :=
  match answer.refusal? with
  | some refusal => .error (.api (some refusal.code.toNat))
  | none =>
    match (Json.read? answer.body).bind read with
    | some value => .ok value
    | none => .error (.api none)

/-- Reads the body of an answer to a request for one resource, which may not exist. -/
def payloadIfFound {α : Type} (answer : HttpAnswer) (read : Json → Option α) :
    Except Failure (Option α) :=
  match answer.refusal? with
  | some ⟨_, reason⟩ => if reason = notFound then .ok none else (answer.payload read).map some
  | none => (answer.payload read).map some

end HttpAnswer
end SetScaler.Api
