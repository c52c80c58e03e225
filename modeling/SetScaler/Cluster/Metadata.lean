import SetScaler.Calendar
import SetScaler.Json.Basic

/-!
The metadata that every resource carries. Only a few members are kept; the others are checked for
their type, since a resource with a malformed member is refused as a whole.
-/

namespace SetScaler

namespace Json

/-- A member that may be absent or `null`. -/
def maybe? {α : Type} (json : Json) (name : String) (read : Json → Option α) : Option (Option α) :=
  match json.member? name with
  | none => some none
  | some json => option? read json

def time? (json : Json) : Option Timestamp := json.str?.bind Timestamp.ofText?

/-- An object whose members are all read by `read`. -/
def map? {α : Type} (read : Json → Option α) (json : Json) : Option (List (String × α)) :=
  json.members?.bind fun members =>
    members.mapM fun (name, value) => (read value).map ((name, ·))

/-- Whether those members that are given fit their types; a type is given as a test. -/
def fits (json : Json) (types : List (String × (Json → Bool))) : Bool :=
  json.members?.isSome && types.all fun (name, isOfType) =>
    match json.member? name with
    | none | some null => true
    | some value => isOfType value

def isText (json : Json) : Bool := json.str?.isSome

def isTextMap (json : Json) : Bool := (map? str? json).isSome

def isTextList (json : Json) : Bool := (list? str? json).isSome

def isInt64 (json : Json) : Bool := json.int64?.isSome

def isTime (json : Json) : Bool := json.time?.isSome

end Json

/-- What a resource says about itself. -/
structure Metadata where
  name : Option String := none
  generateName : Option String := none
  ns : Option String := none
  /-- Set once the resource is being deleted. -/
  deletionTimestamp : Option Timestamp := none
deriving Repr, Inhabited

namespace Metadata

def isOwner (json : Json) : Bool :=
  json.fits [("apiVersion", Json.isText), ("blockOwnerDeletion", (·.bool?.isSome)),
    ("controller", (·.bool?.isSome)), ("kind", Json.isText), ("name", Json.isText),
    ("uid", Json.isText)]

/-- A note on who manages which members of a resource. -/
def isManager (json : Json) : Bool :=
  json.fits [("apiVersion", Json.isText), ("fieldsType", Json.isText), ("manager", Json.isText),
    ("operation", Json.isText), ("subresource", Json.isText), ("time", Json.isTime)]

/-- The members that are checked and not kept. -/
def others : List (String × (Json → Bool)) :=
  [("annotations", Json.isTextMap), ("creationTimestamp", Json.isTime),
   ("deletionGracePeriodSeconds", Json.isInt64), ("finalizers", Json.isTextList),
   ("generation", Json.isInt64), ("labels", Json.isTextMap),
   ("managedFields", fun json => json.items?.any (·.all isManager)),
   ("ownerReferences", fun json => json.items?.any (·.all isOwner)),
   ("resourceVersion", Json.isText), ("selfLink", Json.isText), ("uid", Json.isText)]

def ofJson? (json : Json) : Option Metadata := do
  if json.fits others then
    return {
      name := ← json.maybe? "name" Json.str?
      generateName := ← json.maybe? "generateName" Json.str?
      ns := ← json.maybe? "namespace" Json.str?
      deletionTimestamp := ← json.maybe? "deletionTimestamp" Json.time? }
  else none

end Metadata
end SetScaler
