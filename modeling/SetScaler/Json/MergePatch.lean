import SetScaler.Json.Basic

/-!
Merge patches of RFC 7386: a patch that is an object is merged member by member, `null` removing a
member; any other patch takes the place of the value.
-/

namespace SetScaler.Json

/-- The members of a value, none when it is no object. -/
def membersOf : Json → List (String × Json)
  | .obj members => members
  | _ => []

/-- Puts a value under a key: in place when the key is there, at the end when it is not. -/
def put (key : String) (value : Json) : List (String × Json) → List (String × Json)
  | [] => [(key, value)]
  | member :: rest => if member.1 = key then (key, value) :: rest else member :: put key value rest

def valueOf (key : String) (members : List (String × Json)) : Json :=
  (members.lookup key).getD .null

mutual

def merge (target : Json) : Json → Json
  | .obj patch => .obj (mergeMembers (membersOf target) patch)
  | replacement => replacement

/-- The members of an object after the members of a patch, one after the other. -/
def mergeMembers (members : List (String × Json)) : List (String × Json) → List (String × Json)
  | [] => members
  | (key, change) :: rest =>
    match change with
    | .null => mergeMembers (members.filter (·.1 != key)) rest
    | change => mergeMembers (put key (merge (valueOf key members) change) members) rest

end

end SetScaler.Json
