import SetScaler.Cluster.Metadata
import SetScaler.Yaml.Reader

/-!
Kubeconfig files: the clusters, users and contexts that somebody can connect with, and the choice of
one of them.
-/

namespace SetScaler

/-- A context: a cluster and the user to connect as. -/
structure KubeContext where
  cluster : String
  user : Option String
deriving Repr

/-- A kubeconfig: entries by name. For clusters the address is kept, of users only that they are
there. -/
structure Kubeconfig where
  clusters : List (String × Option (Option String)) := []
  users : List (String × Bool) := []
  contexts : List (String × Option KubeContext) := []
  currentContext : Option String := none
deriving Repr, Inhabited

namespace Kubeconfig

/-- A named entry: a name and, under `key`, what it stands for. -/
def named? {α : Type} (key : String) (read : Json → Option α) (json : Json) :
    Option (String × Option α) := do
  let _ ← json.members?
  return (← (json.member? "name").bind Json.str?, ← json.maybe? key read)

/-- A list of named entries, which may be absent or `null`. -/
def entries? {α : Type} (json : Json) (name key : String) (read : Json → Option α) :
    Option (List (String × Option α)) :=
  (json.maybe? name (Json.list? (named? key read))).map fun entries => entries.getD []

def cluster? (json : Json) : Option (Option String) :=
  if json.fits [("certificate-authority", Json.isText), ("certificate-authority-data", Json.isText),
      ("insecure-skip-tls-verify", (·.bool?.isSome)), ("proxy-url", Json.isText),
      ("tls-server-name", Json.isText)] then
    json.maybe? "server" Json.str?
  else none

def context? (json : Json) : Option KubeContext := do
  let _ ← json.members?
  let _ ← json.maybe? "namespace" Json.str?
  return ⟨← (json.member? "cluster").bind Json.str?, ← json.maybe? "user" Json.str?⟩

/-- Reads one document; `null` is a document without entries. -/
def ofJson? : Json → Option Kubeconfig
  | .null => some {}
  | json => do
    let _ ← json.members?
    let _ ← json.maybe? "kind" Json.str?
    let _ ← json.maybe? "apiVersion" Json.str?
    let users ← entries? json "users" "user" Json.members?
    return {
      clusters := ← entries? json "clusters" "cluster" cluster?
      users := users.map fun (name, user) => (name, user.isSome)
      contexts := ← entries? json "contexts" "context" context?
      currentContext := ← json.maybe? "current-context" Json.str? }

/-- Adds the entries of another document; of entries with one name the first counts. -/
def merge (first second : Kubeconfig) : Kubeconfig :=
  { clusters := first.clusters ++ second.clusters
    users := first.users ++ second.users
    contexts := first.contexts ++ second.contexts
    currentContext := first.currentContext.or second.currentContext }

def ofText? (text : String) : Option Kubeconfig := do
  return ((← (← Yaml.documents? text).mapM ofJson?)).foldl merge {}

/-- The address of the server of a context, or of the current one if none is named. -/
def server? (config : Kubeconfig) (context : Option String) : Option String := do
  let chosen ← (← config.contexts.lookup (← context.or config.currentContext))
  let _ ← match chosen.user with
    | none => some ()
    | some user => if config.users.lookup user = some true then some () else none
  (← config.clusters.lookup chosen.cluster).join

end Kubeconfig
end SetScaler
