import SetScaler.Settings.Basic

/-!
Commands run inside bookie pods: requests to the bookie's HTTP endpoint on its own host, and the
bookkeeper shell. Each is one shell script.
-/

namespace SetScaler

inductive BookieAction where
  | state
  | info
  | setReadOnly (flag : Bool)
  | listUnderReplicated
  | recover (bookieId : String)
  | listLedgers (bookieId : String)
  | deleteCookie (bookieId : String)
  /-- Moves the version markers of the data directories aside, so that the bookie does not start on
  them again. -/
  | retireMarkers
  | triggerAudit
deriving DecidableEq, Repr

/-- An action and the pod it is run in; `ns` is the pod's namespace. -/
structure BookieCommand where
  ns : String
  pod : String
  action : BookieAction
deriving DecidableEq, Repr

namespace BookieAction

def url (settings : ScalingSettings) (path : String) : String :=
  "localhost:" ++ toString settings.bookieAdminPort.toNat ++ "/api/v1/bookie/" ++ path

/-- A command of the bookkeeper shell, its errors shown with its output. -/
def shell (arguments : String) : String := "bin/bookkeeper shell " ++ arguments ++ " 2>&1"

/-- Moves the version marker of one directory aside, if it is there. -/
def retireIn (directory : String) : String :=
  let marker := directory ++ "/current/VERSION"
  "if [ -f " ++ marker ++ " ]; then mv " ++ marker ++ " " ++ marker ++ ".removed; fi"

def script (settings : ScalingSettings) : BookieAction → String
  | state => "curl -s " ++ url settings "state"
  | info => "curl -s " ++ url settings "info"
  | setReadOnly flag =>
    "curl -s -X PUT -H 'Content-Type: application/json' -d '\x7b\"readOnly\":" ++ toString flag ++
      "\x7d' " ++ url settings "state/readonly"
  | listUnderReplicated => shell "listunderreplicated"
  | recover bookieId => shell ("recover -f " ++ bookieId)
  | listLedgers bookieId => shell ("listledgers -bookieid " ++ bookieId)
  | deleteCookie bookieId => shell ("deletecookie -bookieid " ++ bookieId)
  | retireMarkers =>
    " && ".intercalate (settings.bookieDataDirs.map retireIn) ++ " && echo retired"
  | triggerAudit => shell "triggeraudit"

end BookieAction

def BookieCommand.words (command : BookieCommand) (settings : ScalingSettings) : List String :=
  ["sh", "-c", command.action.script settings]

end SetScaler
