import SetScaler.Bookie.Disk
import SetScaler.Json.Reader
import SetScaler.Text.Blank

/-!
What a bookie reports about itself over HTTP, read from the text that it prints.
-/

namespace SetScaler

structure BookieState where
  running : Bool := false
  readOnly : Bool := false
  shuttingDown : Bool := false
deriving DecidableEq, Repr, Inhabited

/-- The disk space that a bookie reports, in bytes. -/
structure BookieInfo where
  freeSpace : UInt64
  totalSpace : UInt64
deriving DecidableEq, Repr, Inhabited

namespace BookieState

def writable (state : BookieState) : Bool := state.running && !state.readOnly && !state.shuttingDown

def ofJson? (json : Json) : Option BookieState := do
  let record ← Record.ofJson? ["running", "readOnly", "shuttingDown"] json
  return {
    running := ← record.optional "running" false Json.bool?
    readOnly := ← record.optional "readOnly" false Json.bool?
    shuttingDown := ← record.optional "shuttingDown" false Json.bool? }

/-- The state in a bookie's output, blanks around it passed over. -/
def ofOutput? (output : String) : Option BookieState :=
  (Json.read? (Text.trim output)).bind ofJson?

end BookieState

namespace BookieInfo

/-- The disk that the report speaks of; free space beyond the total counts as all of it. -/
def disk (info : BookieInfo) : Disk :=
  ⟨info.totalSpace,
    if info.freeSpace ≤ info.totalSpace then info.totalSpace - info.freeSpace else 0⟩

def ofJson? (json : Json) : Option BookieInfo := do
  let record ← Record.ofJson? ["freeSpace", "totalSpace"] json
  return {
    freeSpace := ← record.required "freeSpace" Json.uint64?
    totalSpace := ← record.required "totalSpace" Json.uint64? }

/-- The disk space in a bookie's output, blanks around it passed over. -/
def ofOutput? (output : String) : Option BookieInfo :=
  (Json.read? (Text.trim output)).bind ofJson?

end BookieInfo
end SetScaler
