import ToInet.Util.Prefs
import ToInet.V3onionservice.V3BackupUtils

-- The onion services in the configuration of tor, and the names that tor gives them.
namespace ToInet.Service

open ToInet.Lib ToInet.Util ToInet.V3onionservice

-- UUID.randomUUID, by the number of the call. It never repeats, and is never a number.
structure RandomUUID where
  next : Nat → String
  injective : Function.Injective next
  not_number : ∀ n (port : Int), next n ≠ toString port

variable {β : Type}

-- The services and how many UUIDs have been drawn.
structure Hosted (β : Type) where
  onions : Onions β
  uuids : Nat

-- What one row puts into the configuration. The paths are names of directories under the base path.
structure HiddenService where
  id : Nat
  path : String
  onionPort : Int
  localPort : Int
deriving DecidableEq

def updatePath (s : Onions β) (id : Nat) (path : String) : Onions β :=
  { s with rows := s.rows.map fun row => if row.id = id then { row with filepath := some path } else row }

def updateDomain (s : Onions β) (id : Nat) (domain : String) : Onions β :=
  { s with rows := s.rows.map fun row => if row.id = id then { row with domain := some domain } else row }

def hiddenService (row : Row) (path : String) : HiddenService :=
  { id := row.id, path, onionPort := getInt row.onionPort, localPort := getInt row.port }

section

variable (uuid : RandomUUID)

-- The path of a row, which is chosen when the row has none.
def choosePath (s : Hosted β) (row : Row) : String × Hosted β :=
  match row.filepath with
  | some path => (path, s)
  | none =>
      match row.domain with
      | none =>
          let path := "v3" ++ uuid.next s.uuids
          (path, { onions := updatePath s.onions row.id path, uuids := s.uuids + 1 })
      | some _ =>
          let path := portPath (getInt row.port)
          (path, { s with onions := updatePath s.onions row.id path })

def addServices (s : Hosted β) : List Row → List HiddenService × Hosted β
  | [] => ([], s)
  | row :: rows =>
      let (path, s) := choosePath uuid s row
      let (services, s) := addServices s rows
      (hiddenService row path :: services, s)

def addV3OnionServicesToTorrc (s : Hosted β) : List HiddenService × Hosted β :=
  addServices uuid s (s.onions.rows.filter fun row => row.enabled = some 1)

end

variable (text : β → String)

-- A row without a domain and without a path is an exception, and so is a name that cannot be read.
def updateNames (s : Onions β) : List Row → Onions β
  | [] => s
  | row :: rows =>
      if row.domain = none ∨ row.domain = some "" then
        match row.filepath with
        | none => s
        | some path =>
            match (s.dirs.lookup path).bind fun dir => dir.lookup "hostname" with
            | none => updateNames s rows
            | some (.directory _) => s
            | some (.file content) =>
                updateNames (updateDomain s row.id (String.ofList (Prefs.trim (text content).toList))) rows
      else updateNames s rows

def updateV3OnionNames (s : Onions β) : Onions β := updateNames text s s.rows

end ToInet.Service
