import ToInet.Lib.Store

-- Restoring the backup of an onion service: the table of the services, and their directories
-- under the base path.
namespace ToInet.V3onionservice

open ToInet.Lib

-- A row of the table. The columns of a new row that are not given are null.
structure Row where
  id : Nat
  name : Option String
  domain : Option String
  onionPort : Option Int
  createdByUser : Option Int
  enabled : Option Int
  port : Option Int
  filepath : Option String
deriving DecidableEq

-- Cursor.getInt of a column that is null.
def getInt (column : Option Int) : Int := column.getD 0

-- The directory of a port.
def portPath (port : Int) : String := "v3" ++ toString port

-- The directory of a service: its path, or, until tor is started with a service that has been restored, that of its
-- port. A service with neither a path nor a domain has none yet.
def knownPath (row : Row) : Option String :=
  row.filepath.or (row.domain.map fun _ => portPath (getInt row.port))

-- What a configuration file sets.
structure ContentValues where
  port : Int
  name : String
  onionPort : Int
  domain : String
  createdByUser : Int
  enabled : Int
deriving DecidableEq

variable {β : Type}

inductive Entry (β : Type) where
  | file (content : β)
  | directory (children : List String)
deriving DecidableEq

abbrev Directory (β : Type) := Store String (Entry β)

structure Onions (β : Type) where
  rows : List Row
  nextId : Nat
  dirs : Store String (Directory β)

def configFileName : String := "config.json"

def ONION_SERVICE_CONFIG_FILES : List String :=
  [configFileName, "hostname", "hs_ed25519_public_key", "hs_ed25519_secret_key"]

-- File.delete deletes a directory only when it is empty.
def Entry.deletable : Entry β → Bool
  | .file _ => true
  | .directory children => children.isEmpty

def Directory.delete (dir : Directory β) (name : String) : Directory β :=
  match dir.lookup name with
  | some entry => if entry.deletable then dir.erase name else dir
  | none => dir

-- Each file of listFiles is deleted, then the directory itself.
def Directory.deleteFiles (dir : Directory β) : Directory β := dir.keys.foldl Directory.delete dir

def Directory.deleteAll (dir : Directory β) : Option (Directory β) :=
  if dir.deleteFiles.keys = [] then none else some dir.deleteFiles

-- Opening a directory for writing is an IOException.
def Directory.write (dir : Directory β) (name : String) (content : β) : Option (Directory β) :=
  match dir.lookup name with
  | some (.directory _) => none
  | _ => some (dir.insert name (.file content))

def Onions.setDir (s : Onions β) (name : String) (dir : Option (Directory β)) : Onions β :=
  { s with dirs := (dir.map fun dir => s.dirs.insert name dir).getD (s.dirs.erase name) }

-- The display name of a backup: a file name, of which what stands in front of the last dot names
-- a directory of its own.
structure BackupName where
  v3Dir : String
  extension : String
  named : v3Dir ∉ ["", ".", ".."] ∧ '/' ∉ v3Dir.toList
  last : '.' ∉ extension.toList

-- A zip file: its entries, up to its end or to an IOException.
structure Zip (β : Type) where
  entries : List (String × β)
  broken : Bool

def extractFromZipInputStream (dir : Directory β) (broken : Bool) :
    List (String × β) → Bool × Option (Directory β)
  | [] => (!broken, some dir)
  | (filename, content) :: entries =>
      if filename ∈ ONION_SERVICE_CONFIG_FILES then
        match dir.write filename content with
        | some dir => extractFromZipInputStream dir broken entries
        | none => (false, some dir)
      else (false, dir.deleteAll)

-- mkdirs makes a directory that is not there.
def Onions.mkdirs (s : Onions β) (v3Dir : String) : Directory β := (s.dirs.lookup v3Dir).getD ∅

def unzip (s : Onions β) (v3Dir : String) (zip : Zip β) : Bool × Onions β :=
  let (returnVal, dir) := extractFromZipInputStream (s.mkdirs v3Dir) zip.broken zip.entries
  (returnVal, s.setDir v3Dir dir)

-- What may go wrong outside of the program: the configuration file cannot be read, the provider
-- has no cursor, the database rejects the new row, or a system call fails.
structure Faults where
  configUnreadable : Bool
  noCursor : Bool
  insertRejected : Bool
  renameFails : Bool
  listFails : Bool
deriving DecidableEq

def Row.put (row : Row) (fields : ContentValues) : Row :=
  { row with
    name := some fields.name, domain := some fields.domain, onionPort := some fields.onionPort
    createdByUser := some fields.createdByUser, enabled := some fields.enabled, port := some fields.port }

def Onions.insert (s : Onions β) (fields : ContentValues) : Onions β :=
  let row : Row :=
    { id := s.nextId, name := none, domain := none, onionPort := none, createdByUser := none
      enabled := none, port := none, filepath := none }
  { s with rows := s.rows ++ [row.put fields], nextId := s.nextId + 1 }

def Onions.update (s : Onions β) (fields : ContentValues) : Onions β :=
  { s with rows := s.rows.map fun row => if row.port = some fields.port then row.put fields else row }

-- The query for the port, and the insert or update behind it.
def Onions.save (s : Onions β) (faults : Faults) (fields : ContentValues) : Onions β :=
  if faults.noCursor || s.rows.all (·.port ≠ some fields.port) then
    if faults.insertRejected then s else s.insert fields
  else s.update fields

-- rename takes the place of an empty directory, and leaves a directory that keeps its name.
def Onions.renameTo (s : Onions β) (faults : Faults) (source target : String) (dir : Directory β) :
    Option (Onions β) :=
  if faults.renameFails then none
  else if source = target then some s
  else if (s.mkdirs target).keys = [] then some ((s.setDir source none).setDir target (some dir))
  else none

inductive Report where
  | notUnzipped
  | restored
  | portExist
  | error
deriving DecidableEq

-- The values of the configuration file; none is an exception.
def readConfig (savedValues : β → Option ContentValues) (faults : Faults) (dir : Directory β) :
    Option ContentValues :=
  match dir.lookup configFileName with
  | some (.file content) => if faults.configUnreadable then none else savedValues content
  | _ => none

section

variable (savedValues : β → Option ContentValues) (faults : Faults)

-- A cursor that is null is closed behind the insert.
def extractConfigFromUnzippedBackupV3 (s : Onions β) (v3Dir : String) : Report × Onions β :=
  let dir := s.mkdirs v3Dir
  let made := s.setDir v3Dir (some dir)
  match readConfig savedValues faults dir with
  | none => (.error, made)
  | some fields =>
      let saved := made.save faults fields
      if faults.noCursor then (.error, saved)
      else
        let dir := dir.delete configFileName
        let bare := saved.setDir v3Dir (some dir)
        match bare.renameTo faults v3Dir (portPath fields.port) dir with
        | some renamed => (.restored, renamed)
        | none =>
            if faults.listFails then (.error, bare)
            else (.portExist, bare.setDir v3Dir dir.deleteAll)

def restoreZipBackupV3 (s : Onions β) (backup : BackupName) (zip : Zip β) : Report × Onions β :=
  let (unzipped, s) := unzip s backup.v3Dir zip
  if unzipped then extractConfigFromUnzippedBackupV3 savedValues faults s backup.v3Dir else (.notUnzipped, s)

end

-- The rows of the table are as before, and so are the directories of its services.
def Unharmed (s t : Onions β) : Prop :=
  t.rows = s.rows ∧ ∀ row ∈ s.rows, ∀ path, knownPath row = some path →
    (t.dirs.lookup path).map (fun dir name => dir.lookup name) =
      (s.dirs.lookup path).map (fun dir name => dir.lookup name)

end ToInet.V3onionservice
