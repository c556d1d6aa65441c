import ToInet.Lib.Transition
import ToInet.Service.OnionServiceColumns

-- What happens to the onion services: they are created, restored, deleted, and started with tor.
namespace ToInet.V3onionservice

open ToInet.Lib ToInet.Service ToInet.Util

variable {β : Type}

def trim (text : String) : String := String.ofList (Prefs.trim text.toList)

def checkInput (name : String) (localPort remote : Int) : Bool :=
  if (localPort < 1 ∨ localPort > 65535) ∨ remote < 1 ∨ remote > 65535 then false else trim name ≠ ""

-- A new row is enabled by default, and has neither a domain nor a path.
def doSave (s : Onions β) (name : String) (localPort onionPort : Int) : Onions β :=
  let row : Row :=
    { id := s.nextId, name := some (trim name), domain := none, onionPort := some onionPort
      createdByUser := some 1, enabled := some 1, port := some localPort, filepath := none }
  { s with rows := s.rows ++ [row], nextId := s.nextId + 1 }

-- The path that the list has shown for the row names the directory to delete.
def doDelete (s : Onions β) (id : Nat) (localPath : Option String) : Onions β :=
  { s with
    rows := s.rows.filter fun row => row.id ≠ id
    dirs := localPath.elim s.dirs fun path => s.dirs.erase path }

inductive Event (β : Type) where
  | create (name : String) (localPort onionPort : Int)
  | restore (faults : Faults) (backup : BackupName) (zip : Zip β)
  -- Tor makes directories of its own when it starts.
  | startTor (made : Store String (Directory β))
  | delete (id : Nat) (localPath : Option String)

variable (uuid : RandomUUID) (savedValues : β → Option ContentValues) (text : β → String)

def startTor (s : Hosted β) (made : Store String (Directory β)) : Hosted β :=
  let s := (addV3OnionServicesToTorrc uuid s).2
  { s with onions := updateV3OnionNames text { s.onions with dirs := made } }

-- The button that saves is enabled by checkInput.
def step (s : Hosted β) : Event β → Option (Hosted β)
  | .create name localPort onionPort =>
      if checkInput name localPort onionPort then
        some { s with onions := doSave s.onions name localPort onionPort }
      else none
  | .restore faults backup zip =>
      some { s with onions := (restoreZipBackupV3 savedValues faults s.onions backup zip).2 }
  | .startTor made => some (startTor uuid text s made)
  | .delete id localPath => some { s with onions := doDelete s.onions id localPath }

def noServices : Hosted β := { onions := { rows := [], nextId := 1, dirs := ∅ }, uuids := 0 }

end ToInet.V3onionservice
