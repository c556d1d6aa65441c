import Mathlib.Data.List.Infix
import ToInet.Lib.Strtol
import ToInet.Lib.Transition
import ToInet.Service.OrbotRawEventListener

-- The keys of a client for onion services: their table, the files that tor reads, and their backups.
namespace ToInet.V3onionservice.ClientAuth

open ToInet.Lib ToInet.Service.OrbotRawEventListener

structure KeyRow where
  id : Nat
  domain : List Char
  hash : List Char
  enabled : Int
deriving DecidableEq

-- The table, and the files of the directory that tor reads.
structure ClientAuths where
  rows : List KeyRow
  nextId : Nat
  files : Store (List Char) (List Char)

-- A new row is enabled by default.
def ClientAuths.insert (s : ClientAuths) (domain hash : List Char) : ClientAuths :=
  { s with rows := s.rows ++ [{ id := s.nextId, domain, hash, enabled := 1 }], nextId := s.nextId + 1 }

def buildV3ClientAuthFile (domain keyHash : List Char) : List Char :=
  domain ++ ":descriptor:x25519:".toList ++ keyHash

-- A file that is being written when an exception is thrown may be left with some content.
inductive Written where
  | whole
  | thrown (left : Option (List Char))
deriving DecidableEq

structure Calls where
  noCursor : Bool
  written : Nat → Written

def CLIENT_AUTH_FILE_EXTENSION : List Char := ".auth_private".toList

def authFile (i : Nat) : List Char := decimal i ++ CLIENT_AUTH_FILE_EXTENSION

-- The loop over the rows of the cursor, with the number of files at its end; none is an exception.
def addFiles (written : Nat → Written) :
    Nat → List KeyRow → Store (List Char) (List Char) → Option Nat × Store (List Char) (List Char)
  | i, [], files => (some i, files)
  | i, row :: rows, files =>
      match written i with
      | .whole =>
          addFiles written (i + 1) rows (AList.insert (authFile i) (buildV3ClientAuthFile row.domain row.hash) files)
      | .thrown left => (none, (left.map fun content => AList.insert (authFile i) content files).getD files)

def ClientAuths.enabledRows (s : ClientAuths) : List KeyRow := s.rows.filter fun row => row.enabled = 1

-- The text for the configuration of tor. All files of the directory are deleted first.
def addClientAuthToTorrc (calls : Calls) (v3AuthBasePath : List Char) (s : ClientAuths) : List Char × ClientAuths :=
  if calls.noCursor then ([], s)
  else
    let (i, files) := addFiles calls.written 0 s.enabledRows ∅
    (if 0 < i.getD 0 then "ClientOnionAuthDir ".toList ++ v3AuthBasePath ++ ['\n'] else [], { s with files })

-- The text in front of the first occurrence of the domain.
def sanitizeOnionDomainTextField (onion : List Char) : List Char :=
  let domain := ".onion".toList
  if domain.isSuffixOf onion then onion.take (onion.tails.findIdx fun tail => domain.isPrefixOf tail) else onion

-- String.matches for one class of characters with a count.
def ofClass (ranges : List (Char × Char)) (count : Nat) (text : List Char) : Bool :=
  text.length == count && text.all fun c => ranges.any fun range => range.1 ≤ c && c ≤ range.2

def checkInput (onionUrl keyHash : List Char) : Bool :=
  ofClass [('a', 'z'), ('0', '9')] 56 (sanitizeOnionDomainTextField onionUrl) &&
    ofClass [('A', 'Z'), ('2', '7')] 52 keyHash

def doSave (s : ClientAuths) (onionUrl keyHash : List Char) : ClientAuths :=
  s.insert (sanitizeOnionDomainTextField onionUrl) keyHash

-- The switch of a row, and the deletion of a row.
def onCheckedChanged (s : ClientAuths) (id : Nat) (isChecked : Bool) : ClientAuths :=
  { s with
    rows := s.rows.map fun row => if row.id = id then { row with enabled := if isChecked then 1 else 0 } else row }

def doDelete (s : ClientAuths) (id : Nat) : ClientAuths :=
  { s with rows := s.rows.filter fun row => row.id ≠ id }

-- String.trim
def trimmed (text : List Char) : List Char :=
  ((text.dropWhile (· ≤ ' ')).reverse.dropWhile (· ≤ ' ')).reverse

-- The name that is proposed for the file of a backup.
def doBackup (typed : List Char) : List Char :=
  let filename := trimmed typed
  if CLIENT_AUTH_FILE_EXTENSION.isSuffixOf filename then filename else filename ++ CLIENT_AUTH_FILE_EXTENSION

-- The text of a backup; none is an IOException.
def createV3AuthBackup (fails : Bool) (domain keyHash : List Char) : Option (List Char) :=
  if fails then none else some (buildV3ClientAuthFile domain keyHash)

-- none is the toast of an error.
def restoreClientAuthBackup (s : ClientAuths) (authFileContents : List Char) : Option ClientAuths :=
  match split ':' authFileContents with
  | [domain, _, _, hash] => some (s.insert domain hash)
  | _ => none

def onActivityResult (s : ClientAuths) (filename authText : List Char) : Option ClientAuths :=
  if CLIENT_AUTH_FILE_EXTENSION.isSuffixOf filename then restoreClientAuthBackup s authText else none

inductive Event where
  | create (onionUrl keyHash : List Char)
  | restore (filename authText : List Char)
  | check (id : Nat) (isChecked : Bool)
  | delete (id : Nat)
  | startTor (calls : Calls) (v3AuthBasePath : List Char)

-- The button that saves is enabled by checkInput.
def step (s : ClientAuths) : Event → Option ClientAuths
  | .create onionUrl keyHash => if checkInput onionUrl keyHash then some (doSave s onionUrl keyHash) else none
  | .restore filename authText => some ((onActivityResult s filename authText).getD s)
  | .check id isChecked => some (onCheckedChanged s id isChecked)
  | .delete id => some (doDelete s id)
  | .startTor calls v3AuthBasePath => some (addClientAuthToTorrc calls v3AuthBasePath s).2

def noKeys : ClientAuths := { rows := [], nextId := 1, files := ∅ }

end ToInet.V3onionservice.ClientAuth
