import ToInet.Lib.Hex
import ToInet.Lib.Split
import ToInet.Circumvention.Transport

-- The parser for bridge lines, and the builder that writes them again.
namespace ToInet.Circumvention

open ToInet.Lib ToInet.Util

-- Bridge, by its raw line.
structure Bridge where
  raw : List Char

namespace Bridge

-- [a-f0-9] forty times, whatever the case.
def isFingerprint (text : List Char) : Bool := text.length = 40 ∧ text.all fun c => (digitVal c).isSome

variable (bridge : Bridge)

-- A line of fewer than three pieces gets an empty transport.
def rawPieces : List (List Char) :=
  let pieces := bridge.raw.splitOn ' '
  if pieces.length < 3 then [] :: pieces else pieces

def transport : Option (List Char) :=
  match bridge.rawPieces.head? with
  | none | some [] => none
  | some name => some name

def address : Option (List Char) := bridge.rawPieces[1]?

def ip : Option (List Char) := bridge.address.map (frontPart ':')

-- The outer none is a NumberFormatException.
def port : Option (Option Int) :=
  match bridge.address with
  | none => some none
  | some address => (Prefs.parseInt (lastPart ':' address)).map some

def fingerprint1 : Option (List Char) := bridge.rawPieces[2]?.filter isFingerprint

def startsWith (key : String) (piece : List Char) : Bool := (key.toList ++ ['=']).isPrefixOf piece

-- The text behind the last = of the first piece with the key.
def param (key : String) : Option (List Char) := (bridge.rawPieces.find? (startsWith key)).map (lastPart '=')

def fingerprint2 : Option (List Char) := bridge.param "fingerprint"

def url : Option (List Char) := bridge.param "url"

def front : Option (List Char) := bridge.param "front"

def fronts : Option (List (List Char)) := (bridge.param "fronts").map fun value => (value.splitOn ',').filter (· ≠ [])

def cert : Option (List Char) := bridge.param "cert"

def iatMode : Option (List Char) := bridge.param "iat-mode"

def ice : Option (List Char) := bridge.param "ice"

def utls : Option (List Char) := bridge.param "utls"

def utlsImitate : Option (List Char) := bridge.param "utls-imitate"

def ver : Option (List Char) := bridge.param "ver"

-- fronts is a set that keeps the order in which its elements came in.
structure Builder where
  transport : Option (List Char)
  ip : List Char
  port : Int
  fingerprint1 : Option (List Char)
  fingerprint2 : Option (List Char)
  url : Option (List Char)
  front : Option (List Char)
  fronts : List (List Char)
  cert : Option (List Char)
  iatMode : Option (List Char)
  ice : Option (List Char)
  utls : Option (List Char)
  utlsImitate : Option (List Char)
  ver : Option (List Char)

namespace Builder

-- none is an exception.
def ofBridge (bridge : Bridge) : Option Builder := do
  let port ← bridge.port
  if (bridge.ip.getD []) = [] ∨ port.getD 0 < 1 then none
  else
    some { transport := bridge.transport, ip := bridge.ip.getD [], port := port.getD 0
           fingerprint1 := bridge.fingerprint1, fingerprint2 := bridge.fingerprint2, url := bridge.url
           front := bridge.front, fronts := (bridge.fronts.getD []).eraseDups, cert := bridge.cert
           iatMode := bridge.iatMode, ice := bridge.ice, utls := bridge.utls, utlsImitate := bridge.utlsImitate
           ver := bridge.ver }

def nonEmpty (value : Option (List Char)) : List (List Char) := (value.toList).filter (· ≠ [])

def named (key : String) (value : Option (List Char)) : List (List Char) :=
  (nonEmpty value).map fun value => key.toList ++ '=' :: value

variable (builder : Builder)

def joinedFronts : Option (List Char) :=
  let fronts := builder.fronts.filter (· ≠ [])
  if fronts = [] then none else some ([','].intercalate fronts)

def fields : List (String × Option (List Char)) :=
  [("fingerprint", builder.fingerprint2), ("url", builder.url), ("front", builder.front),
    ("fronts", builder.joinedFronts), ("cert", builder.cert), ("iat-mode", builder.iatMode), ("ice", builder.ice),
    ("utls", builder.utls), ("utls-imitate", builder.utlsImitate), ("ver", builder.ver)]

def params : List (List Char) :=
  nonEmpty builder.transport ++ [builder.ip ++ ':' :: (toString builder.port).toList] ++
    nonEmpty builder.fingerprint1 ++ builder.fields.flatMap fun field => named field.1 field.2

def build : Bridge := ⟨[' '].intercalate builder.params⟩

end Builder

end Bridge

end ToInet.Circumvention
