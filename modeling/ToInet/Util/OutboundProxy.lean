import ToInet.Lib.Uri
import ToInet.Util.Prefs

-- Prefs.outboundProxy: the proxy of the settings, as a URI.
namespace ToInet.Util

open ToInet.Lib

-- What is not read of the platform: lowercase of Kotlin, the hosts of java.net.URI and its decoding of escapes.
structure UriPlatform where
  lowercase : List Char → List Char
  isHost : List Char → Bool
  decode : List Char → List Char

structure ProxySettings where
  enabled : Bool
  type : Option (List Char)
  host : Option (List Char)
  username : Option (List Char)
  password : Option (List Char)
  port : Option (List Char)

namespace ProxySettings

variable (platform : UriPlatform) (s : ProxySettings)

def scheme : List Char := (s.type.map fun text => Prefs.trim (platform.lowercase text)).getD []

def hostName : List Char := (s.host.map Prefs.trim).getD []

def portNumber : Int := (s.port.bind fun text => Prefs.parseInt (Prefs.trim text)).getD 0

-- A port that is in range.
def portPart (port : Int) : List Char := if 1 ≤ port ∧ port < 65536 then ':' :: decimal port else []

def userPart : List Char :=
  let username := s.username.getD []
  let password := s.password.getD []
  username ++ (if password = [] then [] else ':' :: password) ++
    (if username = [] ∧ password = [] then [] else ['@'])

def url : List Char :=
  s.scheme platform ++ ':' :: '/' :: '/' :: (s.userPart ++ s.hostName ++ portPart s.portNumber ++ ['/'])

-- The URI of a proxy that is valid, and the text of one that is not.
def outboundProxy : Option Uri × Option (List Char) :=
  if ¬s.enabled ∨ s.scheme platform = [] ∨ s.hostName = [] then (none, none)
  else
    match Uri.parse platform.isHost (s.url platform) with
    | some uri => (some uri, none)
    | none => (none, some (s.url platform))

end ProxySettings

end ToInet.Util
