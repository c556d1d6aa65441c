import ToInet.Tgws.TgwsCore
import ToInet.Util.Prefs

-- The extras that TgwsService.start sends, and the core that onStartCommand makes of them.
namespace ToInet.Tgws.TgwsService

open ToInet.Lib ToInet.Util

structure Extras where
  port : Int
  dcMappings : List String
  secret : String
  useByeDpi : Bool
  cfWorkerDomains : List String
  cfProxyDomains : List String

def start (port : Int) (dcMappings : LinkedMap Int String) (secret : String) (useByeDpi : Bool)
    (cfWorkerDomains cfProxyDomains : List String) : Extras :=
  { port, secret, useByeDpi, cfWorkerDomains, cfProxyDomains
    dcMappings := dcMappings.entries.map fun entry => toString entry.1 ++ ":" ++ entry.2 }

-- A text without a colon has no second part.
def readMapping (text : String) : Option (Int × String) := do
  let parts := text.toList.splitOn ':'
  let key ← Prefs.parseInt (parts.getD 0 [])
  let value ← parts[1]?
  return (key, String.ofList value)

-- A service that the system starts again gets no intent; none is an exception.
def onStartCommand (intent : Option Extras) : Option TgwsCore := do
  let dcMappings ← LinkedMap.associate readMapping ((intent.map Extras.dcMappings).getD [])
  return { port := (intent.map Extras.port).getD 1480
           dcMappings
           secret := (intent.map Extras.secret).getD ""
           useByeDpi := (intent.map Extras.useByeDpi).getD false
           disableWebSockets := false
           cfWorkerDomains := (intent.map Extras.cfWorkerDomains).getD []
           cfProxyDomains := (intent.map Extras.cfProxyDomains).getD [] }

end ToInet.Tgws.TgwsService
