import ToInet.Circumvention.GetTorConfig

-- TorConfig: the configuration of Tor, with ports that nothing on the device uses.
namespace ToInet.Service.TorConfig

open ToInet.Lib ToInet.Util ToInet.Circumvention ToInet.Circumvention.GetTorConfig

structure TorPrefs where
  proxySocksPort : Option (List Char)
  proxyHttpPort : Option (List Char)
  torTransPort : Option (List Char)
  torDnsPort : Option (List Char)
  openProxyOnAllInterfaces : Bool
  connectionPadding : Bool
  reducedConnectionPadding : Bool
  circuitPadding : Bool
  reducedCircuitPadding : Bool
  useDebugLogging : Bool
  isolateDest : Bool
  isolatePort : Bool
  isolateProtocol : Bool
  isolateKeepAlive : Bool
  preferIpv6 : Bool
  disableIpv4 : Bool
  transport : Transport
  entryNodes : Option (List Char)
  exitNodes : Option (List Char)
  excludeNodes : Option (List Char)
  strictNodes : Bool
  reachableAddresses : Bool
  reachableAddressesPorts : Option (List Char)
  hostOnionServicesEnabled : Bool
  customTorRc : Option (List Char)

-- The paths of the files that exist, and what the tables of the services and their clients add.
structure Files where
  geoIpFile : Option (List Char)
  geoIp6File : Option (List Char)
  clientAuthLines : List Char
  onionServiceLines : List Char

structure Ports where
  socks : List Char
  http : List Char
  trans : List Char
  dns : List Char

section

-- The ports that answer on the device.
variable (answers : Int → Bool)

-- The constructor of the address throws beyond the range of ports.
def isPortOpen (port : Int) : Bool := 0 ≤ port && port ≤ 65535 && answers port

-- The loop of checkPortOrAuto; none is a loop that goes on.
def checkPort : Nat → Int → Option Int
  | 0, _ => none
  | fuel + 1, port => if isPortOpen answers port then checkPort fuel (port + 1) else some port

-- More passes than there are ports.
def passes : Nat := 65537

-- none is a NumberFormatException.
def checkPortOrAuto (portString : List Char) : Option (List Char) :=
  if portString.map Char.toLower = "auto".toList then some portString
  else (Prefs.parseInt portString).bind fun port => (checkPort answers passes port).map decimal

def portOf (port : List Char) : List Char := if ':' ∈ port then ((port.splitOn ':')[1]?).getD [] else port

def getPort (port : List Char) : Option (List Char) := checkPortOrAuto answers (portOf port)

variable (prefs : TorPrefs)

def socksPort : List Char := prefs.proxySocksPort.getD "5242".toList

def httpPort : List Char := prefs.proxyHttpPort.getD "5267".toList

def transPort : List Char := prefs.torTransPort.getD "9040".toList

def dnsPort : List Char := prefs.torDnsPort.getD "9053".toList

def ports : Option Ports := do
  let socks ← getPort answers (socksPort prefs)
  let http ← getPort answers (httpPort prefs)
  let trans ← checkPortOrAuto answers (transPort prefs)
  let dns ← checkPortOrAuto answers (dnsPort prefs)
  some { socks, http, trans, dns }

end

section

variable (prefs : TorPrefs) (files : Files)

def words (list : List (Bool × String)) : List Char :=
  [' '].intercalate ((list.filter Prod.fst).map fun word => word.2.toList)

def getIsolation : List Char :=
  words [(prefs.isolateDest, "IsolateDestAddr"), (prefs.isolatePort, "IsolateDestPort"),
    (prefs.isolateProtocol, "IsolateClientProtocol"), (prefs.isolateKeepAlive, "KeepAliveIsolateSOCKSAuth")]

def getIpv6 : List Char :=
  words [(prefs.preferIpv6 || prefs.disableIpv4, "IPv6Traffic"), (prefs.preferIpv6, "PreferIPv6"),
    (prefs.disableIpv4, "NoIPv4Traffic")]

def flag (value : Bool) : List Char := if value then ['1'] else ['0']

def lineIf (condition : Bool) (line : String) : List (List Char) := if condition then [line.toList] else []

-- A directive for a value that is there and, where it is a text, not empty.
def optional (keyword : String) (value : Option (List Char)) : List (List Char) :=
  match value with
  | none | some [] => []
  | some value => [directive keyword value]

def firstLines : List (List Char) :=
  ["RunAsDaemon 1", "AvoidDiskWrites 1", "HardwareAccel 1", "ClientOnly 1", "SafeLogging 1", "FastFirstHopPK 1",
    "OptimisticData 1", "LongLivedPorts 21,22,706,1863,5050,5190,5222,5223,6667,6697,8300,443,80,8443,5228"].map
    String.toList

def socksLine (ports : Ports) : List Char :=
  directive "SOCKSPort"
    ((if prefs.openProxyOnAllInterfaces then "0.0.0.0:".toList else []) ++ ports.socks ++ ' ' :: (getIpv6 prefs ++
      ' ' :: (getIsolation prefs ++ " OptimisticData".toList)))

def httpLine (ports : Ports) : List Char := directive "HTTPTunnelPort" (ports.http ++ ' ' :: getIsolation prefs)

def transLine (ports : Ports) : List Char := directive "TransPort" (ports.trans ++ ' ' :: getIsolation prefs)

def dnsLine (ports : Ports) : List Char := directive "DNSPort" (ports.dns ++ ' ' :: getIsolation prefs)

def portLines (ports : Ports) : List (List Char) :=
  socksLine prefs ports :: (lineIf prefs.openProxyOnAllInterfaces "SocksPolicy accept *:*" ++
    ["SafeSocks 0".toList, "TestSocks 0".toList, httpLine prefs ports] ++
    lineIf prefs.connectionPadding "ConnectionPadding 1" ++
    lineIf prefs.reducedConnectionPadding "ReducedConnectionPadding 1" ++
    [directive "CircuitPadding" (flag prefs.circuitPadding)] ++
    lineIf prefs.reducedCircuitPadding "ReducedCircuitPadding 1" ++ [transLine prefs ports, dnsLine prefs ports])

def middleLines : List (List Char) :=
  ["VirtualAddrNetwork 10.192.0.0/10", "AutomapHostsOnResolve 1", "DormantClientTimeout 10 minutes",
    "DormantCanceledByStartup 1", "DisableNetwork 0"].map String.toList ++
    lineIf prefs.useDebugLogging "Log debug syslog" ++ lineIf prefs.useDebugLogging "SafeLogging 0"

def lastLines : List (List Char) :=
  (files.geoIpFile.map (directive "GeoIPFile")).toList ++ (files.geoIp6File.map (directive "GeoIPv6File")).toList ++
    optional "EntryNodes" prefs.entryNodes ++ optional "ExitNodes" prefs.exitNodes ++
    optional "ExcludeNodes" prefs.excludeNodes ++ [directive "StrictNodes" (flag prefs.strictNodes)] ++
    (if prefs.reachableAddresses then
      [directive "ReachableAddresses" (prefs.reachableAddressesPorts.getD "*:80,*:443".toList)] else []) ++
    files.clientAuthLines.splitOn '\n' ++
    (if prefs.hostOnionServicesEnabled then files.onionServiceLines.splitOn '\n' else []) ++
    (match prefs.customTorRc with
      | none | some [] => []
      | some custom => [custom])

variable (answers : Int → Bool) (platform : UriPlatform) (sources : Sources)

-- none is an exception.
def conf : Option (List (List Char)) := do
  let ports ← ports answers prefs
  let transportLines ← getTorConfig platform sources prefs.transport
  some (firstLines ++ portLines prefs ports ++ middleLines prefs ++ transportLines ++ lastLines prefs files)

def build : Option (List Char) := (conf prefs files answers platform sources).map fun lines => ['\n'].intercalate lines

end

end ToInet.Service.TorConfig
