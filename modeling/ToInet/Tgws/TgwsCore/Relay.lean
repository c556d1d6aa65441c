import ToInet.Lib.Transition
import ToInet.Tgws.TgwsCore

-- connectAndBridge: the sockets of a connection and how long their reads may wait, and the two
-- coroutines that relay.
namespace ToInet.Tgws

open ToInet.Lib

-- A read that waits for longer than soTimeout milliseconds throws, unless soTimeout is 0.
structure Socket where
  soTimeout : Nat
deriving DecidableEq

-- The preferences that choose a proxy; the address of the opera proxy is split into host and port.
structure ProxyPrefs where
  vpnProvider : String
  turnProxyLocalPort : Int
  operaProxyHost : String
  operaProxyPort : Int
  customSocksIp : String
  customSocksPort : Int

def ProxyPrefs.targetPort (prefs : ProxyPrefs) : Int :=
  match prefs.vpnProvider with
  | "byedpi" => 1080
  | "tor" => 5242
  | "tgws" => 1480
  | "rehab" => 1788
  | "turnproxy" => prefs.turnProxyLocalPort
  | "fakevpn" => 1790
  | "operaproxy" => prefs.operaProxyPort
  | "custom" => prefs.customSocksPort
  | _ => 1080

def ProxyPrefs.targetHost (prefs : ProxyPrefs) : String :=
  match prefs.vpnProvider with
  | "operaproxy" => prefs.operaProxyHost
  | "custom" => prefs.customSocksIp
  | _ => "127.0.0.1"

inductive Route where
  | direct (host : String) (port : Int)
  | httpProxy (targetHost : String) (targetPort : Int) (host : String) (port : Int)
  | socksProxy (targetHost : String) (targetPort : Int) (host : String) (port : Int)
deriving DecidableEq

-- Which connections are made, and what a proxy and a WebSocket server answer up to an empty line.
structure Network where
  connects : Route → Bool
  proxyAnswer : Route → Option String
  handshakes : String → Bool
  upgradeAnswer : String → Option String

def contains (text part : String) : Bool := decide (part.toList <:+: text.toList)

namespace TgwsCore

variable (prefs : ProxyPrefs) (network : Network) (core : TgwsCore)

def route (host : String) (port : Int) : Route :=
  if core.useByeDpi then
    if prefs.targetPort = core.port ∧ prefs.targetHost = "127.0.0.1" then .direct host port
    else if prefs.vpnProvider = "operaproxy" then .httpProxy prefs.targetHost prefs.targetPort host port
    else .socksProxy prefs.targetHost prefs.targetPort host port
  else .direct host port

-- none is an exception.
def createSocket (host : String) (port : Int) : Option Socket :=
  let route := core.route prefs host port
  if network.connects route then
    match route with
    | .direct .. => some { soTimeout := 0 }
    | .httpProxy .. => do
        let sb ← network.proxyAnswer route
        if contains sb " 200 " then some { soTimeout := 0 } else none
    | .socksProxy .. => some { soTimeout := 0 }
  else none

def connectWebSocket (domain : String) : Option Socket := do
  let _ ← core.createSocket prefs network domain 443
  if network.handshakes domain then
    let sb ← network.upgradeAnswer domain
    if contains sb "101 Switching Protocols" then some { soTimeout := 0 } else none
  else none

def domains (dcId : Option Int) (isMedia : Bool) : List String :=
  match dcId with
  | none => []
  | some dcId =>
      if core.disableWebSockets then []
      else
        let name := (if isMedia then "kwsmedia" else "kws") ++ toString dcId
        core.cfWorkerDomains.map (fun domain => name ++ "." ++ domain) ++
          core.cfProxyDomains.map (fun domain => name ++ "." ++ domain) ++ [name ++ ".web.telegram.org"]

-- The socket that the client is bridged to: a WebSocket, or the target itself.
def remoteSocket (delivery : Delivery) : Option Socket :=
  match (core.domains delivery.dcId delivery.isMedia).findSome? (core.connectWebSocket prefs network) with
  | some wsSocket => some wsSocket
  | none => core.createSocket prefs network delivery.targetIp delivery.targetPort

end TgwsCore

inductive Side where
  | client
  | remote
deriving DecidableEq

-- The coroutine that reads from a side: the timeout of its socket, when its read began, and what
-- it has written to the other side.
structure Leg where
  soTimeout : Nat
  since : Nat
  written : Bytes
deriving DecidableEq

inductive End where
  | closed
  | failed
  | silence
deriving DecidableEq

structure Relay where
  client : Leg
  remote : Leg
  now : Nat
  ended : Option End
deriving DecidableEq

-- What comes next in time: nothing so far, a read returns an array (of a WebSocket: a message) and
-- the coroutine is back in front of its read later, or a side closes or fails.
inductive Happening where
  | nothing
  | chunk (side : Side) (data : Bytes) (next : Nat)
  | closes (side : Side)
  | fails (side : Side)
deriving DecidableEq

structure Event where
  time : Nat
  happening : Happening
deriving DecidableEq

def Leg.expired (leg : Leg) (time : Nat) : Bool := leg.soTimeout ≠ 0 ∧ leg.since + leg.soTimeout < time

namespace Relay

def start (client remote : Socket) (initialPayload : Option Bytes) : Relay :=
  { client := { soTimeout := client.soTimeout, since := 0, written := initialPayload.getD [] }
    remote := { soTimeout := remote.soTimeout, since := 0, written := [] }
    now := 0, ended := none }

def leg (relay : Relay) : Side → Leg
  | .client => relay.client
  | .remote => relay.remote

def setLeg (relay : Relay) (side : Side) (leg : Leg) : Relay :=
  match side with
  | .client => { relay with client := leg }
  | .remote => { relay with remote := leg }

def happens (relay : Relay) : Happening → Option Relay
  | .nothing => some relay
  | .chunk side data next =>
      if (relay.leg side).since ≤ relay.now ∧ relay.now ≤ next ∧ data ≠ [] then
        some (relay.setLeg side
          { relay.leg side with since := next, written := (relay.leg side).written ++ data })
      else none
  | .closes side =>
      if (relay.leg side).since ≤ relay.now then some { relay with ended := some .closed } else none
  | .fails _ => some { relay with ended := some .failed }

-- Both coroutines close both sockets when they end, so the end of one is the end of the relay.
def step (relay : Relay) (event : Event) : Option Relay :=
  if relay.ended = none ∧ relay.now ≤ event.time then
    if relay.client.expired event.time ∨ relay.remote.expired event.time then
      some { relay with now := event.time, ended := some .silence }
    else happens { relay with now := event.time } event.happening
  else none

-- What the reads of a side return.
def returned (side : Side) (event : Event) : Bytes :=
  match event.happening with
  | .chunk other data _ => if other = side then data else []
  | _ => []

def sent (side : Side) (events : List Event) : Bytes := (events.map (returned side)).flatten

-- The relay has not ended because of silence, and has passed on all that its reads returned.
structure Complete (relay : Relay) (events : List Event) (last : Relay) : Prop where
  ended : last.ended ≠ some .silence
  toRemote : last.client.written = relay.client.written ++ sent .client events
  toClient : last.remote.written = relay.remote.written ++ sent .remote events

-- When the read from the client began that is under way behind an event.
def heardAt (since : Nat) (event : Event) : Nat :=
  match event.happening with
  | .chunk .client _ next => next
  | _ => since

-- No read from the client waits for longer than 10 seconds.
def ClientHeard : Nat → List Event → Prop
  | _, [] => True
  | since, event :: events => event.time ≤ since + 10000 ∧ ClientHeard (heardAt since event) events

end Relay

namespace TgwsCore

-- handleClient sets the timeout of the client, and nothing sets it again.
def relay (platform : Platform) (prefs : ProxyPrefs) (network : Network) (core : TgwsCore) (input : Input) :
    Option Relay := do
  let client : Socket := { soTimeout := 10000 }
  let delivery ← (core.handleClient platform input).2
  let remote ← core.remoteSocket prefs network delivery
  return Relay.start client remote delivery.initialPayload

end TgwsCore

end ToInet.Tgws
