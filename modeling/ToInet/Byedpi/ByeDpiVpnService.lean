import ToInet.Byedpi.ByeDpiProxyService
import ToInet.Lib.Transition

-- ByeDpiVpnService: its handlers, each of which runs to its end on the main thread, and the three
-- resources that they hold.
namespace ToInet.Byedpi

inductive Established where
  | throws
  | null
  | descriptor (fd : Nat)
deriving DecidableEq

-- How the calls end that a start makes. No provider is an exception of the preferences; what is in
-- front of establish may throw as establish does; sendfd is tried again after -1, and none is an
-- exception. The tun descriptor is closed in startTun2Socks, and in stop behind a failure.
structure StartCalls where
  startForegroundThrows : Bool
  vpnProvider : Option String
  establish : Established
  makePdnsdConfThrows : Bool
  exec : Int
  sendfd : Nat → Option Int
  closeThrows : Bool
  closeThrowsInStop : Bool

inductive Failure where
  | illegalState (message : String)
  | thrown
deriving DecidableEq

-- The servers go by the number of their creation; running are those that have been started and
-- not stopped.
structure ByeDpiVpnService where
  status : ServiceStatus
  tunFd : Option Nat
  fakeVpnServer : Option Nat
  socksToHttpProxy : Option Nat
  created : Nat
  running : List Nat
deriving DecidableEq

-- The attempts of the loop that are left, and the number of the next one.
def sendfdLoop (sendfd : Nat → Option Int) : Nat → Nat → Option Bool
  | 0, _ => some false
  | left + 1, i =>
      match sendfd i with
      | none => none
      | some ret => if ret ≠ -1 then some true else sendfdLoop sendfd left (i + 1)

def StartCalls.sent (calls : StartCalls) : Option Bool := sendfdLoop calls.sendfd 5 0

namespace ByeDpiVpnService

def initial : ByeDpiVpnService :=
  { status := .disconnected, tunFd := none, fakeVpnServer := none, socksToHttpProxy := none
    created := 0, running := [] }

def startServer (s : ByeDpiVpnService) (provider : String) : ByeDpiVpnService :=
  if provider = "fakevpn" then
    { s with fakeVpnServer := some s.created, created := s.created + 1, running := s.created :: s.running }
  else if provider = "operaproxy" then
    { s with socksToHttpProxy := some s.created, created := s.created + 1, running := s.created :: s.running }
  else s

-- Where close throws, nothing behind it is done.
def stopTun2Socks (s : ByeDpiVpnService) (closeThrows : Bool) : ByeDpiVpnService × Option Failure :=
  if s.tunFd.isSome ∧ closeThrows then (s, some .thrown)
  else
    ({ s with
      tunFd := none
      fakeVpnServer := none
      socksToHttpProxy := none
      running := s.running.filter fun server =>
        s.fakeVpnServer ≠ some server ∧ s.socksToHttpProxy ≠ some server }, none)

-- stopTun2Socks, and the exception behind it.
def giveUp (s : ByeDpiVpnService) (closeThrows : Bool) (message : String) : ByeDpiVpnService × Option Failure :=
  match s.stopTun2Socks closeThrows with
  | (s, some failure) => (s, some failure)
  | (s, none) => (s, some (.illegalState message))

-- startTun2Socks behind the assignment to tunFd.
def startProcesses (s : ByeDpiVpnService) (calls : StartCalls) : ByeDpiVpnService × Option Failure :=
  if calls.makePdnsdConfThrows then (s, some .thrown)
  else if calls.exec ≠ 0 then s.giveUp calls.closeThrows "Failed to start tun2socks"
  else
    match calls.sent with
    | none => (s, some .thrown)
    | some false => s.giveUp calls.closeThrows "Failed to send fd"
    | some true => (s, none)

def startTun2Socks (s : ByeDpiVpnService) (calls : StartCalls) : ByeDpiVpnService × Option Failure :=
  if s.tunFd.isSome then (s, some (.illegalState "VPN field not null"))
  else
    match calls.vpnProvider with
    | none => (s, some .thrown)
    | some provider =>
        match calls.establish with
        | .throws => (s.startServer provider, some .thrown)
        | .null => (s.startServer provider, some (.illegalState "VPN connection failed"))
        | .descriptor fd => startProcesses { s.startServer provider with tunFd := some fd } calls

def stop (s : ByeDpiVpnService) (closeThrows : Bool) : ByeDpiVpnService :=
  { (s.stopTun2Socks closeThrows).1 with status := .disconnected }

def start (s : ByeDpiVpnService) (calls : StartCalls) : ByeDpiVpnService :=
  if s.status = .connected then s
  else
    match if calls.startForegroundThrows then (s, some .thrown) else s.startTun2Socks calls with
    | (s, none) => { s with status := .connected }
    | (s, some _) => { s with status := .failed }.stop calls.closeThrowsInStop

inductive Event where
  | start (calls : StartCalls)
  | stop (closeThrows : Bool)
  | revoke (closeThrows : Bool)

def step (s : ByeDpiVpnService) : Event → Option ByeDpiVpnService
  | .start calls => some (s.start calls)
  | .stop closeThrows => some (s.stop closeThrows)
  | .revoke closeThrows => some (s.stop closeThrows)

-- A service that is not connected holds nothing, and none of its servers is left running.
def Clean (s : ByeDpiVpnService) : Prop :=
  s.status ≠ .connected →
    s.tunFd = none ∧ s.fakeVpnServer = none ∧ s.socksToHttpProxy = none ∧ s.running = []

end ByeDpiVpnService

-- A start that fails behind establish with the tun descriptor still open.
def StartCalls.LeavesDescriptor (calls : StartCalls) : Prop :=
  calls.startForegroundThrows = false ∧ calls.vpnProvider.isSome = true ∧
    (∃ fd, calls.establish = .descriptor fd) ∧
    (calls.makePdnsdConfThrows = true ∨ (calls.exec = 0 ∧ calls.sent = none) ∨
      ((calls.exec ≠ 0 ∨ calls.sent = some false) ∧ calls.closeThrows = true))

namespace ByeDpiVpnService

-- The last close of a tun descriptor that the handler makes does not throw.
def Closes (s : ByeDpiVpnService) : Event → Prop
  | .start calls => s.status = .connected ∨ ¬calls.LeavesDescriptor ∨ calls.closeThrowsInStop = false
  | .stop closeThrows | .revoke closeThrows => s.tunFd = none ∨ closeThrows = false

end ByeDpiVpnService

end ToInet.Byedpi
