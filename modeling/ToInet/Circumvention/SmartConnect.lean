import ToInet.Circumvention.Transport
import ToInet.Lib.Transition
import Mathlib.Logic.Function.Basic

-- SmartConnect with the threads that run it: the router of an intent, the coroutine of
-- a handle, the timer it creates and the main thread.
namespace ToInet.Circumvention.SmartConnect

open ToInet.Lib

-- Where the coroutine of a handle stands: in front of AutoConf, inside it with its tunnel
-- open, or in front of a later statement.
inductive Coroutine where
  | autoConf
  | moat
  | setBridges (custom : List String)
  | startTransport
  | startTor
  | createGuard
deriving DecidableEq

-- Where a tick stands: in front of when, inside the branch of a transport that is stopped,
-- in front of a start or of reconfigure, or behind stopConnectionGuard of the last branch.
inductive Tick where
  | pass
  | stopped (transport : Transport)
  | startTransport
  | reconfigure
  | giveUp
deriving DecidableEq

-- What has become of a handle: its coroutine, or the guard that this has created. A guard
-- is live until it is cancelled; a tick that runs then goes on.
inductive Activity where
  | finished
  | coroutine (statement : Coroutine)
  | guard (live : Bool) (tick : Option Tick)
deriving DecidableEq

namespace Activity

def pending : Activity → Bool
  | coroutine _ => true
  | _ => false

def live : Activity → Bool
  | guard live _ => live
  | _ => false

def ticking : Activity → Bool
  | guard _ tick => tick.isSome
  | _ => false

def busy (activity : Activity) : Bool := activity.pending || activity.live

-- Nothing of the handle can run any more.
def ended (activity : Activity) : Bool := !activity.busy && !activity.ticking

def cancel : Activity → Activity
  | guard _ tick => guard false tick
  | activity => activity

end Activity

inductive Callback where
  | completed
  | stopTor
deriving DecidableEq

inductive Effect where
  | handle (handle : Nat)
  | cancel
  | startTor (handle : Nat)
  | switchTransport (handle : Nat)
  | tick (handle : Nat)
  | deliver (handle : Nat) (callback : Callback)
deriving DecidableEq

-- The handles, numbered as they come, the callbacks that wait for the main thread, and
-- what has been done, the last first.
structure Control where
  handles : Nat
  activity : Nat → Activity
  connectionGuard : Option Nat
  posted : List (Nat × Callback)
  log : List Effect

namespace Control

def note (c : Control) (effect : Effect) : Control := { c with log := effect :: c.log }

def move (c : Control) (handle : Nat) (activity : Activity) : Control :=
  { c with activity := Function.update c.activity handle activity }

-- mainScope.launch
def post (c : Control) (handle : Nat) (callback : Callback) : Control :=
  { c with posted := c.posted ++ [(handle, callback)] }

def stopConnectionGuard (c : Control) : Control :=
  match c.connectionGuard with
  | some handle => { c.move handle (c.activity handle).cancel with connectionGuard := none }
  | none => c

-- The number of the next handle, which starts with the given activity.
def enter (c : Control) (activity : Activity) : Control :=
  { c.move c.handles activity with
    handles := c.handles + 1, log := .handle c.handles :: c.log }

end Control

structure State extends Control where
  progress : Int
  now : Int
  connectionTimeout : Int
  smartConnectTimeout : Int
  smartConnect : Bool
  transport : Transport
  bridges : String
  started : List String
  crashed : Bool

namespace State

def initial (transport : Transport) (bridges : String) (smartConnectTimeout now : Int) : State :=
  { handles := 0, activity := fun _ => .finished, connectionGuard := none, posted := [], log := []
    progress := 0, now, connectionTimeout := now, smartConnectTimeout, smartConnect := true
    transport, bridges, started := [], crashed := false }

def bridgesList (s : State) : List String := Circumvention.bridgesList s.bridges

def connectionAlive (s : State) : State :=
  { s with connectionTimeout := s.now + s.smartConnectTimeout }

-- An exception that nothing catches ends the process, with its threads and transports.
def crash (s : State) : State :=
  { s with
    activity := fun _ => .finished, connectionGuard := none, posted := [], started := []
    crashed := true }

-- Prefs.transport.start, and whether it returned.
def startTransport (s : State) (failsAt : Option Nat) : State × Bool :=
  let result := s.transport.start s.bridgesList failsAt s.started
  ({ s with started := result.1 }, result.2)

-- Prefs.transport.stop
def stopTransport (s : State) : State :=
  { s with started := s.transport.stop s.bridgesList s.started }

-- SmartConnect.handle, with what startTor returns where it is called at once.
def handle (s : State) (exception : Bool) : State :=
  if s.smartConnect then
    { s with toControl := s.enter (.coroutine .autoConf), progress := 0 }
  else
    let callback := if exception then .stopTor else .completed
    { s with
      toControl := ((s.enter .finished).note (.startTor s.handles)).note (.deliver s.handles callback)
      progress := 0 }

-- ACTION_START: the transport is started, and unless Tor is connected already it goes on to handle.
def actionStart (s : State) (failsAt : Option Nat) (connected exception : Bool) : State :=
  match s.startTransport failsAt with
  | (_, false) => s.crash
  | (s, true) => if connected then s else s.handle exception

end State

-- A step of the coroutine, with what the step learns from outside.
inductive CoroutineEvent where
  | openTunnel
  | autoConf (conf : Option (Transport × List String))
  | autoConfThrows
  | setBridges
  | startTransport (failsAt : Option Nat)
  | startTor (exception : Bool)
  | createGuard
deriving DecidableEq

inductive TickEvent where
  | run
  | pass
  | switch
  | startTransport (failsAt : Option Nat)
  | reconfigure (succeeds : Bool)
  | giveUp
deriving DecidableEq

inductive Event where
  | actionStart (failsAt : Option Nat) (connected exception : Bool)
  | cancel
  | stopTransport
  | updateProgress (progress : Int)
  | elapse (duration : Nat)
  | coroutine (handle : Nat) (event : CoroutineEvent)
  | tick (handle : Nat) (event : TickEvent)
  | deliver
deriving DecidableEq

namespace State

-- What AutoConf leaves running: it closes its tunnel, by name, unless it throws on the way.
def afterAutoConf (s : State) : CoroutineEvent → List String
  | .autoConf _ => s.started.filter (· ≠ meekLite)
  | _ => s.started

-- What becomes of Prefs, where AutoConf throws as where it returns nothing.
def chosen : CoroutineEvent → Transport × List String
  | .autoConf (some conf) => conf
  | _ => (.none, [])

def endAutoConf (s : State) (handle : Nat) (event : CoroutineEvent) : State :=
  { s with
    toControl := (s.note (.switchTransport handle)).move handle
      (.coroutine (.setBridges (chosen event).2))
    started := s.afterAutoConf event
    transport := (chosen event).1 }

def stepCoroutine (s : State) (handle : Nat) : Coroutine → CoroutineEvent → Option State
  | .autoConf, .openTunnel =>
      some { s with
        toControl := s.move handle (.coroutine .moat)
        started := s.started ++ [meekLite] }
  | .autoConf, .autoConfThrows => some (s.endAutoConf handle .autoConfThrows)
  | .moat, .autoConf conf => some (s.endAutoConf handle (.autoConf conf))
  | .moat, .autoConfThrows => some (s.endAutoConf handle .autoConfThrows)
  | .setBridges custom, .setBridges =>
      some { s with
        toControl := s.move handle (.coroutine .startTransport)
        bridges := if custom = [] then s.bridges else storedBridges custom }
  | .startTransport, .startTransport failsAt =>
      match s.startTransport failsAt with
      | (_, false) => some s.crash
      | (s, true) => some { s with toControl := s.move handle (.coroutine .startTor) }
  | .startTor, .startTor exception =>
      let noted := s.note (.startTor handle)
      if exception then
        some { s with toControl := (noted.move handle .finished).post handle .stopTor }
      else some { s with toControl := noted.move handle (.coroutine .createGuard) }
  | .createGuard, .createGuard =>
      some { s.connectionAlive with
        toControl := { s.move handle (.guard true none) with connectionGuard := some handle } }
  | _, _ => none

-- TimerTask.run up to the loop.
def runTick (s : State) (handle : Nat) : State :=
  if 100 ≤ s.progress then
    { s with
      toControl := (s.note (.tick handle)).stopConnectionGuard.post handle .completed
      smartConnect := false }
  else if s.now < s.connectionTimeout then s
  else
    { s.connectionAlive with
      toControl := (s.note (.tick handle)).move handle (.guard true (some .pass)) }

-- The transport that is tried behind another one.
def nextTransport (s : State) : Transport → Transport
  | .none => .snowflake
  | .custom => .obfs4
  | _ => if s.bridgesList ≠ [] then .custom else .obfs4

-- One pass of the loop, up to the assignment of the next transport.
def pass (s : State) (handle : Nat) (live : Bool) : State :=
  let noted := s.note (.tick handle)
  let stopped := noted.move handle (.guard live (some (.stopped s.transport)))
  match s.transport with
  | .none => { s with toControl := stopped }
  | .snowflake | .snowflakeAmp | .snowflakeSqs | .custom => { s.stopTransport with toControl := stopped }
  | _ =>
      let cancelled := noted.stopConnectionGuard
      { s with
        toControl := cancelled.move handle (.guard (cancelled.activity handle).live (some .giveUp)) }

def stepTick (s : State) (handle : Nat) (live : Bool) : Option Tick → TickEvent → Option State
  | none, .run => if live then some (s.runTick handle) else none
  | some .pass, .pass => some (s.pass handle live)
  | some (.stopped transport), .switch =>
      some { s with
        toControl := (s.note (.switchTransport handle)).move handle (.guard live (some .startTransport))
        transport := s.nextTransport transport }
  | some .startTransport, .startTransport failsAt =>
      let result := s.startTransport failsAt
      let next := if result.2 then Tick.reconfigure else Tick.pass
      some { result.1 with toControl := (s.note (.tick handle)).move handle (.guard live (some next)) }
  | some .reconfigure, .reconfigure succeeds =>
      some { s with
        toControl := (s.note (.tick handle)).move handle (.guard live none)
        connectionTimeout := if succeeds then s.connectionTimeout else s.now }
  | some .giveUp, .giveUp =>
      some { s.stopTransport with
        toControl := ((s.note (.tick handle)).move handle (.guard live none)).post handle .stopTor }
  | _, _ => none

def updateProgress (s : State) (progress : Int) : State :=
  if s.smartConnect ∧ s.progress < progress then { s.connectionAlive with progress } else s

def cancel (s : State) : State := { s with toControl := s.stopConnectionGuard.note .cancel }

def step (s : State) (event : Event) : Option State :=
  if s.crashed then none
  else
    match event with
    | .actionStart failsAt connected exception => some (s.actionStart failsAt connected exception)
    | .cancel => some s.cancel
    | .stopTransport => some s.stopTransport
    | .updateProgress progress => some (s.updateProgress progress)
    | .elapse duration => some { s with now := s.now + duration }
    | .coroutine handle event =>
        match s.activity handle with
        | .coroutine statement => s.stepCoroutine handle statement event
        | _ => none
    | .tick handle event =>
        match s.activity handle with
        | .guard live tick => s.stepTick handle live tick event
        | _ => none
    | .deliver =>
        match s.posted with
        | (handle, callback) :: posted =>
            some { s with toControl := { s.note (.deliver handle callback) with posted } }
        | [] => none

end State

end ToInet.Circumvention.SmartConnect
