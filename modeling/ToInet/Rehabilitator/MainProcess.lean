import ToInet.Byedpi.ByeDpiProxyService
import ToInet.Rehabilitator.RehabilitatorService

-- The main process of the app, where both services use one native library.
namespace ToInet.Rehabilitator

open ToInet.Byedpi

inductive Party where
  | byedpi
  | rehabilitator
deriving DecidableEq

structure MainProcess where
  byedpi : ByeDpiProxyService Party
  rehabilitator : RehabilitatorService Party
  lib : NativeLib Party

namespace MainProcess

def initial : MainProcess :=
  { byedpi := .initial, rehabilitator := .initial, lib := .initial }

inductive Event where
  | byedpi (event : ByeDpiProxyService.Event)
  | rehabilitator (event : RehabilitatorService.Event)
deriving DecidableEq

-- main() is taken to run until its socket is shut down.
def step (p : MainProcess) : Event → Option MainProcess
  | .byedpi event =>
      (p.byedpi.step .byedpi p.lib event).map fun (s, lib) => { p with byedpi := s, lib }
  | .rehabilitator event =>
      if p.rehabilitator.mainStopped p.lib event then
        (p.rehabilitator.step .rehabilitator p.lib event).map fun (s, lib) => { p with rehabilitator := s, lib }
      else none

def Event.isIntentOf : Party → Event → Bool
  | .byedpi, .byedpi event => event.isIntent
  | .rehabilitator, .rehabilitator event => event.isIntent
  | _, _ => false

def Event.isStartOf : Party → Event → Bool
  | .byedpi, .byedpi event => event.isStart
  | .rehabilitator, .rehabilitator event => event = .onStart
  | _, _ => false

-- Neither service has a handler or a coroutine that could go on.
def Quiescent (p : MainProcess) : Prop :=
  ∀ event, (∀ party, Event.isIntentOf party event = false) → p.step event = none

-- The job of the service is inside main(), with its socket open.
def Listening (p : MainProcess) : Party → Prop
  | .byedpi => ∃ job main, p.byedpi.proxyJob = some job ∧ (p.byedpi.jobs job).phase = .main main ∧
      main.caller = .byedpi ∧ p.lib.isShut main = false
  | .rehabilitator => ∃ job main, (p.rehabilitator.fields p.rehabilitator.current).byedpiJob = some job ∧
      (p.rehabilitator.jobs job).phase = .main main ∧ main.caller = .rehabilitator ∧ p.lib.isShut main = false

-- Only one service is in use at a time: each start comes when the other service is at rest. A
-- start of ByeDpiProxyService comes when no stop of it is under way, and is for the native proxy;
-- the blocks of RehabilitatorService are not overtaken.
def Separate (p : MainProcess) : Event → Prop
  | .byedpi (.onStart preferences) =>
      p.byedpi.Finished ∧ preferences = .native ∧ p.rehabilitator.Idle
  | .byedpi _ => True
  | .rehabilitator event =>
      RehabilitatorService.InOrder (p.rehabilitator, p.lib) event ∧
        (event = .onStart → p.byedpi.status = .disconnected)

end MainProcess

end ToInet.Rehabilitator
