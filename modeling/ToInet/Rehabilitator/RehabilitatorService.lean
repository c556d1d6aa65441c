import ToInet.Byedpi.NativeLib
import Mathlib.Logic.Function.Basic

-- RehabilitatorService: its handlers on the main thread and the coroutines that they launch, one
-- access to a shared field at a time.
namespace ToInet.Rehabilitator

open ToInet.Byedpi

-- Where the main thread stands: between two intents, in startInternal behind stopInternal, behind
-- the assignment to proxy, behind the launch of the job, or in onDestroy in front of scope.cancel.
inductive Handling where
  | idle
  | stopped
  | proxySet (start : Nat)
  | jobLaunched (start : Nat)
  | destroying
deriving DecidableEq

-- Where a job stands: not dispatched, in front of its read of proxy, of jniStartProxy, inside
-- main(), or completed.
inductive JobPhase (κ : Type) where
  | launched
  | begun
  | starting
  | main (main : Main κ)
  | done
deriving DecidableEq

structure Job (κ : Type) where
  owner : Nat
  phase : JobPhase κ
deriving DecidableEq

-- Where a block of stopInternal stands: not dispatched, in front of its read of proxy, of
-- stopProxy, of its read of byedpiJob, in the join, in front of the assignment, or completed.
inductive StopPhase where
  | launched
  | begun
  | stopping (start : Nat)
  | stopped
  | joining (start : Nat)
  | joined
  | done
deriving DecidableEq

structure Stop where
  owner : Nat
  phase : StopPhase
deriving DecidableEq

structure Fields where
  proxy : Option Nat
  byedpiJob : Option Nat
deriving DecidableEq

-- A proxy and its job go by the number of their start. Each instance of the service has fields of
-- its own; current is the last instance.
structure RehabilitatorService (κ : Type) where
  handling : Handling
  current : Nat
  fields : Nat → Fields
  started : Nat
  jobs : Nat → Job κ
  stopped : Nat
  stops : Nat → Stop

namespace RehabilitatorService

variable {κ : Type}

def initial : RehabilitatorService κ :=
  { handling := .idle, current := 0, fields := fun _ => { proxy := none, byedpiJob := none }
    started := 0, jobs := fun _ => { owner := 0, phase := .done }
    stopped := 0, stops := fun _ => { owner := 0, phase := .done } }

-- onDestroy has cancelled the scope that launched a coroutine.
def cancelled (s : RehabilitatorService κ) (owner : Nat) : Bool := owner ≠ s.current

def setFields (s : RehabilitatorService κ) (owner : Nat) (fields : Fields) : RehabilitatorService κ :=
  { s with fields := Function.update s.fields owner fields }

def setJob (s : RehabilitatorService κ) (job : Nat) (phase : JobPhase κ) : RehabilitatorService κ :=
  { s with jobs := Function.update s.jobs job { s.jobs job with phase } }

def setStop (s : RehabilitatorService κ) (stop : Nat) (phase : StopPhase) : RehabilitatorService κ :=
  { s with stops := Function.update s.stops stop { s.stops stop with phase } }

def stopInternal (s : RehabilitatorService κ) : RehabilitatorService κ :=
  { s with
    stops := Function.update s.stops s.stopped { owner := s.current, phase := .launched }
    stopped := s.stopped + 1 }

-- What the main thread does next, a job, or a block of stopInternal.
inductive Event where
  | onStart
  | onStop
  | onDestroy
  | setProxy
  | launchJob
  | setJob
  | cancelScope
  | jobDispatched (job : Nat)
  | jobReads (job : Nat)
  | jobStarts (job : Nat)
  | mainReturns (job : Nat)
  | stopDispatched (stop : Nat)
  | stopReads (stop : Nat)
  | stopCalls (stop : Nat)
  | stopReadsJob (stop : Nat)
  | stopJoins (stop : Nat)
  | stopClears (stop : Nat)
deriving DecidableEq

-- main() may return at any time: behind a stop, for arguments that it refuses, when it cannot listen, or because the
-- first stop of the process has cleared NOT_EXIT for good. A cancelled coroutine completes where it is dispatched or
-- suspended. A proxy that is null is neither started nor stopped.
def step [DecidableEq κ] (me : κ) (s : RehabilitatorService κ) (lib : NativeLib κ) :
    Event → Option (RehabilitatorService κ × NativeLib κ)
  | .onStart => if s.handling = .idle then some ({ s.stopInternal with handling := .stopped }, lib) else none
  | .onStop => if s.handling = .idle then some (s.stopInternal, lib) else none
  | .onDestroy =>
      if s.handling = .idle then some ({ s.stopInternal with handling := .destroying }, lib) else none
  | .setProxy =>
      if s.handling = .stopped then
        some ({ s.setFields s.current { s.fields s.current with proxy := some s.started } with
          handling := .proxySet s.started, started := s.started + 1 }, lib)
      else none
  | .launchJob =>
      match s.handling with
      | .proxySet start =>
          some ({ s with
            handling := .jobLaunched start
            jobs := Function.update s.jobs start { owner := s.current, phase := .launched } }, lib)
      | _ => none
  | .setJob =>
      match s.handling with
      | .jobLaunched start =>
          some ({ s.setFields s.current { s.fields s.current with byedpiJob := some start } with
            handling := .idle }, lib)
      | _ => none
  | .cancelScope =>
      if s.handling = .destroying then some ({ s with handling := .idle, current := s.current + 1 }, lib)
      else none
  | .jobDispatched job =>
      match s.jobs job with
      | { owner, phase := .launched } =>
          some (s.setJob job (if s.cancelled owner then .done else .begun), lib)
      | _ => none
  | .jobReads job =>
      match s.jobs job with
      | { owner, phase := .begun } =>
          some (s.setJob job (if (s.fields owner).proxy.isSome then .starting else .done), lib)
      | _ => none
  | .jobStarts job =>
      match (s.jobs job).phase with
      | .starting =>
          match lib.jniStartProxy me with
          | none => some (s.setJob job .done, lib)
          | some (main, lib) => some (s.setJob job (.main main), lib)
      | _ => none
  | .mainReturns job =>
      match (s.jobs job).phase with
      | .main main => some (s.setJob job .done, lib.mainReturns main)
      | _ => none
  | .stopDispatched stop =>
      match s.stops stop with
      | { owner, phase := .launched } =>
          some (s.setStop stop (if s.cancelled owner then .done else .begun), lib)
      | _ => none
  | .stopReads stop =>
      match s.stops stop with
      | { owner, phase := .begun } =>
          some (s.setStop stop (((s.fields owner).proxy.map StopPhase.stopping).getD .stopped), lib)
      | _ => none
  | .stopCalls stop =>
      match (s.stops stop).phase with
      | .stopping _ => some (s.setStop stop .stopped, lib.jniStopProxy me)
      | _ => none
  | .stopReadsJob stop =>
      match s.stops stop with
      | { owner, phase := .stopped } =>
          some (s.setStop stop (((s.fields owner).byedpiJob.map StopPhase.joining).getD .joined), lib)
      | _ => none
  | .stopJoins stop =>
      match s.stops stop with
      | { owner, phase := .joining job } =>
          if s.cancelled owner then some (s.setStop stop .done, lib)
          else if (s.jobs job).phase = .done then some (s.setStop stop .joined, lib)
          else none
      | _ => none
  | .stopClears stop =>
      match s.stops stop with
      | { owner, phase := .joined } =>
          some ((s.setStop stop .done).setFields owner { s.fields owner with proxy := none }, lib)
      | _ => none

def stepWith [DecidableEq κ] (me : κ) (p : RehabilitatorService κ × NativeLib κ) (event : Event) :
    Option (RehabilitatorService κ × NativeLib κ) := p.1.step me p.2 event

-- A main() that returns has been stopped.
def mainStopped [DecidableEq κ] (s : RehabilitatorService κ) (lib : NativeLib κ) : Event → Bool
  | .mainReturns job =>
      match (s.jobs job).phase with
      | .main main => lib.isShut main
      | _ => true
  | _ => true

def Event.isIntent : Event → Bool
  | .onStart | .onStop | .onDestroy => true
  | _ => false

-- A block of stopInternal that has stopProxy() still in front of it.
def Pending (s : RehabilitatorService κ) (stop : Stop) : Prop :=
  match stop.phase with
  | .launched => s.cancelled stop.owner = false
  | .begun | .stopping _ => True
  | _ => False

-- A block that has read proxy, but not yet byedpiJob, or is over.
def BetweenReads : StopPhase → Prop
  | .stopping _ | .stopped | .done => True
  | _ => False

-- The blocks of stopInternal and the start that comes behind them do not overtake each other: the start finds none of
-- them in front of its read of proxy or behind its read of byedpiJob, none reads byedpiJob between the two assignments,
-- the job enters main() when stopProxy() is behind all of them and the library is free, and its main() does not return
-- by itself before they are over.
def InOrder [DecidableEq κ] (p : RehabilitatorService κ × NativeLib κ) : Event → Prop
  | .setProxy => ∀ stop, (p.1.stops stop).owner = p.1.current → BetweenReads (p.1.stops stop).phase
  | .stopReadsJob stop => (p.1.stops stop).owner = p.1.current →
      ∀ start, p.1.handling ≠ .proxySet start ∧ p.1.handling ≠ .jobLaunched start
  | .jobStarts job =>
      (p.1.fields p.1.current).proxy = some job →
        p.2.gProxyRunning = false ∧ ∀ stop, ¬p.1.Pending (p.1.stops stop)
  | .mainReturns job =>
      (p.1.fields p.1.current).proxy = some job → p.1.mainStopped p.2 (.mainReturns job) = false →
        ∀ stop, (p.1.stops stop).owner = p.1.current → (p.1.stops stop).phase = .done
  | _ => True

-- The service is not in a start, no job of it is under way, and nothing of it can call stopProxy().
structure Idle (s : RehabilitatorService κ) : Prop where
  handling : s.handling = .idle ∨ s.handling = .destroying
  proxy : ∀ owner, s.current ≤ owner → (s.fields owner).proxy = none
  jobs : ∀ job, (s.jobs job).phase = .done
  stops : ∀ stop, match (s.stops stop).phase with
    | .launched | .begun => (s.fields (s.stops stop).owner).proxy = none
    | .stopping _ => False
    | _ => True

-- The fields denote a start, and its native proxy has not been asked to stop: no block has called stopProxy() on it or
-- is about to, and the socket of its main() has not been shut down.
structure Denoted (start : Nat) (s : RehabilitatorService κ) (lib : NativeLib κ) [DecidableEq κ] : Prop where
  proxy : (s.fields s.current).proxy = some start
  byedpiJob : (s.fields s.current).byedpiJob = some start
  stops : ∀ stop, (s.stops stop).phase ≠ .stopping start
  main : ∀ main, (s.jobs start).phase = .main main → lib.isShut main = false

end RehabilitatorService

end ToInet.Rehabilitator
