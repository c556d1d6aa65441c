import ToInet.Byedpi.NativeLib
import Mathlib.Logic.Function.Basic

-- ByeDpiProxyService: the handlers of its intents, which run on the main thread between two
-- suspensions, and the jobs that they launch.
namespace ToInet.Byedpi

inductive ServiceStatus where
  | disconnected
  | connected
  | failed
deriving DecidableEq

-- What startProxy finds in the preferences: a value that throws, a rule set for the router, or
-- arguments for the native proxy.
inductive Launch where
  | invalid
  | router
  | native
deriving DecidableEq

-- Where a job stands: not dispatched, in the loop of the router, in front of startProxy, inside
-- main(), behind it, in front of the block for the main thread, or completed.
inductive Phase (κ : Type) where
  | launched
  | looping
  | begun
  | main (main : Main κ)
  | returned (failed : Bool)
  | posted (failed : Bool)
  | done
deriving DecidableEq

structure Job (κ : Type) where
  router : Bool
  phase : Phase κ
  cancelled : Bool
deriving DecidableEq

-- A handler in front of the mutex.
inductive Handler where
  | start (launch : Launch)
  | stop
deriving DecidableEq

-- The mutex is held across a suspension by the handler that joins a job, or by one that it has
-- been handed to.
structure ByeDpiProxyService (κ : Type) where
  status : ServiceStatus
  proxyJob : Option Nat
  jobs : Nat → Job κ
  launched : Nat
  joining : Option Nat
  granted : Option Handler
  waiting : List Handler

namespace ByeDpiProxyService

variable {κ : Type}

def initial : ByeDpiProxyService κ :=
  { status := .disconnected, proxyJob := none, launched := 0
    jobs := fun _ => { router := false, phase := .done, cancelled := false }
    joining := none, granted := none, waiting := [] }

def locked (s : ByeDpiProxyService κ) : Bool := s.joining.isSome || s.granted.isSome

-- Mutex.unlock hands the mutex to the first handler that waits.
def unlock (s : ByeDpiProxyService κ) : ByeDpiProxyService κ :=
  { s with joining := none, granted := s.waiting.head?, waiting := s.waiting.tail }

def updateStatus (s : ByeDpiProxyService κ) (newStatus : ServiceStatus) : ByeDpiProxyService κ :=
  { s with
    status := newStatus
    proxyJob := if newStatus = .connected then s.proxyJob else none }

def setJob (s : ByeDpiProxyService κ) (job : Nat) (value : Job κ) : ByeDpiProxyService κ :=
  { s with jobs := Function.update s.jobs job value }

def setPhase (s : ByeDpiProxyService κ) (job : Nat) (phase : Phase κ) : ByeDpiProxyService κ :=
  s.setJob job { s.jobs job with phase }

def launch (s : ByeDpiProxyService κ) (router : Bool) : ByeDpiProxyService κ :=
  { s.setJob s.launched { router, phase := .launched, cancelled := false } with
    proxyJob := some s.launched, launched := s.launched + 1 }

-- none is an exception.
def startProxy (s : ByeDpiProxyService κ) (preferences : Launch) : Option (ByeDpiProxyService κ) :=
  if s.proxyJob.isSome then none
  else
    match preferences with
    | .invalid => none
    | .router => some ((s.launch true).updateStatus .connected)
    | .native => some (s.launch false)

-- proxyJob?.cancel()
def cancelJob (s : ByeDpiProxyService κ) : ByeDpiProxyService κ :=
  match s.proxyJob with
  | some job => s.setJob job { s.jobs job with cancelled := true }
  | none => s

-- What a stop does behind the join.
def finishStop (s : ByeDpiProxyService κ) : ByeDpiProxyService κ :=
  ({ s with proxyJob := none }.unlock).updateStatus .disconnected

section

variable (me : κ) [DecidableEq κ]

-- stop with the mutex held, up to the join of a job that has not completed.
def stopLocked (s : ByeDpiProxyService κ) (lib : NativeLib κ) : ByeDpiProxyService κ × NativeLib κ :=
  if s.status = .disconnected then (s.unlock.updateStatus .disconnected, lib)
  else
    let joins := s.proxyJob.filter fun job => (s.jobs job).phase ≠ .done
    (match joins with
      | some job => { s.cancelJob with joining := some job, granted := none }
      | none => s.cancelJob.finishStop,
      lib.jniStopProxy me)

def stop (s : ByeDpiProxyService κ) (lib : NativeLib κ) : ByeDpiProxyService κ × NativeLib κ :=
  if s.locked then ({ s with waiting := s.waiting ++ [.stop] }, lib) else s.stopLocked me lib

-- start with the mutex held.
def startLocked (s : ByeDpiProxyService κ) (lib : NativeLib κ) (preferences : Launch) :
    ByeDpiProxyService κ × NativeLib κ :=
  match s.startProxy preferences with
  | some started => (started.unlock.updateStatus .connected, lib)
  | none => (s.unlock.updateStatus .failed).stop me lib

def start (s : ByeDpiProxyService κ) (lib : NativeLib κ) (preferences : Launch) :
    ByeDpiProxyService κ × NativeLib κ :=
  if s.status = .connected then (s, lib)
  else if s.locked then ({ s with waiting := s.waiting ++ [.start preferences] }, lib)
  else s.startLocked me lib preferences

end

-- What a job does next, or a handler that was suspended.
inductive Event where
  | onStart (preferences : Launch)
  | onStop
  | dispatch (job : Nat)
  | enter (job : Nat)
  | mainReturns (job : Nat)
  | post (job : Nat)
  | complete (job : Nat)
  | endLoop (job : Nat)
  | joined
  | resume
deriving DecidableEq

-- main() runs until its socket is shut down; its code is 0 then, and -1 where the library
-- refuses it. A cancelled job completes where it is dispatched or suspended. The handler that
-- the mutex is handed to goes on before the next intent comes.
def step [DecidableEq κ] (me : κ) (s : ByeDpiProxyService κ) (lib : NativeLib κ) :
    Event → Option (ByeDpiProxyService κ × NativeLib κ)
  | .onStart preferences => if s.granted.isSome then none else some (s.start me lib preferences)
  | .onStop => if s.granted.isSome then none else some (s.stop me lib)
  | .dispatch job =>
      match s.jobs job with
      | { router, phase := .launched, cancelled } =>
          let phase := if cancelled then .done else if router then .looping else .begun
          some (s.setPhase job phase, lib)
      | _ => none
  | .enter job =>
      match (s.jobs job).phase with
      | .begun =>
          match lib.jniStartProxy me with
          | none => some (s.setPhase job (.returned true), lib)
          | some (main, lib) => some (s.setPhase job (.main main), lib)
      | _ => none
  | .mainReturns job =>
      match (s.jobs job).phase with
      | .main main =>
          if lib.isShut main then some (s.setPhase job (.returned false), lib.mainReturns main) else none
      | _ => none
  | .post job =>
      match s.jobs job with
      | { phase := .returned failed, cancelled, .. } =>
          some (s.setPhase job (if cancelled then .done else .posted failed), lib)
      | _ => none
  | .complete job =>
      match s.jobs job with
      | { phase := .posted failed, cancelled, .. } =>
          let completed := s.setPhase job .done
          let status := if failed then ServiceStatus.failed else .disconnected
          some (if cancelled then completed else completed.updateStatus status, lib)
      | _ => none
  | .endLoop job =>
      match s.jobs job with
      | { phase := .looping, cancelled := true, .. } => some (s.setPhase job .done, lib)
      | _ => none
  | .joined =>
      match s.joining with
      | some job => if (s.jobs job).phase = .done then some (s.finishStop, lib) else none
      | none => none
  | .resume =>
      match s.granted with
      | some .stop => some (s.stopLocked me lib)
      | some (.start preferences) => some (s.startLocked me lib preferences)
      | none => none

def Event.isStart : Event → Bool
  | .onStart _ => true
  | _ => false

def Event.isIntent : Event → Bool
  | .onStart _ | .onStop => true
  | _ => false

-- All handlers have finished.
def Finished (s : ByeDpiProxyService κ) : Prop :=
  s.joining = none ∧ s.granted = none ∧ s.waiting = []

def Running (s : ByeDpiProxyService κ) : Prop := s.proxyJob.isSome = true ∧ s.status = .connected

-- A start comes when no stop is under way, and finds the service connected or preferences that
-- startProxy can use.
def Undisturbed (s : ByeDpiProxyService κ) : Event → Prop
  | .onStart preferences => Finished s ∧ (s.status = .connected ∨ preferences ≠ .invalid)
  | _ => True

end ByeDpiProxyService

end ToInet.Byedpi
