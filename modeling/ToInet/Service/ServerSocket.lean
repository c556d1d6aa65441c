import ToInet.Lib.Transition
import Mathlib.Logic.Function.Basic

-- start and stop of DirectSocks5Server and of TgwsCore: the thread that calls them and the
-- coroutines that listen, one access to a shared field at a time.
namespace ToInet.Service

-- What a stop() has still to do. close and cancel carry the field that was read for them.
inductive StopAction where
  | readSocket
  | close (socket : Nat)
  | readJob
  | cancel (job : Nat)
  | clearJob
deriving DecidableEq

inductive Server where
  | directSocks5Server
  | tgwsCore
deriving DecidableEq

namespace Server

def stop : Server → List StopAction
  | .directSocks5Server => [.readSocket, .readJob, .clearJob]
  | .tgwsCore => [.readJob, .clearJob, .readSocket]

-- TgwsCore has no finally.
def finallyBlock : Server → List StopAction
  | .directSocks5Server => stop .directSocks5Server
  | .tgwsCore => []

end Server

-- Where a coroutine stands: not dispatched, in front of the constructor of its socket, of the
-- assignment to serverSocket, of isActive, of its read of serverSocket, in accept() on a socket,
-- in the finally block, or completed.
inductive Phase where
  | launched
  | begun
  | bound
  | checking
  | reading
  | accepting (socket : Nat)
  | finishing (rest : List StopAction)
  | done
deriving DecidableEq

structure Coroutine where
  phase : Phase
  cancelled : Bool
deriving DecidableEq

-- Where the caller stands: between two calls, in start behind its read of job or behind the
-- launch, or in stop.
inductive Caller where
  | idle
  | starting
  | launched (job : Nat)
  | stopping (rest : List StopAction)
deriving DecidableEq

-- A coroutine, and the socket that it binds, go by the number of their start. A stop() has
-- returned behind the starts below stopped; listening are the sockets that are open.
structure ServerSocket where
  serverSocket : Option Nat
  job : Option Nat
  caller : Caller
  started : Nat
  stopped : Nat
  coroutines : Nat → Coroutine
  listening : List Nat

namespace ServerSocket

def initial : ServerSocket :=
  { serverSocket := none, job := none, caller := .idle, started := 0, stopped := 0
    coroutines := fun _ => { phase := .done, cancelled := false }, listening := [] }

def setPhase (s : ServerSocket) (job : Nat) (phase : Phase) : ServerSocket :=
  { s with coroutines := Function.update s.coroutines job { s.coroutines job with phase } }

def cancel (s : ServerSocket) (job : Nat) : ServerSocket :=
  { s with coroutines := Function.update s.coroutines job { s.coroutines job with cancelled := true } }

def close (s : ServerSocket) (socket : Nat) : ServerSocket :=
  { s with listening := s.listening.filter (· ≠ socket) }

-- The next action of a stop(), and what it leaves to do.
def perform (s : ServerSocket) (action : StopAction) (rest : List StopAction) :
    ServerSocket × List StopAction :=
  match action with
  | .readSocket => (s, (s.serverSocket.map StopAction.close).toList ++ rest)
  | .close socket => (s.close socket, rest)
  | .readJob => (s, (s.job.map StopAction.cancel).toList ++ rest)
  | .cancel job => (s.cancel job, rest)
  | .clearJob => ({ s with job := none }, rest)

-- What the caller does next, what cancels a coroutine besides stop() (its scope, a child that
-- fails), and what a coroutine does.
inductive Event where
  | start
  | launch
  | setJob
  | stop
  | stopGoesOn
  | cancels (job : Nat)
  | dispatched (job : Nat)
  | binds (job : Nat)
  | bindFails (job : Nat)
  | assigns (job : Nat)
  | checks (job : Nat)
  | reads (job : Nat)
  | accepts (job : Nat)
  | acceptFails (job : Nat)
  | finallyGoesOn (job : Nat)
deriving DecidableEq

-- A port other than 0 has one listening socket at most. accept() returns with a new client only,
-- and fails on a socket that is closed; a coroutine that is cancelled does not run its body.
def step (server : Server) (port : Nat) (s : ServerSocket) : Event → Option ServerSocket
  | .start =>
      if s.caller = .idle then some (if s.job = none then { s with caller := .starting } else s) else none
  | .launch =>
      if s.caller = .starting then
        some { s with
          caller := .launched s.started
          coroutines := Function.update s.coroutines s.started { phase := .launched, cancelled := false }
          started := s.started + 1 }
      else none
  | .setJob =>
      match s.caller with
      | .launched job => some { s with job := some job, caller := .idle }
      | _ => none
  | .stop => if s.caller = .idle then some { s with caller := .stopping server.stop } else none
  | .stopGoesOn =>
      match s.caller with
      | .stopping [] => some { s with caller := .idle, stopped := s.started }
      | .stopping (action :: rest) =>
          some { (s.perform action rest).1 with caller := .stopping (s.perform action rest).2 }
      | _ => none
  | .cancels job => some (s.cancel job)
  | .dispatched job =>
      if (s.coroutines job).phase = .launched then
        some (s.setPhase job (if (s.coroutines job).cancelled then .done else .begun))
      else none
  | .binds job =>
      if (s.coroutines job).phase = .begun ∧ (port = 0 ∨ s.listening = []) then
        some { s.setPhase job .bound with listening := job :: s.listening }
      else none
  | .bindFails job =>
      if (s.coroutines job).phase = .begun then some (s.setPhase job (.finishing server.finallyBlock)) else none
  | .assigns job =>
      if (s.coroutines job).phase = .bound then
        some { s.setPhase job .checking with serverSocket := some job }
      else none
  | .checks job =>
      if (s.coroutines job).phase = .checking then
        some (s.setPhase job
          (if (s.coroutines job).cancelled then .finishing server.finallyBlock else .reading))
      else none
  | .reads job =>
      if (s.coroutines job).phase = .reading then
        some (s.setPhase job ((s.serverSocket.map Phase.accepting).getD (.finishing server.finallyBlock)))
      else none
  | .accepts job =>
      match (s.coroutines job).phase with
      | .accepting socket => if socket ∈ s.listening then some (s.setPhase job .checking) else none
      | _ => none
  | .acceptFails job =>
      match (s.coroutines job).phase with
      | .accepting _ => some (s.setPhase job (.finishing server.finallyBlock))
      | _ => none
  | .finallyGoesOn job =>
      match (s.coroutines job).phase with
      | .finishing [] => some (s.setPhase job .done)
      | .finishing (action :: rest) =>
          some ((s.perform action rest).1.setPhase job (.finishing (s.perform action rest).2))
      | _ => none

-- The coroutine can make no further step without a new client.
def Waits (s : ServerSocket) (job : Nat) : Prop :=
  match (s.coroutines job).phase with
  | .accepting socket => socket ∈ s.listening
  | .done => True
  | _ => False

-- Once a stop() has returned behind a start whose coroutine waits, the socket of that start is closed.
def Closed (s : ServerSocket) : Prop := ∀ job < s.stopped, s.Waits job → job ∉ s.listening

-- The actions have the socket in hand, or will read serverSocket.
def Closes (socket : Nat) (actions : List StopAction) : Prop :=
  .readSocket ∈ actions ∨ .close socket ∈ actions

-- A stop() behind the start has read serverSocket, and does not have its socket in hand: it has
-- returned, or is about to.
def Overlooked (s : ServerSocket) (job : Nat) : Prop :=
  job < s.stopped ∨
    match s.caller with
    | .stopping rest => ¬Closes job rest
    | _ => False

-- No stop() overlooks the socket that a coroutine has bound up to its check of isActive, unless
-- the coroutine is cancelled by then and closes the socket itself. On port 0 the assignment does
-- not replace another open socket.
def InTime (server : Server) (port : Nat) (s : ServerSocket) : Event → Prop
  | .assigns _ => port = 0 → ∀ socket, s.serverSocket = some socket → socket ∉ s.listening
  | .checks job =>
      (.readSocket ∈ server.finallyBlock ∧ (s.coroutines job).cancelled = true) ∨
        (job ∈ s.listening → ¬s.Overlooked job)
  | _ => True

end ServerSocket

end ToInet.Service
