import Mathlib.Data.Finset.Erase
import Mathlib.Data.Finset.Insert
import Mathlib.Data.List.DropRight
import ToInet.Lib.Store
import ToInet.Util.Prefs

-- OrbotRawEventListener: what the listener keeps of the circuits that Tor reports.
namespace ToInet.Service.OrbotRawEventListener

open ToInet.Lib ToInet.Util

-- String.split: a text without the separator is kept, else empty parts at the end are left out.
def split (sep : Char) (text : List Char) : List (List Char) :=
  if sep ∈ text then (text.splitOn sep).rdropWhile (· = []) else [text]

structure DebugLoggingNode where
  status : List Char
  id : List Char
  name : List Char
deriving DecidableEq

structure ExitNode where
  fingerPrint : List Char
deriving DecidableEq

structure State where
  hmBuiltNodes : Store (List Char) DebugLoggingNode
  exitNodeMap : Store Int ExitNode
  ignoredInternalCircuits : Finset Int

def State.initial : State := { hmBuiltNodes := ∅, exitNodeMap := ∅, ignoredInternalCircuits := ∅ }

-- The texts of TorControlCommands.
inductive Status where
  | launched
  | built
  | extended
  | failed
  | closed
deriving DecidableEq

def Status.text : Status → List Char
  | launched => "LAUNCHED".toList
  | built => "BUILT".toList
  | extended => "EXTENDED".toList
  | failed => "FAILED".toList
  | closed => "CLOSED".toList

-- substring(1), which throws for an empty text.
def substring : List Char → Option (List Char)
  | [] => none
  | _ :: text => some text

-- The id and the name of a node, where its path has one part or two.
def nodeOf (nodePath : List Char) : Option (Option (List Char × List Char)) :=
  match split (if '=' ∈ nodePath then '=' else '~') nodePath with
  | [part] => (substring part).map fun nodeId => some (nodeId, nodeId)
  | [part, nodeName] => (substring part).map fun nodeId => some (nodeId, nodeName)
  | _ => some none

-- A node that is kept is changed in its place.
def logNodes (status : List Char) :
    Bool → List (List Char) → Store (List Char) DebugLoggingNode → Option (Store (List Char) DebugLoggingNode)
  | _, [], nodes => some nodes
  | isFirstNode, nodePath :: rest, nodes =>
      match nodeOf nodePath with
      | none => none
      | some none => logNodes status isFirstNode rest nodes
      | some (some (nodeId, nodeName)) =>
          let node : DebugLoggingNode :=
            match nodes.lookup nodeId with
            | some node => { node with status }
            | none => { status, id := nodeId, name := nodeName }
          let nodes := if (nodes.lookup nodeId).isSome then AList.insert nodeId node nodes else nodes
          if status = Status.extended.text ∧ isFirstNode then
            logNodes status false rest (AList.insert node.id node nodes)
          else if status = Status.closed.text then logNodes status isFirstNode rest (nodes.erase node.id)
          else logNodes status isFirstNode rest nodes

def handleCircuitStatus (useDebugLogging : Bool) (circuitStatus path : List Char)
    (nodes : Store (List Char) DebugLoggingNode) : Option (Store (List Char) DebugLoggingNode) :=
  if useDebugLogging then logNodes circuitStatus true ((path.splitOn ',').filter (· ≠ [])) nodes else some nodes

-- Integer.parseInt and the indices of arrays throw.
def handleCircuitStatusExpandedNotifications (circuitStatus circuitId path : List Char) (s : State) :
    Option State := do
  let id ← Prefs.parseInt circuitId
  if circuitStatus = Status.built.text then
    if id ∈ s.ignoredInternalCircuits then some s
    else do
      let exit ← (split ',' path).getLast?
      let fingerPrint ← (split '~' exit).head?
      some { s with exitNodeMap := AList.insert id { fingerPrint } s.exitNodeMap }
  else if circuitStatus = Status.closed.text then
    some { s with
      exitNodeMap := s.exitNodeMap.erase id
      ignoredInternalCircuits := s.ignoredInternalCircuits.erase id }
  else if circuitStatus = Status.failed.text then
    some { s with ignoredInternalCircuits := s.ignoredInternalCircuits.erase id }
  else some s

def isFlagged (data : List Char) : Bool := "ONEHOP_TUNNEL".toList <:+: data ∨ "IS_INTERNAL".toList <:+: data

-- Internal circuits are not looked up.
def ignoredWith (data circuitId : List Char) (ignored : Finset Int) : Option (Finset Int) :=
  if isFlagged data then (Prefs.parseInt circuitId).map fun id => insert id ignored else some ignored

-- The path that an event has; an index out of the bounds throws.
def pathOf (payload : List (List Char)) (status : List Char) : Option (List Char) :=
  if payload.length < 3 ∨ status = Status.launched.text then some [] else payload[2]?

-- The branch of onEvent for the status of a circuit; none is an exception.
def onCircuitStatus (useDebugLogging : Bool) (data : List Char) (s : State) : Option State := do
  let payload := split ' ' data
  let status ← payload[1]?
  let circuitId ← payload[0]?
  let path ← pathOf payload status
  let hmBuiltNodes ← handleCircuitStatus useDebugLogging status path s.hmBuiltNodes
  let ignoredInternalCircuits ← ignoredWith data circuitId s.ignoredInternalCircuits
  handleCircuitStatusExpandedNotifications status circuitId path { s with hmBuiltNodes, ignoredInternalCircuits }

end ToInet.Service.OrbotRawEventListener
