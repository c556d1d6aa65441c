import ToInet.Lib.Transition
import ToInet.Tgws.WsFrame

namespace ToInet.Tgws

open ToInet.Lib ToInet.Lib.WebSocket

-- A call of sendWsFrame, with the mask it has chosen.
structure Outgoing where
  mask : Mask
  data : Bytes
  opcode : Opcode
deriving DecidableEq

def Outgoing.bytes (outgoing : Outgoing) : Bytes :=
  sendWsFrame outgoing.mask outgoing.data outgoing.opcode.code

-- The two coroutines: the reader of the client and the reader of the WebSocket.
inductive Party where
  | client
  | webSocket
deriving DecidableEq, Repr

-- Where a coroutine stands: in front of a read, of synchronized(out), inside out.write
-- with a part of the array written, in front of out.flush, or behind its loop.
inductive Pc where
  | reading
  | entering (outgoing : Outgoing)
  | writing (outgoing : Outgoing) (written : Nat)
  | flushing
  | finished (failed : Bool)
deriving DecidableEq

-- A write that fails in the middle of an array leaves cut behind, and nothing can be
-- written after it.
structure BridgeWs where
  wsOut : Bytes
  cut : Bytes
  lock : Option Party
  clientIn : Input
  wsIn : Input
  clientOut : Bytes
  client : Pc
  webSocket : Pc

namespace BridgeWs

-- The coroutines start behind the frame of initPayload.
def start (initPayload : Option Bytes) (mask : Mask) (clientIn wsIn : Input) : BridgeWs :=
  { wsOut := (initPayload.map fun data => sendWsFrame mask data 0x02).getD []
    cut := [], lock := none, clientIn, wsIn, clientOut := [], client := .reading, webSocket := .reading }

def pc (bridge : BridgeWs) : Party → Pc
  | .client => bridge.client
  | .webSocket => bridge.webSocket

def setPc (bridge : BridgeWs) (party : Party) (pc : Pc) : BridgeWs :=
  match party with
  | .client => { bridge with client := pc }
  | .webSocket => { bridge with webSocket := pc }

inductive Event where
  | read (party : Party) (mask : Mask)
  | enter (party : Party)
  | write (party : Party) (count : Nat)
  | leave (party : Party)
  | fail (party : Party)
deriving DecidableEq

def readClient (bridge : BridgeWs) (mask : Mask) : BridgeWs :=
  match bridge.clientIn.read 65536 with
  | none => { bridge with client := .finished false }
  | some (chunk, clientIn) =>
      { bridge with clientIn, client := .entering { mask, data := chunk, opcode := .binary } }

def readWebSocket (bridge : BridgeWs) (mask : Mask) : BridgeWs :=
  match readFrame bridge.wsIn with
  | .error stop => { bridge with webSocket := .finished (stop = .exception) }
  | .ok (opcode, data, wsIn) =>
      match frameAction opcode with
      | .close => { bridge with wsIn, webSocket := .finished false }
      | .sendPong => { bridge with wsIn, webSocket := .entering { mask, data, opcode := .pong } }
      | .skip => { bridge with wsIn }
      | .deliver => { bridge with wsIn, clientOut := bridge.clientOut ++ data }

-- The client's reader ends with an exception of sendWsFrame; around a pong the
-- exception is caught and the loop goes on.
def afterFailure : Party → Pc
  | .client => .finished true
  | .webSocket => .reading

def step (bridge : BridgeWs) : Event → Option BridgeWs
  | .read party mask =>
      match party, bridge.pc party with
      | .client, .reading => some (bridge.readClient mask)
      | .webSocket, .reading => some (bridge.readWebSocket mask)
      | _, _ => none
  | .enter party =>
      match bridge.pc party, bridge.lock with
      | .entering outgoing, none =>
          some ({ bridge with lock := some party }.setPc party (.writing outgoing 0))
      | _, _ => none
  | .write party count =>
      match bridge.pc party with
      | .writing outgoing written =>
          if bridge.cut = [] ∧ 0 < count ∧ written + count ≤ outgoing.bytes.length then
            let next := { bridge with
              wsOut := bridge.wsOut ++ (outgoing.bytes.drop written).take count }
            if written + count = outgoing.bytes.length then some (next.setPc party .flushing)
            else some (next.setPc party (.writing outgoing (written + count)))
          else none
      | _ => none
  | .leave party =>
      match bridge.pc party with
      | .flushing => some ({ bridge with lock := none }.setPc party .reading)
      | _ => none
  | .fail party =>
      match bridge.pc party with
      | .reading => some (bridge.setPc party (.finished true))
      | .writing outgoing written =>
          some ({ bridge with lock := none, cut := bridge.cut ++ outgoing.bytes.take written }.setPc party
            (afterFailure party))
      | .flushing => some ({ bridge with lock := none }.setPc party (afterFailure party))
      | _ => none

-- What stands behind the last whole frame: a part of the array that is being written,
-- or that a failure cut off.
def part : Pc → Bytes
  | .writing outgoing written => outgoing.bytes.take written
  | _ => []

def unfinished (bridge : BridgeWs) : Bytes :=
  bridge.cut ++ part bridge.client ++ part bridge.webSocket

end BridgeWs

end ToInet.Tgws
