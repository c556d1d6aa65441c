import ToInet.Byedpi.ByeDpiRouter.ExtractDomain
import ToInet.Lib.Socks5
import ToInet.Lib.Stream

-- ByeDpiRouter.handleClient: a connection from the greeting of its client to the instance that it is
-- passed on to.
namespace ToInet.Byedpi.ByeDpiRouter

open ToInet.Lib ToInet.Lib.Socks5

section

variable (texts : Texts)

-- Every way out ends the connection: none is a return or an exception.
def readGreeting (input : Input) : Option Input := do
  let (greeting, input) ← input.fill 2
  if greeting.getD 0 0 ≠ 5 then none
  else
    let nmethods := (greeting.getD 1 0).toInt8.toInt
    -- A negative size is an exception.
    if nmethods < 0 then none
    else
      let (_, input) ← input.fill nmethods.toNat
      return input

structure Request where
  atyp : UInt8
  dstAddrBytes : Bytes
  portBytes : Bytes
  targetDomain : String

-- The address as it is passed on, and the domain that it names.
def readAddress (atyp : UInt8) (input : Input) : Option (Bytes × String × Input) :=
  if atyp = 1 then do
    let (ip, input) ← input.fill 4
    return (ip, "", input)
  else if atyp = 3 then do
    let (len, input) ← input.readByte
    let (domainBytes, input) ← input.fill len
    return ([toByte len] ++ domainBytes, String.ofList (texts.charset.decode domainBytes), input)
  else if atyp = 4 then do
    let (ip6, input) ← input.fill 16
    return (ip6, "", input)
  else none

def readRequest (input : Input) : Option (Request × Input) := do
  let (reqHeader, input) ← input.fill 4
  if reqHeader.getD 1 0 ≠ 1 then none
  else
    let atyp := reqHeader.getD 3 0
    let (dstAddrBytes, targetDomain, input) ← readAddress texts atyp input
    let (portBytes, input) ← input.fill 2
    return ({ atyp, dstAddrBytes, portBytes, targetDomain }, input)

def chunkSize : Nat := 16384

-- The port for a connection whose first bytes have been read into the buffer.
def routedPort (router : ByeDpiRouter) (targetDomain : String) (chunk : Bytes) : Nat :=
  let firstChunk := chunk ++ List.replicate (chunkSize - chunk.length) 0
  let targetDomain :=
    if targetDomain = "" then (extractDomain texts firstChunk chunk.length).getD "" else targetDomain
  targetPort texts.fold router targetDomain

-- What follows the header of the answer. The size of another address is taken for none.
def skipBound (upInput : Input) : Option Input := do
  let (upConnResp, upInput) ← upInput.fill 4
  let bndAtyp := upConnResp.getD 3 0
  if bndAtyp = 1 then
    let (_, upInput) ← upInput.fill 6
    return upInput
  else if bndAtyp = 3 then
    let (len, upInput) ← upInput.readByte
    let (_, upInput) ← upInput.fill (len + 2)
    return upInput
  else if bndAtyp = 4 then
    let (_, upInput) ← upInput.fill 18
    return upInput
  else return upInput

-- What is written to the instance, and what it still sends when the connection is open.
def openUpstream (request : Request) (upInput : Input) : Bytes × Option Input :=
  let greeting : Bytes := [5, 1, 0]
  match upInput.fill 2 with
  | none => (greeting, none)
  | some (_, upInput) =>
      let upReq := [5, 1, 0, request.atyp] ++ request.dstAddrBytes ++ request.portBytes
      (greeting ++ upReq, skipBound upInput)

def forward (input : Input) : Bytes := (input.chunks chunkSize).flatten

-- What has been written to the client, and to the port that the connection has been passed on to.
structure Served where
  output : Bytes
  upstream : Option (Nat × Bytes)

def reply : Bytes := [5, 0, 0, 1, 0, 0, 0, 0, 0, 0]

-- The first bytes of the payload may come too late. The connection to the port may fail.
def handleClient (router : ByeDpiRouter) (timesOut connects : Bool) (input upInput : Input) : Served :=
  match readGreeting input with
  | none => { output := [], upstream := none }
  | some input =>
      match readRequest texts input with
      | none => { output := [5, 0], upstream := none }
      | some (request, input) =>
          let output := [5, 0] ++ reply
          match if timesOut then none else input.read chunkSize with
          | none => { output, upstream := none }
          | some (firstChunk, input) =>
              if connects then
                let targetPort := routedPort texts router request.targetDomain firstChunk
                match openUpstream request upInput with
                | (sent, none) => { output, upstream := some (targetPort, sent) }
                | (sent, some upInput) =>
                    { output := output ++ forward upInput
                      upstream := some (targetPort, sent ++ firstChunk ++ forward input) }
              else { output, upstream := none }

end

end ToInet.Byedpi.ByeDpiRouter
