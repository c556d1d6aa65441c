import ToInet.Lib.LinkedMap
import ToInet.Tgws.MsgSplitter
import ToInet.Tgws.WsFrame

-- How a connection of TgwsCore comes to connectAndBridge: SOCKS5, an obfuscated stream, or FakeTLS.
namespace ToInet.Tgws

open ToInet.Lib

-- What the platform computes for the connection: HMAC-SHA256 of a key and an array, AES in counter
-- mode, the random bytes, the value of a hexadecimal digit, an IP address and an array as text.
structure Platform where
  hmacSha256 : Bytes → Bytes → Bytes
  length_hmacSha256 : ∀ key data, (hmacSha256 key data).length = 32
  aesCtr : AesCtr
  generateSeed : Nat → Bytes
  digit : Char → Option Nat
  hostAddress : Bytes → String
  string : Bytes → String

structure TgwsCore where
  port : Int
  dcMappings : LinkedMap Int String
  secret : String
  useByeDpi : Bool
  disableWebSockets : Bool
  cfWorkerDomains : List String
  cfProxyDomains : List String

-- What connectAndBridge is called with, and the bytes that it still pipes from the client.
structure Delivery where
  dcId : Option Int
  isMedia : Bool
  targetIp : String
  targetPort : Nat
  initialPayload : Option Bytes
  following : Bytes
deriving DecidableEq

-- toInt(16) takes a sign in front of the digits.
def toInt16 (platform : Platform) : List Char → Option Int
  | ['+', digit] => (platform.digit digit).map fun n => (n : Int)
  | ['-', digit] => (platform.digit digit).map fun n => -(n : Int)
  | [high, low] => do
      let high ← platform.digit high
      let low ← platform.digit low
      return (high * 16 + low : Nat)
  | _ => none

def hexBytes (platform : Platform) : List Char → Option Bytes
  | high :: low :: rest => do
      let n ← toInt16 platform [high, low]
      let bytes ← hexBytes platform rest
      return toByte n :: bytes
  | _ => some []

namespace TgwsCore

variable (platform : Platform) (core : TgwsCore)

def secretBytes : Bytes :=
  let secret := core.secret.toList
  let hex :=
    if ['d', 'd'] <+: secret ∨ ['e', 'e'] <+: secret then (secret.drop 2).take 32 else secret.take 32
  if hex.length = 32 then (hexBytes platform hex).getD [] else []

def reply (rep : UInt8) : Bytes := [5, rep, 0, 1, 0, 0, 0, 0, 0, 0]

inductive Target where
  | address (targetIp : String) (rest : Input)
  | unsupported
  | closed

def readAddress (atyp : UInt8) (input : Input) : Target :=
  let read (size : Nat) (text : Bytes → String) (input : Input) : Target :=
    ((readFully input size).map fun (bytes, rest) => Target.address (text bytes) rest).getD .closed
  if atyp = 1 then read 4 platform.hostAddress input
  else if atyp = 3 then
    match input.readByte with
    | none => .closed
    | some (len, input) => if len = 0 then .closed else read len platform.string input
  else if atyp = 4 then read 16 platform.hostAddress input
  else .unsupported

-- What the client is told, and the delivery.
def handleSocks5 (input : Input) : Bytes × Option Delivery :=
  let methods : Option (Bytes × Input) := do
    let (nmethods, input) ← input.readByte
    if nmethods = 0 then none else readFully input nmethods
  match methods with
  | none => ([], none)
  | some (_, input) =>
      match readFully input 4 with
      | none => ([5, 0], none)
      | some (req, input) =>
          if req.getD 1 0 ≠ 1 then ([5, 0] ++ reply 7, none)
          else
            match readAddress platform (req.getD 3 0) input with
            | .closed => ([5, 0], none)
            | .unsupported => ([5, 0] ++ reply 8, none)
            | .address targetIp input =>
                match readFully input 2 with
                | none => ([5, 0], none)
                | some (portBytes, input) =>
                    let dcId := (core.dcMappings.entries.find? fun entry => entry.2 = targetIp).map Prod.fst
                    ([5, 0] ++ reply 0,
                      some { dcId, isMedia := false, targetIp, targetPort := beNat portBytes
                             initialPayload := none, following := input.bytes })

-- The whole first record of FakeTLS, or 64 bytes.
def readInitialPayload (firstByte : UInt8) (input : Input) : Option (Bytes × Input) :=
  if firstByte = 0x16 then do
    let (hdrRest, input) ← readFully input 4
    let recordLen ← u16At hdrRest 2
    let (recordBody, input) ← readFully input recordLen
    return (firstByte :: hdrRest ++ recordBody, input)
  else do
    let (payload, input) ← readFully input 63
    return (firstByte :: payload, input)

-- The random of a hello that passes the check.
def verifyFakeTls (payload : Bytes) : Option Bytes := do
  let clientRandom ← slice payload 11 43
  let zeroed ← overwrite payload 11 (List.replicate 32 0)
  let expected := platform.hmacSha256 (core.secretBytes platform) zeroed
  if (← slice expected 0 28) = (← slice clientRandom 0 28) then some clientRandom else none

def buildFakeTlsServerHello (clientRandom sessionId : Bytes) : Option Bytes :=
  let sh : Bytes :=
    [0x16, 0x03, 0x03, 0x00, 0x7a, 0x02, 0x00, 0x00, 0x76, 0x03, 0x03] ++ List.replicate 32 0 ++ [0x20] ++
      sessionId ++ [0x13, 0x01, 0x00, 0x00, 0x2e, 0x00, 0x33, 0x00, 0x24, 0x00, 0x1d, 0x00, 0x20] ++
      platform.generateSeed 32 ++ [0x00, 0x2b, 0x00, 0x02, 0x03, 0x04]
  let ccs : Bytes := [0x14, 0x03, 0x03, 0x00, 0x01, 0x01]
  let encryptedSize := 2000
  let appRecord : Bytes := [0x17, 0x03, 0x03] ++ beBytes 2 encryptedSize ++ platform.generateSeed 2000
  let response := sh ++ ccs ++ appRecord
  let serverRandom := platform.hmacSha256 (core.secretBytes platform) (clientRandom ++ response)
  arraycopy serverRandom 0 response 11 32

def sessionId (payload : Bytes) : Option Bytes :=
  if 76 ≤ payload.length then slice payload 44 76 else some (List.replicate 32 0)

-- The ServerHello for a payload that passes the check.
def answerFakeTls (payload : Bytes) : Option Bytes := do
  let clientRandom ← core.verifyFakeTls platform payload
  let sessionId ← sessionId payload
  core.buildFakeTlsServerHello platform clientRandom sessionId

-- The signed index of the data center in the payload of the client.
def dcIndex (payload : Bytes) : Option Int := do
  let decKey := platform.hmacSha256 (core.secretBytes platform)
    ((← slice payload 8 40) ++ core.secretBytes platform)
  let decIv ← slice payload 40 56
  let decryptor : Cipher := { keystream := platform.aesCtr decKey decIv, pos := 0 }
  let (decrypted, _) := decryptor.update payload
  let field ← slice decrypted 60 62
  return (BitVec.ofNat 16 (beNat field.reverse)).toInt

-- null and an exception end the connection alike.
def deliverMtproto (payload : Bytes) (input : Input) : Option Delivery := do
  let dcIdx ← core.dcIndex platform payload
  let dcId : Int := dcIdx.natAbs
  return { dcId := some dcId, isMedia := dcIdx < 0
           targetIp := (core.dcMappings.get? dcId).getD "149.154.167.220", targetPort := 443
           initialPayload := some payload, following := input.bytes }

def handleMtproto (payload : Bytes) (input : Input) : Bytes × Option Delivery :=
  if core.secretBytes platform = [] then ([], none)
  else if payload.getD 0 0 = 0x16 then
    match core.answerFakeTls platform payload with
    | none => ([], none)
    | some sh =>
        (sh, do
          let (decryptedPayload, input) ← readFully input 64
          core.deliverMtproto platform decryptedPayload input)
  else ([], core.deliverMtproto platform payload input)

def handleClient (input : Input) : Bytes × Option Delivery :=
  match input.read 1 with
  | none => ([], none)
  | some (firstByte, input) =>
      if firstByte.getD 0 0 = 0x05 then core.handleSocks5 platform input
      else
        match readInitialPayload (firstByte.getD 0 0) input with
        | none => ([], none)
        | some (payload, input) => core.handleMtproto platform payload input

end TgwsCore

end ToInet.Tgws
