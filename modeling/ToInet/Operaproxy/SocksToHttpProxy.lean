import ToInet.Lib.Charset
import ToInet.Lib.IpLiteral
import ToInet.Lib.Stream

-- The connections of SocksToHttpProxy: SOCKS5 for the client, CONNECT for the HTTP proxy.
namespace ToInet.Operaproxy.SocksToHttpProxy

open ToInet.Lib

-- String(ByteArray), and InetAddress.getByAddress(..).hostAddress.
structure Platform where
  charset : Charset
  hostAddress : Bytes → String
  hostAddress_four : ∀ bytes, bytes.length = 4 → hostAddress bytes = String.ofList (IpLiteral.dotted bytes)
  hostAddress_sixteen : ∀ bytes, bytes.length = 16 → ∀ c ∈ (hostAddress bytes).toList, IpLiteral.IsAddressChar c

def readFully (input : Input) (size : Nat) : Option (Bytes × Input) := input.fill size

def reply (rep : UInt8) : Bytes := [5, rep, 0, 1, 0, 0, 0, 0, 0, 0]

-- What both sides have been sent when the pipes start or the connection ends, and what the pipes
-- still find unread of both sides.
structure Result where
  toClient : Bytes
  toProxy : Bytes
  piped : Option (Bytes × Bytes)

inductive Host where
  | host (hostStr : String) (rest : Input)
  | unsupported
  | closed

def readHost (platform : Platform) (atyp : UInt8) (clientIn : Input) : Host :=
  let read (size : Nat) (text : Bytes → String) (clientIn : Input) : Host :=
    ((readFully clientIn size).map fun (bytes, rest) => Host.host (text bytes) rest).getD .closed
  if atyp = 1 then read 4 platform.hostAddress clientIn
  else if atyp = 3 then
    match clientIn.readByte with
    | none => .closed
    | some (dlen, clientIn) =>
        if dlen = 0 then .closed else read dlen (fun bytes => String.ofList (platform.charset.decode bytes)) clientIn
  else if atyp = 4 then read 16 platform.hostAddress clientIn
  else .unsupported

def connectRequest (hostStr : String) (targetPort : Nat) : String :=
  "CONNECT " ++ hostStr ++ ":" ++ toString targetPort ++ " HTTP/1.1\r\nHost: " ++ hostStr ++ ":" ++
    toString targetPort ++ "\r\n\r\n"

-- The answer up to an empty line, and what comes behind it.
def readAnswer (sb : List Char) : Bytes → Option (List Char × Bytes)
  | [] => none
  | b :: input =>
      let sb := sb ++ [asciiChar b]
      if "\r\n\r\n".toList <:+ sb then some (sb, input) else readAnswer sb input

-- The proxy is none where it cannot be reached, and otherwise what it sends. The number of the
-- methods has a sign, and an array of a negative size is an exception.
def handleConnection (platform : Platform) (proxy : Option Bytes) (clientIn : Input) : Result :=
  let closed (toClient : Bytes) : Result := { toClient, toProxy := [], piped := none }
  match readFully clientIn 2 with
  | none => closed []
  | some (header, clientIn) =>
      if header.getD 0 0 ≠ 5 then closed []
      else
        let nmethods := (header.getD 1 0).toInt8.toInt
        if nmethods < 0 then closed []
        else
          match readFully clientIn nmethods.toNat with
          | none => closed []
          | some (_, clientIn) =>
              match readFully clientIn 4 with
              | none => closed [5, 0]
              | some (req, clientIn) =>
                  if req.getD 0 0 ≠ 5 ∨ req.getD 1 0 ≠ 1 then closed ([5, 0] ++ reply 7)
                  else
                    match readHost platform (req.getD 3 0) clientIn with
                    | .closed => closed [5, 0]
                    | .unsupported => closed ([5, 0] ++ reply 8)
                    | .host hostStr clientIn =>
                        match readFully clientIn 2, proxy with
                        | none, _ => closed [5, 0]
                        | some _, none => closed ([5, 0] ++ reply 5)
                        | some (portBytes, clientIn), some answer =>
                            let toProxy := toByteArray (connectRequest hostStr (beNat portBytes))
                            match readAnswer [] answer with
                            | none => { toClient := [5, 0] ++ reply 5, toProxy, piped := none }
                            | some (sb, input) =>
                                if " 200 ".toList <:+: sb then
                                  { toClient := [5, 0] ++ reply 0, toProxy, piped := some (clientIn.bytes, input) }
                                else { toClient := [5, 0] ++ reply 5, toProxy, piped := none }

end ToInet.Operaproxy.SocksToHttpProxy
