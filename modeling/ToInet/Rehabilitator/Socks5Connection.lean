import ToInet.Lib.Socks5
import ToInet.Lib.Stream

-- A connection of the rehabilitator: what it reads from its client and from ByeDPI, and what it
-- writes to them until it copies both ways.
namespace ToInet.Rehabilitator

open ToInet.Lib ToInet.Lib.Socks5

-- A buffer that one read has filled from the front, with the count of the read.
structure Filled (size : Nat) where
  count : Int
  buffer : Bytes
  hlength : buffer.length = size
  rest : Input

def Filled.byte {size : Nat} (filled : Filled size) (i : Nat) : UInt8 := filled.buffer.getD i 0

-- InputStream.read: a buffer without room is not read into, and the end of the stream counts -1.
def readInto (input : Input) (size : Nat) : Filled size :=
  let fill (count : Int) (chunk : Bytes) (rest : Input) : Filled size :=
    { count, buffer := (chunk ++ List.replicate size 0).take size, hlength := by simp, rest }
  if size = 0 then fill 0 [] input
  else
    match input.read size with
    | none => fill (-1) [] input
    | some (chunk, rest) => fill chunk.length chunk rest

def replyBytes (rep : UInt8) : Bytes := [5, rep, 0, 1, 0, 0, 0, 0, 0, 0]

inductive AddressRead where
  | address (address : Address) (rest : Input)
  | unsupported
  -- The stream has ended, so the size of the domain's buffer is -1.
  | exception

def readAddress (atyp : UInt8) (client : Input) : AddressRead :=
  if atyp = 1 then
    let addrBytes := readInto client 4
    .address (.ipv4 addrBytes.buffer addrBytes.hlength) addrBytes.rest
  else if atyp = 3 then
    match client.read 1 with
    | none => .exception
    | some (dlen, client) =>
        let domainBytes := readInto client (dlen.headD 0).toNat
        .address (.domain domainBytes.buffer (domainBytes.hlength.trans_lt (UInt8.toNat_lt _))) domainBytes.rest
  else if atyp = 4 then
    let addrBytes := readInto client 16
    .address (.ipv6 addrBytes.buffer addrBytes.hlength) addrBytes.rest
  else .unsupported

-- What readRequest does behind the header of the greeting: the methods, and the request.
def readBehind (nmethods : Nat) (client : Input) : Bytes × Option (Target × Input) :=
  let methods := readInto client nmethods
  if methods.count < nmethods then ([], none)
  else
    let req := readInto methods.rest 4
    if req.count < 4 then ([5, 0], none)
    else if req.byte 0 ≠ 5 ∨ req.byte 1 ≠ 1 then ([5, 0] ++ replyBytes 7, none)
    else
      match readAddress (req.byte 3) req.rest with
      | .exception => ([5, 0], none)
      | .unsupported => ([5, 0] ++ replyBytes 8, none)
      | .address address client =>
          let portBytes := readInto client 2
          ([5, 0], some ({ address, portBytes := portBytes.buffer, hport := portBytes.hlength }, portBytes.rest))

-- What the client is told before its request is passed on, and the target that it asks for.
def readRequest (client : Input) : Bytes × Option (Target × Input) :=
  let header := readInto client 2
  if header.count < 2 then ([], none)
  else if header.byte 0 ≠ 5 then ([], none)
  else
    let nmethods := (header.byte 1).toInt8.toInt
    -- A negative size is an exception.
    if nmethods < 0 then ([], none) else readBehind nmethods.toNat header.rest

-- Neither of the two is null or empty.
def credentials (username password : Option String) : Option (Bytes × Bytes) :=
  match username, password with
  | some username, some password =>
      if username = "" ∨ password = "" then none else some (toByteArray username, toByteArray password)
  | _, _ => none

-- The method that the answer to the greeting chooses; none is an exception.
def chosenMethod (withCredentials : Bool) (resp : Filled 2) : Option UInt8 :=
  if resp.byte 0 ≠ 5 then none
  else if withCredentials ∧ resp.byte 1 = 2 then some 2
  else if resp.byte 1 ≠ 0 then none
  else some 0

-- What is written to ByeDPI until a method is agreed on, and what ByeDPI still sends then.
def greet (creds : Option (Bytes × Bytes)) (byedpi : Input) : Bytes × Option Input :=
  let resp := readInto byedpi 2
  match creds with
  | none => ([5, 1, 0], (chosenMethod false resp).map fun _ => resp.rest)
  | some (uBytes, pBytes) =>
      match chosenMethod true resp with
      | none => ([5, 2, 0, 2], none)
      | some method =>
          if method = 2 then
            let authReq := [1, toByte uBytes.length] ++ uBytes ++ [toByte pBytes.length] ++ pBytes
            let authResp := readInto resp.rest 2
            ([5, 2, 0, 2] ++ authReq,
              if authResp.byte 0 ≠ 1 ∨ authResp.byte 1 ≠ 0 then none else some authResp.rest)
          else ([5, 2, 0, 2], some resp.rest)

-- The answer to the request; none is an exception.
def readReply (byedpi : Input) : Option Input :=
  let header := readInto byedpi 4
  if header.count < 4 then none
  else if header.byte 1 ≠ 0 then none
  else
    let skip (rAddrLength : Nat) (byedpi : Input) : Option Input :=
      some (readInto (readInto byedpi rAddrLength).rest 2).rest
    if header.byte 3 = 1 then skip 4 header.rest
    else if header.byte 3 = 3 then
      match header.rest.read 1 with
      | none => none
      | some (rLen, byedpi) => skip (rLen.headD 0).toNat byedpi
    else if header.byte 3 = 4 then skip 16 header.rest
    else none

def connectThrough (creds : Option (Bytes × Bytes)) (target : Target) (byedpi : Input) : Bytes × Option Input :=
  match greet creds byedpi with
  | (sent, none) => (sent, none)
  | (sent, some byedpi) =>
      let connReq : Bytes := [5, 1, 0, target.address.atyp]
      (sent ++ connReq ++ target.address.bytes ++ target.portBytes, readReply byedpi)

-- A connection until it copies both ways, or is closed.
structure Handled where
  sent : Bytes
  told : Bytes
  piped : Option (Input × Input)

def handle (connects : Bool) (username password : Option String) (client byedpi : Input) : Handled :=
  match readRequest client with
  | (told, none) => { sent := [], told, piped := none }
  | (told, some (target, client)) =>
      if connects then
        match connectThrough (credentials username password) target byedpi with
        | (sent, none) => { sent, told := told ++ replyBytes 5, piped := none }
        | (sent, some byedpi) => { sent, told := told ++ replyBytes 0, piped := some (client, byedpi) }
      else { sent := [], told := told ++ replyBytes 5, piped := none }

-- The server keeps the address of the upstream proxy, and passes the rest on.
structure Socks5Server where
  byedpiAddr : Target
  upstreamAddr : Target
  username : Option String
  password : Option String

def Socks5Server.serve (server : Socks5Server) (connects : Bool) (client byedpi : Input) : Handled :=
  handle connects server.username server.password client byedpi

end ToInet.Rehabilitator
