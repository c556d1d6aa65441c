import ToInet.Byedpi.Desync
import ToInet.Byedpi.Extend.Groups
import ToInet.Byedpi.Packets.NeqTlsSid
import ToInet.Byedpi.Proxy.Socks

-- The event loop of byedpi and what it does for each event (proxy.c and extend.c).
namespace ToInet.Byedpi.Proxy

open ToInet.Lib ToInet.Byedpi.Conev ToInet.Byedpi.Desync ToInet.Byedpi.Extend ToInet.Byedpi.Mpool
  ToInet.Byedpi.OptionLoop ToInet.Byedpi.Packets

def FLAG_S4 : Nat := 1

def FLAG_S5 : Nat := 2

def FLAG_CONN : Nat := 4

-- A socket that is accepted, whether its option can be set and whether epoll_ctl adds it.
structure Accepted where
  c : Int
  client : SockaddrIna
  nodelay : Bool
  registered : Bool

-- A socket is there where none of the calls that make it fails. bound is what getsockname tells of the client's
-- connection.
structure UdpCalls where
  ufd : Option Int
  registered : Bool
  connected : Bool
  bound : Option SockaddrIna
  cfd : Option Int
  registeredClient : Bool
  replied : Bool

inductive Received where
  | again
  | ended
  | data (bytes : Bytes)

-- What one turn of the loop of on_tunnel meets.
structure Round where
  recv : Received
  sent : Sent
  modified : Bool

-- What one turn of the loop of on_udp_tunnel meets. stale is what the buffer holds behind the datagram, and opened is
-- whether the TTL of the socket for the server can be set.
structure Datagram where
  recv : Received
  stale : Bytes
  addr : SockaddrIna
  connected : Bool
  opened : Bool
  reached : Bool
  sent : Bool

-- What the system answers to the calls that the handler of one event makes. stale is what the buffer holds behind what
-- is put into it, and opened is whether there is a socket for the server and its TTL can be set.
structure Calls where
  now : Int
  resolve : Bytes → Option SockaddrIna
  accepted : List Accepted
  acceptFails : Bool
  recv : Option Bytes
  stale : Bytes
  reset : Bool
  authSent : Bool
  opened : Bool
  sfd : Option Int
  registered : Bool
  udp : UdpCalls
  optioned : Bool
  modified : Bool
  answered : Bool
  timeoutSet : Bool
  attached : Bool
  sends : List Sent
  polled : Bool
  sentAll : Bool
  posted : Bool
  drained : Sent
  rounds : List Round
  datagrams : List Datagram
  interrupted : Bool

structure State where
  pool : Poolhd
  mempool : Mphdr

-- params.dp, of which the options keep the last one apart.
def groups (params : Params) : List DesyncParams := params.dps ++ [params.dp]

def bfsize (params : Params) : Nat := params.bfsize.toNat

def bound6 (params : Params) : Bool :=
  match params.baddr with
  | .inet _ => false
  | .inet6 _ => true

def portOf : Option SockaddrIna → Nat
  | none => 0
  | some (.inet port _ _) => port.toList.foldl (fun n b => 256 * n + b.toNat) 0
  | some (.inet6 port _ _ _) => port.toList.foldl (fun n b => 256 * n + b.toNat) 0

-- At most count bytes of those that have come, or none at the end or after an error.
def received (recv : Option Bytes) (count : Nat) : Option Bytes :=
  match (recv.getD []).take count with
  | [] => none
  | bytes => some bytes

-- What stands in the buffer behind its first n bytes.
def behind (params : Params) (n : Nat) (calls : Calls) : Bytes :=
  (calls.stale ++ List.replicate (bfsize params) 0).take (bfsize params - n)

-- Whether socket_mod fails. protect copies its path into an array of 108 bytes.
def socketMod (params : Params) (opened : Bool) : Except Abort Bool :=
  if opened = false then .ok true
  else if 108 ≤ ((params.protectPath.getD []).map Char.utf8Size).sum then .error .protectPath
  else .ok false

-- The pair of an eval, which is not checked for null.
def partner (pool : Poolhd) (val : Nat) : Except Abort Nat :=
  match (pool.items val).pair with
  | none => .error .noPair
  | some pair => .ok pair

def linkConn (pool : Poolhd) (val pair : Nat) (dst : SockaddrIna) : Poolhd :=
  (pool.modify pair fun e => { e with pair := some val, in6 := some dst, flag := FLAG_CONN }).modify val
    fun e => { e with pair := some pair, type := .ignore }

-- The second part of a result is whether the function fails.
def createConn (params : Params) (pool : Poolhd) (val : Nat) (dst : Option SockaddrIna) (next : Eid) (calls : Calls) :
    Except Abort (Poolhd × Bool) :=
  match dst with
  | none => .ok (pool, true)
  | some dst =>
      if isInet6 (mapFix dst (bound6 params)) ≠ bound6 params then .ok (pool, true)
      else do
        let failed ← socketMod params calls.opened
        match failed, calls.sfd with
        | false, some sfd =>
            let added ← pool.addEvent next sfd calls.registered
            match added.2 with
            | none => .ok (added.1, true)
            | some pair => .ok (linkConn added.1 val pair dst, false)
        | _, _ => .ok (pool, true)

def connectHook (params : Params) (st : State) (val : Nat) (dst : SockaddrIna) (next : Eid) (calls : Calls) :
    Except Abort (Poolhd × Bool) :=
  let m := (modeAddGet params.cacheTtl st.mempool dst (-1) calls.now).2
  let pool := st.pool.modify val fun e => { e with cache := decide (m = 0), attempt := m.toNat }
  createConn params pool val (some dst) next calls

def linkUdp (pool : Poolhd) (val client pair : Nat) : Poolhd :=
  let in6 := (pool.items val).in6.map (setPort (toVector 2 []))
  ((pool.modify val fun e => { e with type := .ignore, pair := some client }).modify pair
    fun e => { e with pair := some val }).modify client
      fun e => { e with pair := some pair, flag := FLAG_CONN, in6 := in6 }

-- The second half of udp_associate, after the socket for the server is there.
def udpAssociateClient (pool : Poolhd) (val pair : Nat) (calls : Calls) : Except Abort (Poolhd × Bool) :=
  match calls.udp.bound, calls.udp.cfd with
  | none, _ => .ok (pool, true)
  | some _, none => do
      let deleted ← pool.delEvent pair
      .ok (deleted.1, true)
  | some _, some cfd => do
      let added ← pool.addEvent .udpTunnel cfd calls.udp.registeredClient
      match added.2 with
      | none => .error .noClient
      | some client => .ok (linkUdp added.1 val client pair, !calls.udp.replied)

def udpAssociate (params : Params) (pool : Poolhd) (val : Nat) (dst : SockaddrIna) (calls : Calls) :
    Except Abort (Poolhd × Bool) :=
  match calls.udp.ufd with
  | none => .ok (pool, true)
  | some ufd => do
      let added ← pool.addEvent .udpTunnel ufd calls.udp.registered
      match added.2 with
      | none => .ok (added.1, true)
      | some pair =>
          if portOf (some dst) = 0 then udpAssociateClient added.1 val pair calls
          else do
            let failed ← socketMod params calls.opened
            if failed = true ∨ calls.udp.connected = false then do
              let deleted ← added.1.delEvent pair
              .ok (deleted.1, true)
            else
              let addr := if bound6 params then mapFix dst true else dst
              udpAssociateClient (added.1.modify pair fun e => { e with in6 := some addr }) val pair calls

def accept (pool : Poolhd) (accepted : Accepted) : Except Abort Poolhd :=
  if accepted.nodelay = false then .ok pool
  else do
    let added ← pool.addEvent .request accepted.c accepted.registered
    match added.2 with
    | none => .ok added.1
    | some rval => .ok (added.1.modify rval fun e => { e with in6 := some accepted.client })

def onAccept (pool : Poolhd) (calls : Calls) : Except Abort (Poolhd × Bool) := do
  let pool ← calls.accepted.foldlM accept pool
  .ok (pool, calls.acceptFails)

-- Every error of a request ends the connection, after a reply that may fail.
def onRequest (params : Params) (st : State) (val : Nat) (calls : Calls) : Except Abort (Poolhd × Bool) :=
  match received calls.recv (bfsize params) with
  | none => .ok (st.pool, true)
  | some buffer =>
      if buffer.getD 0 0 = 5 then
        if (st.pool.items val).flag ≠ FLAG_S5 then
          match authSocks5 buffer with
          | none => .ok (st.pool, true)
          | some reply =>
              if calls.authSent = false ∨ reply.2 = false then .ok (st.pool, true)
              else .ok (st.pool.modify val fun e => { e with flag := FLAG_S5 }, false)
        else if buffer.length < 8 then .ok (st.pool, true)
        else if buffer.getD 1 0 = 1 then
          match s5GetAddr params calls.resolve buffer with
          | .error _ => .ok (st.pool, true)
          | .addr dst _ => connectHook params st val dst .connect calls
          | .unspec => .error .s5Port
        else if buffer.getD 1 0 = 3 ∧ params.udp = true then
          match s5GetAddr params calls.resolve buffer with
          | .error _ => .ok (st.pool, true)
          | .addr dst _ => udpAssociate params st.pool val dst calls
          | .unspec => .error .s5Port
        else .ok (st.pool, true)
      else if buffer.getD 0 0 = 4 then
        let st := { st with pool := st.pool.modify val fun e => { e with flag := FLAG_S4 } }
        match s4GetAddr params calls.resolve buffer with
        | none => .ok (st.pool, true)
        | some dst => connectHook params st val dst .connect calls
      else .ok (st.pool, true)

def onConnect (pool : Poolhd) (val : Nat) (failed : Bool) (calls : Calls) : Except Abort (Poolhd × Bool) :=
  if failed then
    if calls.optioned = false then .ok (pool, true)
    else do
      let _ ← partner pool val
      .ok (pool, true)
  else if calls.modified = false then .ok (pool, true)
  else do
    let pair ← partner pool val
    let pool := (pool.modify val fun e => { e with type := .tunnel }).modify pair fun e => { e with type := .desync }
    .ok (pool, !calls.answered)

-- What on_desync_again does once desync has returned a position of n bytes.
def sentUpTo (pool : Poolhd) (val pair n sn : Nat) (calls : Calls) : Poolhd × Bool :=
  let pool := pool.modify val fun e => { e with buff := { e.buff with offset := e.buff.offset + sn } }
  if n ≤ sn then (pool.modify pair fun e => { e with type := .preTunnel }, false)
  else if calls.polled = false then (pool, true)
  else (pool.modify pair fun e => { e with type := .desync }, false)

-- What desync writes to the log. The length of an empty host can be negative: then the host goes on to a zero byte.
def logHost (buffer behind : Bytes) : Except Abort Unit :=
  match protocol buffer, parseHttp buffer with
  | .http host, some (_, .negSucc _) => if 0 ∈ (buffer ++ behind).drop host then .ok () else .error .logHost
  | _, _ => .ok ()

def INT_MAX : Nat := 2 ^ 31 - 1

-- What on_desync_again does once it knows the client. The offset is an int: one that is larger wraps, and desync goes
-- in front of the buffer with it.
def desyncFrom (params : Params) (pool : Poolhd) (val : Nat) (calls : Calls) : Except Abort (Poolhd × Bool) :=
  let e := pool.items val
  let data := e.buff.data.getD []
  if data.length = 0 ∨ bfsize params < data.length then .error .again
  else do
    let pair ← partner pool val
    if calls.timeoutSet = false then .ok (pool, true)
    else
      match (groups params)[e.attempt]? with
      | none => .error .modeRange
      | some dp => do
          logHost data (behind params data.length calls)
          let sending ← desync dp (bfsize params) data e.buff.offset calls.attached calls.sends
          match sending.ret with
          | none => .ok (pool, true)
          | some sn =>
              if INT_MAX < e.buff.offset + sn then .error .offsetRange
              else .ok (sentUpTo pool val pair data.length sn calls)

def onDesyncAgain (params : Params) (pool : Poolhd) (val : Nat) (calls : Calls) : Except Abort (Poolhd × Bool) :=
  if (pool.items val).flag = FLAG_CONN then
    if calls.modified = false then .ok (pool, true)
    else do
      let client ← partner pool val
      desyncFrom params pool client calls
  else desyncFrom params pool val calls

def toTunnel (pool : Poolhd) (client : Nat) : Except Abort Poolhd := do
  let pair ← partner pool client
  let pool := (pool.modify pair fun e => { e with type := .tunnel }).modify client fun e => { e with type := .tunnel }
  if (pool.items client).buff.data.isNone then .error .toTunnel
  else .ok (pool.modify client fun e => { e with buff := ⟨none, 0⟩ })

def onDesync (params : Params) (pool : Poolhd) (val : Nat) (out : Bool) (calls : Calls) :
    Except Abort (Poolhd × Bool) :=
  let size := ((pool.items val).buff.data.getD []).length
  if out then onDesyncAgain params pool val calls
  else if size = bfsize params then do
    let pool ← toTunnel pool val
    .ok (pool, false)
  else
    match received calls.recv (bfsize params - size) with
    | none => .ok (pool, true)
    | some bytes => do
        let pool := pool.modify val fun e =>
          { e with
            buff := { e.buff with data := some (e.buff.data.getD [] ++ bytes) }
            recvCount := e.recvCount + bytes.length }
        let pair ← partner pool val
        let e := pool.items val
        let m := if e.attempt = 0 then
            firstGroup (portOf (pool.items pair).in6) (e.buff.data.getD []) (groups params) 0
          else e.attempt
        if (groups params).length ≤ m then .ok (pool, true)
        else onDesyncAgain params (pool.modify val fun e => { e with attempt := m }) val calls

def reconnect (params : Params) (pool : Poolhd) (val m : Nat) (calls : Calls) : Except Abort (Poolhd × Bool) := do
  let client ← partner pool val
  let made ← createConn params pool client (pool.items val).in6 .desync calls
  if made.2 then .ok (made.1, true)
  else do
    let deleted ← (made.1.modify val fun e => { e with pair := none }).delEvent val
    let pool := deleted.1.modify client fun e =>
      { e with type := .ignore, attempt := m, cache := true, buff := { e.buff with offset := 0 } }
    .ok (pool, false)

-- A test of a response, which may go on behind a buffer.
def tested (abort : Abort) (result : Option Bool) : Except Abort Bool :=
  match result with
  | none => .error abort
  | some result => .ok result

-- Whether a group detects a failure. behind is what stands in the buffer behind a response; a request fills its own.
def detected (req behind : Bytes) (failure : Failure) (dp : DesyncParams) : Except Abort Bool :=
  match failure with
  | .torst => .ok (dp.detect.testBit 3)
  | .fin => .ok (dp.detect.testBit 1 && isTlsChello req)
  | .response resp => do
      let redirect ← tested .redirectHost
        (if dp.detect.testBit 0 then isHttpRedirect ⟨req, []⟩ ⟨resp, behind⟩ else some false)
      if redirect then .ok true
      else if dp.detect.testBit 1 = false then .ok false
      else if isTlsChello req && !isTlsShello resp then .ok true
      else tested .tlsSid (neqTlsSid ⟨req, []⟩ ⟨resp, behind⟩)

-- The loops of on_torst, on_fin and on_response over the groups from m on.
def nextGroup (req behind : Bytes) (failure : Failure) : List DesyncParams → Nat → Except Abort Later
  | [], _ => .ok .exhausted
  | dp :: dps, m =>
      if dp.detect = 0 then .ok .stopped
      else do
        let found ← detected req behind failure dp
        if found then .ok (.found m) else nextGroup req behind failure dps (m + 1)

-- on_torst, on_fin and on_response. Only the first forgets the address where no group is left.
def onFailure (params : Params) (st : State) (val : Nat) (behind : Bytes) (failure : Failure) (calls : Calls) :
    Except Abort (State × Bool) := do
  let client ← partner st.pool val
  let c := st.pool.items client
  let next ← nextGroup (c.buff.data.getD []) behind failure ((groups params).drop (c.attempt + 1)) (c.attempt + 1)
  match next, failure with
  | .found m, _ => do
      let made ← reconnect params st.pool val m calls
      .ok ({ st with pool := made.1 }, made.2)
  | .exhausted, .torst =>
      let forget := fun dst => (modeAddGet params.cacheTtl st.mempool dst 0 calls.now).1
      .ok ({ st with mempool := (st.pool.items val).in6.elim st.mempool forget }, true)
  | _, _ => .ok (st, true)

def onTorst (params : Params) (st : State) (val : Nat) (calls : Calls) : Except Abort (State × Bool) :=
  onFailure params st val [] .torst calls

def onFin (params : Params) (st : State) (val : Nat) (calls : Calls) : Except Abort (State × Bool) :=
  onFailure params st val [] .fin calls

def onResponse (params : Params) (st : State) (val : Nat) (resp : Bytes) (calls : Calls) :
    Except Abort (State × Bool) :=
  onFailure params st val (behind params resp.length calls) (.response resp) calls

def onTunnelCheck (params : Params) (st : State) (val : Nat) (out : Bool) (calls : Calls) :
    Except Abort (State × Bool) :=
  if out then .error .checkOut
  else
    match received calls.recv (bfsize params) with
    | none => if calls.reset then onTorst params st val calls else onFin params st val calls
    | some bytes => do
        let tried ← onResponse params st val bytes calls
        if tried.2 = false then .ok tried
        else do
          let pool := tried.1.pool.modify val fun e => { e with recvCount := e.recvCount + bytes.length }
          let pair ← partner pool val
          if calls.sentAll = false then .ok ({ tried.1 with pool }, true)
          else do
            let pool ← toTunnel pool pair
            let m := (pool.items pair).attempt
            if calls.timeoutSet = false ∨ calls.posted = false then .ok ({ tried.1 with pool }, true)
            else if (pool.items pair).cache = false then .ok ({ tried.1 with pool }, false)
            else if (groups params).length ≤ m then .error .modeRange
            else
              let keep := fun dst => (modeAddGet params.cacheTtl tried.1.mempool dst m calls.now).1
              .ok ({ pool, mempool := (pool.items val).in6.elim tried.1.mempool keep }, false)

-- src is the eval that is read, and dst its pair. received is what is read from it, and sent what goes to its pair.
structure Tunnelled where
  pool : Poolhd
  closes : Bool
  src : Nat
  received : Bytes
  sent : Bytes

-- The loop goes on as long as it fills the buffer.
def tunnelLoop (bfsize : Nat) (pool : Poolhd) (src : Nat) : List Round → Except Abort Tunnelled
  | [] => .ok ⟨pool, false, src, [], []⟩
  | round :: rounds =>
      match round.recv with
      | .again => .ok ⟨pool, false, src, [], []⟩
      | .ended => .ok ⟨pool, true, src, [], []⟩
      | .data data =>
          let bytes := data.take bfsize
          let n := bytes.length
          let pool := pool.modify src fun e => { e with recvCount := e.recvCount + n }
          if n = 0 then .ok ⟨pool, true, src, [], []⟩
          else
            match round.sent.count n with
            | none => .ok ⟨pool, true, src, bytes, []⟩
            | some sn =>
                if sn ≠ n then
                  if (pool.items src).buff.data.isSome ∨ (pool.items src).buff.offset ≠ 0 then .error .tunnelBuff
                  else
                    let pool := pool.modify src fun e => { e with buff := { e.buff with data := some (bytes.drop sn) } }
                    .ok ⟨pool, !round.modified, src, bytes, bytes.take sn⟩
                else if n = bfsize then do
                  let rest ← tunnelLoop bfsize pool src rounds
                  .ok { rest with received := bytes ++ rest.received, sent := bytes ++ rest.sent }
                else .ok ⟨pool, false, src, bytes, bytes⟩

-- What on_tunnel does once it knows which eval is read.
def tunnelFrom (params : Params) (pool : Poolhd) (src : Nat) (hup : Bool) (calls : Calls) :
    Except Abort Tunnelled := do
  let _ ← partner pool src
  match (pool.items src).buff.data with
  | none => tunnelLoop (bfsize params) pool src calls.rounds
  | some data =>
      if hup then .ok ⟨pool, true, src, [], []⟩
      else
        let rest := data.drop (pool.items src).buff.offset
        match calls.drained.count rest.length with
        | none => .ok ⟨pool, true, src, [], []⟩
        | some sn =>
            if sn ≠ rest.length then
              let pool := pool.modify src fun e => { e with buff := { e.buff with offset := e.buff.offset + sn } }
              .ok ⟨pool, false, src, [], rest.take sn⟩
            else
              let pool := pool.modify src fun e => { e with buff := ⟨none, 0⟩ }
              if calls.modified = false then .ok ⟨pool, true, src, [], rest⟩
              else do
                let looped ← tunnelLoop (bfsize params) pool src calls.rounds
                .ok { looped with sent := rest ++ looped.sent }

def onTunnel (params : Params) (pool : Poolhd) (val : Nat) (out hup : Bool) (calls : Calls) :
    Except Abort Tunnelled :=
  if out then do
    let src ← partner pool val
    tunnelFrom params pool src hup calls
  else tunnelFrom params pool val hup calls

-- Whether udp_hook of extend.c finds a group for a datagram. IS_UDP is the bit 1.
def udpHook (params : Params) (pool : Poolhd) (val : Nat) : Bool :=
  let e := pool.items val
  e.recvCount ≠ 0 ∨ e.attempt ≠ 0 ∨ ∃ dp ∈ groups params, dp.detect = 0 ∧ (dp.proto = 0 ∨ dp.proto.testBit 1) ∧
    (dp.pf.1 = 0 ∨ checkPort dp.pf (portOf e.in6))

-- The pair is connected with the first datagram. The second part of the result is none where the loop goes on, and
-- else what on_udp_tunnel returns.
def udpForward (params : Params) (pool : Poolhd) (val : Nat) (dst : SockaddrIna) (datagram : Datagram) :
    Except Abort (Poolhd × Option Bool) := do
  let pair ← partner pool val
  if portOf (pool.items pair).in6 = 0 then
    let addr := if bound6 params then mapFix dst true else dst
    if isInet6 addr ≠ bound6 params then .ok (pool, some true)
    else do
      let failed ← socketMod params datagram.opened
      if failed = true ∨ datagram.reached = false then .ok (pool, some true)
      else
        let pool := pool.modify pair fun e => { e with in6 := some addr }
        .ok (pool, if udpHook params pool pair && datagram.sent then none else some true)
  else .ok (pool, if udpHook params pool pair && datagram.sent then none else some true)

-- The first datagram of the client tells its port.
def noteClient (pool : Poolhd) (val : Nat) (addr : SockaddrIna) : Poolhd :=
  if portOf (pool.items val).in6 = 0 then pool.modify val fun e => { e with in6 := some addr } else pool

def udpOfClient (params : Params) (resolve : Bytes → Option SockaddrIna) (pool : Poolhd) (val : Nat) (bytes : Bytes)
    (datagram : Datagram) : Except Abort (Poolhd × Option Bool) :=
  let e := pool.items val
  if portOf e.in6 = 0 ∧ e.in6.any (addrEqu datagram.addr) = false then .ok (pool, some false)
  else if portOf e.in6 = 0 ∧ datagram.connected = false then .ok (pool, some true)
  else
    let pool := noteClient pool val datagram.addr
    if bfsize params < 3 then .error .udpFrag
    else if (bytes ++ datagram.stale).getD 2 0 ≠ 0 then .ok (pool, none)
    else
      match s5GetAddr params resolve bytes with
      | .error _ => .ok (pool, some true)
      | .addr dst _ => udpForward params pool val dst datagram
      | .unspec => .error .s5Port

def udpOfServer (pool : Poolhd) (val : Nat) (datagram : Datagram) : Except Abort (Poolhd × Option Bool) := do
  let pair ← partner pool val
  let _ ← partner pool pair
  .ok (pool, if datagram.sent then none else some true)

-- What is done for one datagram, with a result as that of udpForward.
def onDatagram (params : Params) (resolve : Bytes → Option SockaddrIna) (pool : Poolhd) (val : Nat) (bytes : Bytes)
    (datagram : Datagram) : Except Abort (Poolhd × Option Bool) :=
  if (pool.items val).flag = FLAG_CONN then udpOfClient params resolve pool val bytes datagram
  else udpOfServer pool val datagram

-- A datagram of the server is received behind the 22 bytes for its header. A buffer with less room than that counts as
-- one of almost 2^64 bytes.
def onUdpTunnel (params : Params) (resolve : Bytes → Option SockaddrIna) (pool : Poolhd) (val : Nat) :
    List Datagram → Except Abort (Poolhd × Bool)
  | [] => .ok (pool, false)
  | datagram :: datagrams =>
      match datagram.recv with
      | .again => .ok (pool, false)
      | .ended => .ok (pool, true)
      | .data data =>
          let flag := (pool.items val).flag
          let room := if flag = FLAG_CONN then bfsize params else bfsize params - 22
          let pool := pool.modify val fun e => { e with recvCount := e.recvCount + (data.take room).length }
          if flag ≠ FLAG_CONN ∧ bfsize params < 22 ∧ data ≠ [] then .error .udpRoom
          else if data.take room = [] then .ok (pool, true)
          else do
            let passed ← onDatagram params resolve pool val (data.take room) datagram
            match passed.2 with
            | none => onUdpTunnel params resolve passed.1 val datagrams
            | some closes => .ok (passed.1, closes)

def closeConn (pool : Poolhd) (val : Nat) : Except Abort Poolhd := do
  let deleted ← pool.delEvent val
  .ok deleted.1

-- The bits of EPOLLOUT, EPOLLERR, EPOLLHUP and EPOLLRDHUP.
def out (etype : Nat) : Bool := etype.testBit 2

def err (etype : Nat) : Bool := etype.testBit 3

def hup (etype : Nat) : Bool := etype.testBit 4

def rdhup (etype : Nat) : Bool := etype.testBit 13

-- What is done for an event of a connection, and whether the connection is closed then.
def handle (params : Params) (st : State) (val etype : Nat) (calls : Calls) :
    Except Abort (State × Bool) :=
  let only := fun handled : Except Abort (Poolhd × Bool) =>
    handled.map fun handled => ({ st with pool := handled.1 }, handled.2)
  match (st.pool.items val).type with
  | .accept => only (.ok (st.pool, false))
  | .request => if hup etype then only (.ok (st.pool, true)) else only (onRequest params st val calls)
  | .preTunnel => onTunnelCheck params st val (out etype) calls
  | .tunnel =>
      (onTunnel params st.pool val (out etype) (hup etype) calls).map fun tunnelled =>
        ({ st with pool := tunnelled.pool }, tunnelled.closes)
  | .udpTunnel => only (onUdpTunnel params calls.resolve st.pool val calls.datagrams)
  | .connect => only (onConnect st.pool val (err etype) calls)
  | .desync => only (onDesync params st.pool val (out etype) calls)
  | .ignore => only (.ok (st.pool, hup etype || err etype || rdhup etype))

structure Server where
  st : State
  left : Nat
  exits : Bool

-- What event_loop starts with, where the pool and the socket can be set up.
def start (params : Params) (items : Nat → Eval) (srvfd : Int) (registered : Bool) : Except Abort (Option Server) := do
  let added ← (initPool (2 * params.maxOpen.toNat + 1) items).addEvent .accept srvfd registered
  .ok (added.2.map fun _ => { st := { pool := added.1, mempool := memPool }, left := 0, exits := false })

-- One turn of event_loop. waits has what its calls of epoll_wait tell.
def turn (params : Params) (server : Server) (waits : List (List (Nat × Nat))) (calls : Calls) :
    Except Abort Server :=
  let next := server.st.pool.nextEvent server.left waits
  let st := { server.st with pool := next.1 }
  match next.2 with
  | none => .ok { st := st, left := 0, exits := !calls.interrupted }
  | some (val, etype, left) =>
      if (st.pool.items val).type = .accept then
        if hup etype then .ok { st := st, left := left, exits := true }
        else do
          let accepted ← onAccept st.pool calls
          .ok { st := { st with pool := accepted.1 }, left := left, exits := accepted.2 }
      else do
        let handled ← handle params st val etype calls
        if handled.2 then do
          let pool ← closeConn handled.1.pool val
          .ok { st := { handled.1 with pool }, left := left, exits := false }
        else .ok { st := handled.1, left := left, exits := false }

-- What the system tells and answers, turn by turn.
abbrev Turns := List (List (List (Nat × Nat)) × Calls)

-- event_loop, for as long as it goes on.
def run (params : Params) (server : Server) : Turns → Except Abort Server
  | [] => .ok server
  | (waits, calls) :: turns =>
      if server.exits then .ok server
      else do
        let server ← turn params server waits calls
        run params server turns

end ToInet.Byedpi.Proxy
