import ToInet.Byedpi.Extend.ModeAddGet
import ToInet.Byedpi.OptionLoop
import ToInet.Lib.Socks5

-- The SOCKS messages of byedpi (proxy.c).
namespace ToInet.Byedpi.Proxy

open ToInet.Lib ToInet.Lib.Socks5 ToInet.Byedpi.Extend ToInet.Byedpi.OptionLoop

-- The first bytes of a text, and zeros where it has no more.
def toVector (n : Nat) (l : Bytes) : Vector UInt8 n := Vector.ofFn fun i => l.getD i 0

theorem toList_toVector {n : Nat} {l : Bytes} (h : l.length = n) : (toVector n l).toList = l := by
  refine List.ext_getElem (by simp [h]) fun i h1 h2 => ?_
  simp [toVector, h2]

theorem toVector_toList {n : Nat} (v : Vector UInt8 n) : toVector n v.toList = v := by
  rw [← Vector.toList_inj, toList_toVector (by simp)]

-- An IPv4 address as an IPv6 one, or back. The flow holds the IPv4 address where the socket address had it.
def mapFix (addr : SockaddrIna) (f6 : Bool) : SockaddrIna :=
  match addr, f6 with
  | .inet port addr _, true =>
      .inet6 port addr (toVector 16 (List.replicate 10 0 ++ [0xff, 0xff] ++ addr.toList)) (toVector 4 [])
  | .inet6 port flowinfo addr scopeId, false =>
      if addr.toList.take 12 = List.replicate 10 0 ++ [0xff, 0xff] then
        .inet port (toVector 4 (addr.toList.drop 12)) (toVector 8 addr.toList)
      else .inet6 port flowinfo addr scopeId
  | addr, _ => addr

def addrEqu : SockaddrIna → SockaddrIna → Bool
  | .inet _ addr _, .inet _ addr' _ => addr = addr'
  | .inet6 _ _ addr _, .inet6 _ _ addr' _ => addr = addr'
  | .inet _ addr _, .inet6 _ flowinfo _ _ => addr = flowinfo
  | .inet6 _ _ addr _, .inet _ _ zero => addr = toVector 16 zero.toList

def setPort (port : Vector UInt8 2) : SockaddrIna → SockaddrIna
  | .inet _ addr zero => .inet port addr zero
  | .inet6 _ flowinfo addr scopeId => .inet6 port flowinfo addr scopeId

-- The reply to a greeting, which is accepted if it offers to go without authentication.
def authSocks5 (buffer : Bytes) : Option (Bytes × Bool) :=
  if buffer.length ≤ 2 ∨ (buffer.getD 1 0).toNat ≠ buffer.length - 2 then none
  else if (buffer.drop 2).contains 0 then some (methodReply 0, true) else some (methodReply 0xff, false)

-- The address of a request that leaves the name of the user out, or of one for a name.
def s4GetAddr (params : Params) (resolve : Bytes → Option SockaddrIna) (buff : Bytes) : Option SockaddrIna :=
  let port := toVector 2 ((buff.drop 2).take 2)
  let i4 := (buff.drop 4).take 4
  if buff.length < 9 ∨ buff.getD 1 0 ≠ 1 then none
  else if i4.take 3 = [0, 0, 0] then
    let idEnd := 8 + ((buff.drop 8).takeWhile (· ≠ 0)).length
    let len := buff.length - idEnd - 2
    if params.resolve = false ∨ buff.getLast? ≠ some 0 ∨ len < 3 ∨ 255 < len then none
    else (resolve ((buff.drop (idEnd + 1)).take len)).map (setPort port)
  else some (.inet port (toVector 4 i4) (toVector 8 []))

-- An error of the reply, an address with the length of the request, or neither, for a type of address that is none of
-- the three. Then the port has been read from in front of the buffer, and the result 0 is no error.
inductive S5Addr where
  | error (code : Nat)
  | addr (dst : SockaddrIna) (o : Nat)
  | unspec
deriving DecidableEq

def s5GetAddr (params : Params) (resolve : Bytes → Option SockaddrIna) (buffer : Bytes) : S5Addr :=
  let atp := buffer.getD 3 0
  let len := (buffer.getD 4 0).toNat
  let o := if atp = 1 then 10 else if atp = 3 then len + 7 else if atp = 4 then 22 else 0
  let port := toVector 2 ((buffer.drop (o - 2)).take 2)
  if buffer.length < 8 ∨ buffer.length < o then .error 1
  else if atp = 1 then .addr (.inet port (toVector 4 ((buffer.drop 4).take 4)) (toVector 8 [])) o
  else if atp = 3 then
    if params.resolve = false then .error 8
    else if len < 3 then .error 4
    else (resolve ((buffer.drop 5).take len)).elim (.error 4) fun addr => .addr (setPort port addr) o
  else if atp = 4 then
    if params.ipv6 = false then .error 8
    else .addr (.inet6 port (toVector 4 []) (toVector 16 ((buffer.drop 4).take 16)) (toVector 4 [])) o
  else .unspec

-- front is what the message has before the type of the address.
def s5SetAddr (front : Bytes) (n : Nat) (addr : SockaddrIna) : Option Bytes :=
  match addr with
  | .inet port addr _ => if n < 10 then none else some (front ++ 1 :: (addr.toList ++ port.toList))
  | .inet6 port _ addr _ => if n < 22 then none else some (front ++ 4 :: (addr.toList ++ port.toList))

-- Where a request leads.
def reached (params : Params) (resolve : Bytes → Option SockaddrIna) (target : Target) : Option SockaddrIna :=
  let port := toVector 2 target.portBytes
  match target.address with
  | .ipv4 bytes _ => some (.inet port (toVector 4 bytes) (toVector 8 []))
  | .domain name _ =>
      if params.resolve = true ∧ 3 ≤ name.length then (resolve name).map (setPort port) else none
  | .ipv6 bytes _ =>
      if params.ipv6 = true then some (.inet6 port (toVector 4 []) (toVector 16 bytes) (toVector 4 [])) else none

theorem s5GetAddr_encode {params : Params} {resolve : Bytes → Option SockaddrIna} {front : Bytes}
    (hfront : front.length = 3) {target : Target} {dst : SockaddrIna} (h : reached params resolve target = some dst)
    (rest : Bytes) :
    s5GetAddr params resolve (front ++ (target.encode ++ rest)) = .addr dst (3 + target.encode.length) := by
  obtain ⟨address, portBytes, hport⟩ := target
  obtain ⟨a, b, c, rfl⟩ := List.length_eq_three.mp hfront
  cases address with
  | ipv4 bytes hbytes =>
      obtain rfl := Option.some.inj h
      rw [s5GetAddr]
      simp [Target.encode, Address.atyp, Address.bytes, List.take_left' hbytes, hbytes, hport]
      omega
  | domain name hname =>
      have hlen : (toByte (name.length : Int)).toNat = name.length := by
        rw [toNat_toByte_nat]
        omega
      rw [reached] at h
      simp only at h
      by_cases hname3 : params.resolve = true ∧ 3 ≤ name.length
      · rw [if_pos hname3] at h
        obtain ⟨addr, haddr, rfl⟩ := Option.map_eq_some_iff.mp h
        rw [s5GetAddr]
        simp [Target.encode, Address.atyp, Address.bytes, hlen, hport, hname3.1, haddr]
        rw [if_neg (by omega), if_neg (by omega)]
        exact congrArg (S5Addr.addr _) (by omega)
      · rw [if_neg hname3] at h
        cases h
  | ipv6 bytes hbytes =>
      rw [reached] at h
      simp only at h
      by_cases hipv6 : params.ipv6 = true
      · rw [if_pos hipv6] at h
        obtain rfl := Option.some.inj h
        rw [s5GetAddr]
        simp [Target.encode, Address.atyp, Address.bytes, List.take_left' hbytes, hbytes, hport, hipv6]
        omega
      · rw [if_neg hipv6] at h
        cases h

theorem exists_cut {l : Bytes} {i j : Nat} (h : i + j ≤ l.length) :
    ∃ x y z, l = x ++ (y ++ z) ∧ x.length = i ∧ y.length = j := by
  refine ⟨l.take i, (l.drop i).take j, (l.drop i).drop j, ?_, List.length_take_of_le (by omega), ?_⟩
  · rw [List.take_append_drop, List.take_append_drop]
  · rw [List.length_take_of_le]
    rw [List.length_drop]
    omega

theorem exists_target {params : Params} {resolve : Bytes → Option SockaddrIna} {a b c atp : UInt8} {tail : Bytes}
    {dst : SockaddrIna} {o : Nat} (h : s5GetAddr params resolve (a :: b :: c :: atp :: tail) = .addr dst o) :
    ∃ target rest, atp :: tail = Target.encode target ++ rest ∧ o = 3 + (Target.encode target).length ∧
      reached params resolve target = some dst := by
  rw [s5GetAddr] at h
  by_cases h1 : atp = 1
  · subst h1
    by_cases hroom : tail.length < 6
    · rw [if_pos (by simp; omega)] at h
      cases h
    · obtain ⟨bytes, portBytes, rest, rfl, hbytes, hport⟩ := exists_cut (show 4 + 2 ≤ tail.length by omega)
      rw [if_neg (by simp [hbytes, hport]; omega)] at h
      simp [List.drop_left' hbytes, List.take_left' hbytes, List.take_left' hport] at h
      refine ⟨⟨.ipv4 bytes hbytes, portBytes, hport⟩, rest, ?_, ?_, ?_⟩
      · simp [Target.encode, Address.atyp, Address.bytes]
      · simp [Target.encode, Address.bytes, hbytes, hport, ← h.2]
      · rw [← h.1]
        rfl
  by_cases h3 : atp = 3
  · subst h3
    rcases tail with _ | ⟨len, tail⟩
    · rw [if_pos (.inl (by simp))] at h
      cases h
    by_cases hroom : tail.length < len.toNat + 2 ∨ tail.length < 3
    · rw [if_pos (by simp; omega)] at h
      cases h
    · obtain ⟨name, portBytes, rest, rfl, hname, hport⟩ :=
        exists_cut (show len.toNat + 2 ≤ tail.length by omega)
      rw [if_neg (by simp [hname, hport] at hroom ⊢; omega)] at h
      simp only [List.getD_cons_succ, List.getD_cons_zero] at h
      rw [if_neg h1, if_pos trivial] at h
      by_cases hresolve : params.resolve = false
      · rw [if_pos hresolve] at h
        cases h
      by_cases hshort : len.toNat < 3
      · rw [if_neg hresolve, if_pos hshort] at h
        cases h
      rw [if_neg hresolve, if_neg hshort] at h
      have hlen : toByte (name.length : Int) = len := by rw [hname, toByte_toNat]
      simp [List.take_left' hname] at h
      cases hfound : resolve name with
      | none =>
          rw [hfound] at h
          cases h
      | some addr =>
          rw [hfound] at h
          simp [← hname, List.take_left' hport] at h
          have hbound := len.toNat_lt
          refine ⟨⟨.domain name (by omega), portBytes, hport⟩, rest, ?_, ?_, ?_⟩
          · simp [Target.encode, Address.atyp, Address.bytes, hlen]
          · simp [Target.encode, Address.bytes, hport, ← h.2]
            omega
          · rw [reached]
            simp only
            rw [if_pos ⟨by simpa using hresolve, by omega⟩, hfound, Option.map_some, h.1]
  by_cases h4 : atp = 4
  · subst h4
    by_cases hroom : tail.length < 18
    · rw [if_pos (by simp; omega)] at h
      cases h
    · obtain ⟨bytes, portBytes, rest, rfl, hbytes, hport⟩ := exists_cut (show 16 + 2 ≤ tail.length by omega)
      rw [if_neg (by simp [hbytes, hport]; omega)] at h
      simp only [List.getD_cons_succ, List.getD_cons_zero] at h
      rw [if_neg h1, if_neg h3, if_pos trivial] at h
      by_cases hipv6 : params.ipv6 = false
      · rw [if_pos hipv6] at h
        cases h
      rw [if_neg hipv6] at h
      simp [List.drop_left' hbytes, List.take_left' hbytes, List.take_left' hport] at h
      refine ⟨⟨.ipv6 bytes hbytes, portBytes, hport⟩, rest, ?_, ?_, ?_⟩
      · simp [Target.encode, Address.atyp, Address.bytes]
      · simp [Target.encode, Address.bytes, hbytes, hport, ← h.2]
      · rw [reached]
        simp only
        rw [if_pos (by simpa using hipv6), h.1]
  · by_cases hroom : tail.length < 4
    · rw [if_pos (by simp; omega)] at h
      cases h
    · rw [if_neg (by simp [h1, h3, h4]; omega)] at h
      simp only [List.getD_cons_succ, List.getD_cons_zero] at h
      rw [if_neg h1, if_neg h3, if_neg h4] at h
      cases h

-- The requests that lead somewhere are the requests for the targets that do, whatever follows them.
theorem s5GetAddr_eq_addr_iff (params : Params) (resolve : Bytes → Option SockaddrIna) (buffer : Bytes)
    (dst : SockaddrIna) (o : Nat) : s5GetAddr params resolve buffer = .addr dst o ↔
      ∃ front target rest, buffer = front ++ (Target.encode target ++ rest) ∧ front.length = 3 ∧
        o = 3 + (Target.encode target).length ∧ reached params resolve target = some dst := by
  constructor
  · intro h
    obtain ⟨a, b, c, atp, tail, rfl⟩ : ∃ a b c atp tail, buffer = a :: b :: c :: atp :: tail := by
      rcases buffer with _ | ⟨a, _ | ⟨b, _ | ⟨c, _ | ⟨atp, tail⟩⟩⟩⟩
      all_goals first | exact ⟨_, _, _, _, _, rfl⟩ | cases h
    obtain ⟨target, rest, htarget, ho, hreached⟩ := exists_target h
    exact ⟨[a, b, c], target, rest, by rw [htarget]; rfl, rfl, ho, hreached⟩
  · rintro ⟨front, target, rest, rfl, hfront, rfl, hreached⟩
    exact s5GetAddr_encode hfront hreached rest

theorem s5GetAddr_encode_iff {params : Params} {resolve : Bytes → Option SockaddrIna} {front : Bytes}
    (hfront : front.length = 3) (target : Target) (rest : Bytes) {dst : SockaddrIna} {o : Nat} :
    s5GetAddr params resolve (front ++ (target.encode ++ rest)) = .addr dst o ↔
      reached params resolve target = some dst ∧ o = 3 + target.encode.length := by
  constructor
  · intro h
    obtain ⟨front', target', rest', heq, hfront', ho, hreached⟩ := (s5GetAddr_eq_addr_iff ..).mp h
    obtain ⟨-, htail⟩ := List.append_inj heq (hfront.trans hfront'.symm)
    have hconnect : connect target ++ rest = connect target' ++ rest' := by
      rw [connect, connect, List.append_assoc, List.append_assoc, htail]
    obtain ⟨rfl, -⟩ := connect_append_inj hconnect
    exact ⟨hreached, ho⟩
  · rintro ⟨hreached, rfl⟩
    exact s5GetAddr_encode hfront hreached rest

-- What is taken: the requests that lead somewhere, and those with an unknown type of address.
theorem s5GetAddr_taken_iff (params : Params) (resolve : Bytes → Option SockaddrIna) (buffer : Bytes) :
    (∀ dst o, s5GetAddr params resolve buffer = .addr dst o ↔
      ∃ front target rest, buffer = front ++ (Target.encode target ++ rest) ∧ front.length = 3 ∧
        o = 3 + (Target.encode target).length ∧ reached params resolve target = some dst) ∧
      (s5GetAddr params resolve buffer = .unspec ↔ 8 ≤ buffer.length ∧ buffer.getD 3 0 ∉ [1, 3, 4]) := by
  refine ⟨s5GetAddr_eq_addr_iff params resolve buffer, ?_⟩
  have hname (found : Option SockaddrIna) (addr : SockaddrIna → SockaddrIna) (o : Nat) :
      (found.elim (.error 4) fun dst => S5Addr.addr (addr dst) o) ≠ .unspec := by
    cases found <;> simp
  rw [s5GetAddr]
  generalize buffer.getD 3 0 = atp
  by_cases h1 : atp = 1
  · subst h1
    refine iff_of_false ?_ (by simp)
    simp only [if_true]
    split <;> simp
  by_cases h3 : atp = 3
  · subst h3
    refine iff_of_false ?_ (by simp)
    simp only [if_true]
    split_ifs
    all_goals first | exact hname _ _ _ | simp
  by_cases h4 : atp = 4
  · subst h4
    refine iff_of_false ?_ (by simp)
    simp only [if_true]
    split_ifs
    all_goals first | exact hname _ _ _ | simp
  · simp only [h1, h3, h4, if_false, Nat.not_lt_zero, or_false, List.mem_cons, List.not_mem_nil, not_false_eq_true,
      and_true]
    by_cases hshort : buffer.length < 8
    · rw [if_pos hshort]
      exact iff_of_false (by simp) (by omega)
    · rw [if_neg hshort]
      exact iff_of_true rfl (by omega)

section udp

-- The family, the port and the address.
def plain : SockaddrIna → SockaddrIna
  | .inet port addr _ => .inet port addr (toVector 8 [])
  | .inet6 port _ addr _ => .inet6 port (toVector 4 []) addr (toVector 4 [])

def isInet6 : SockaddrIna → Bool
  | .inet .. => false
  | .inet6 .. => true

-- What on_udp_tunnel sends to the client for a datagram that comes from an address.
def udpReply (addr : SockaddrIna) (data : Bytes) : Option Bytes :=
  (s5SetAddr [0, 0, 0] 22 (mapFix addr false)).map (· ++ data)

theorem plain_mapFix (addr : SockaddrIna) (f6 : Bool) :
    plain (mapFix (mapFix addr f6) false) = plain (mapFix addr false) := by
  cases f6 with
  | false =>
      cases addr with
      | inet port addr zero => rfl
      | inet6 port flowinfo addr scopeId =>
          by_cases hmapped : addr.toList.take 12 = List.replicate 10 0 ++ [0xff, 0xff]
          · simp only [mapFix]
            rw [if_pos hmapped]
          · simp only [mapFix]
            rw [if_neg hmapped]
            simp only
            rw [if_neg hmapped]
  | true =>
      cases addr with
      | inet port addr zero =>
          have hlist : (toVector 16 (List.replicate 10 0 ++ [0xff, 0xff] ++ addr.toList)).toList =
              List.replicate 10 0 ++ [0xff, 0xff] ++ addr.toList := toList_toVector (by simp)
          simp only [mapFix, hlist]
          rw [if_pos (List.take_left' (by simp)), List.drop_left' (by simp), toVector_toList]
          rfl
      | inet6 => rfl

theorem s5SetAddr_eq (addr : SockaddrIna) :
    ∃ target, s5SetAddr [0, 0, 0] 22 addr = some ([0, 0, 0] ++ Target.encode target) ∧
    ∀ params resolve, reached params resolve target =
      if isInet6 addr = true ∧ params.ipv6 = false then none else some (plain addr) := by
  cases addr with
  | inet port addr zero =>
      refine ⟨⟨.ipv4 addr.toList (by simp), port.toList, by simp⟩, rfl, fun params resolve => ?_⟩
      simp [reached, isInet6, plain, toVector_toList]
  | inet6 port flowinfo addr scopeId =>
      refine ⟨⟨.ipv6 addr.toList (by simp), port.toList, by simp⟩, rfl, fun params resolve => ?_⟩
      cases hipv6 : params.ipv6 <;> simp [reached, isInet6, plain, toVector_toList, hipv6]

-- A datagram that goes back to the client, as the parser for the datagrams of the client reads it: the address that
-- it came from, whether or not the socket has it as an IPv6 one, and the data.
theorem udpReply_roundtrip (params : Params) (resolve : Bytes → Option SockaddrIna) (addr : SockaddrIna) (f6 : Bool)
    (data : Bytes) : ∃ header, udpReply (mapFix addr f6) data = some (header ++ data) ∧ header.take 3 = [0, 0, 0] ∧
      (s5GetAddr params resolve (header ++ data) = .addr (plain (mapFix addr false)) header.length ↔
        (isInet6 (mapFix addr false) = true → params.ipv6 = true)) := by
  obtain ⟨target, hset, hreached⟩ := s5SetAddr_eq (mapFix (mapFix addr f6) false)
  have hplain := plain_mapFix addr f6
  have hfamily : isInet6 (mapFix (mapFix addr f6) false) = isInet6 (mapFix addr false) := by
    have hkeep (addr : SockaddrIna) : isInet6 (plain addr) = isInet6 addr := by cases addr <;> rfl
    rw [← hkeep, hplain, hkeep]
  refine ⟨[0, 0, 0] ++ Target.encode target, by rw [udpReply, hset]; rfl, rfl, ?_⟩
  rw [List.append_assoc, s5GetAddr_encode_iff rfl, hreached, hplain, hfamily]
  have hlen : ([0, 0, 0] ++ Target.encode target).length = 3 + (Target.encode target).length := by
    rw [List.length_append]
    rfl
  rw [hlen, and_iff_left rfl]
  cases isInet6 (mapFix addr false) <;> cases params.ipv6 <;> simp

end udp

end ToInet.Byedpi.Proxy
