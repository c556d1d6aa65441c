import ToInet.Lib.Bytes

-- The messages of SOCKS5. Each ends where it says that it ends.
namespace ToInet.Lib.Socks5

inductive Address where
  | ipv4 (bytes : Bytes) (hlength : bytes.length = 4)
  | domain (name : Bytes) (hlength : name.length < 256)
  | ipv6 (bytes : Bytes) (hlength : bytes.length = 16)
deriving DecidableEq

namespace Address

def atyp : Address → UInt8
  | ipv4 .. => 1
  | domain .. => 3
  | ipv6 .. => 4

def bytes : Address → Bytes
  | ipv4 bytes _ => bytes
  | domain name _ => toByte name.length :: name
  | ipv6 bytes _ => bytes

-- The address without the length in front of a name.
def content : Address → Bytes
  | ipv4 bytes _ => bytes
  | domain name _ => name
  | ipv6 bytes _ => bytes

def named : Address → Bool
  | domain name _ => !name.isEmpty
  | _ => true

end Address

structure Target where
  address : Address
  portBytes : Bytes
  hport : portBytes.length = 2
deriving DecidableEq

-- Port 443, and the address and the port that stand for none.
theorem length_https : ([1, 187] : Bytes).length = 2 := rfl

theorem length_noHost : ([0, 0, 0, 0] : Bytes).length = 4 := rfl

theorem length_noPort : ([0, 0] : Bytes).length = 2 := rfl

def Target.encode (target : Target) : Bytes :=
  target.address.atyp :: (target.address.bytes ++ target.portBytes)

def greeting (methods : Bytes) : Bytes := 5 :: toByte methods.length :: methods

def auth (username password : Bytes) : Bytes :=
  1 :: toByte username.length :: (username ++ toByte password.length :: password)

-- A request to connect, of any version and with anything in its reserved byte.
def request (version reserved : UInt8) (target : Target) : Bytes := [version, 1, reserved] ++ target.encode

def connect (target : Target) : Bytes := [5, 1, 0] ++ target.encode

def methodReply (method : UInt8) : Bytes := [5, method]

def authReply (status : UInt8) : Bytes := [1, status]

def connectReply (rep : UInt8) (bound : Target) : Bytes := [5, rep, 0] ++ bound.encode

theorem toByte_length_inj {bytes others : Bytes} (hbytes : bytes.length < 256) (hothers : others.length < 256)
    (h : toByte bytes.length = toByte others.length) : bytes.length = others.length := by
  have hnat := congrArg UInt8.toNat h
  rw [toNat_toByte_nat, toNat_toByte_nat] at hnat
  omega

theorem greeting_append_inj {methods others rest more : Bytes} (hmethods : methods.length < 256)
    (hothers : others.length < 256) (h : greeting methods ++ rest = greeting others ++ more) :
    methods = others ∧ rest = more := by
  obtain ⟨_, htail⟩ := List.cons.inj h
  obtain ⟨hcount, htail⟩ := List.cons.inj htail
  exact List.append_inj htail (toByte_length_inj hmethods hothers hcount)

theorem address_append_inj {address other : Address} {rest more : Bytes} (htype : address.atyp = other.atyp)
    (h : address.bytes ++ rest = other.bytes ++ more) : address = other ∧ rest = more := by
  cases address with
  | ipv4 bytes hbytes =>
      cases other with
      | ipv4 others hothers =>
          obtain ⟨rfl, hrest⟩ := List.append_inj h (hbytes.trans hothers.symm)
          exact ⟨rfl, hrest⟩
      | domain => simp [Address.atyp] at htype
      | ipv6 => simp [Address.atyp] at htype
  | domain name hname =>
      cases other with
      | ipv4 => simp [Address.atyp] at htype
      | domain other hother =>
          obtain ⟨hcount, htail⟩ := List.cons.inj h
          obtain ⟨rfl, hrest⟩ := List.append_inj htail (toByte_length_inj hname hother hcount)
          exact ⟨rfl, hrest⟩
      | ipv6 => simp [Address.atyp] at htype
  | ipv6 bytes hbytes =>
      cases other with
      | ipv4 => simp [Address.atyp] at htype
      | domain => simp [Address.atyp] at htype
      | ipv6 others hothers =>
          obtain ⟨rfl, hrest⟩ := List.append_inj h (hbytes.trans hothers.symm)
          exact ⟨rfl, hrest⟩

theorem request_append_inj {version other reserved byte : UInt8} {target others : Target} {rest more : Bytes}
    (h : request version reserved target ++ rest = request other byte others ++ more) :
    version = other ∧ reserved = byte ∧ target = others ∧ rest = more := by
  obtain ⟨address, portBytes, hport⟩ := target
  obtain ⟨otherAddress, otherPort, hother⟩ := others
  have hencode : version :: 1 :: reserved :: address.atyp :: (address.bytes ++ (portBytes ++ rest)) =
      other :: 1 :: byte :: otherAddress.atyp :: (otherAddress.bytes ++ (otherPort ++ more)) := by
    simpa [request, Target.encode] using h
  obtain ⟨hversion, htail⟩ := List.cons.inj hencode
  obtain ⟨_, htail⟩ := List.cons.inj htail
  obtain ⟨hreserved, htail⟩ := List.cons.inj htail
  obtain ⟨htype, hbytes⟩ := List.cons.inj htail
  obtain ⟨rfl, hend⟩ := address_append_inj htype hbytes
  obtain ⟨rfl, hrest⟩ := List.append_inj hend (hport.trans hother.symm)
  exact ⟨hversion, hreserved, rfl, hrest⟩

theorem connect_append_inj {target other : Target} {rest more : Bytes}
    (h : connect target ++ rest = connect other ++ more) : target = other ∧ rest = more := by
  obtain ⟨_, _, htarget, hrest⟩ := request_append_inj
    (show request 5 0 target ++ rest = request 5 0 other ++ more from h)
  exact ⟨htarget, hrest⟩

-- A request begins what another one begins only if it is the same.
theorem eq_of_connect_prefix {target other : Target} {more : Bytes} (h : connect target <+: connect other ++ more) :
    target = other := by
  obtain ⟨rest, hrest⟩ := h
  exact (connect_append_inj hrest).1

theorem auth_not_prefix_connect {username password more rest : Bytes} {target : Target} :
    ¬auth username password ++ more <+: connect target ++ rest := by
  rintro ⟨tail, h⟩
  exact absurd (List.cons.inj h).1 (by decide)

end ToInet.Lib.Socks5
