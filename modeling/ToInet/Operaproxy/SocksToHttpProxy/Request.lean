import ToInet.Lib.Http
import ToInet.Lib.Socks5
import ToInet.Operaproxy.SocksToHttpProxy

-- Which clients have the HTTP proxy asked for just what they ask for.
namespace ToInet.Operaproxy.SocksToHttpProxy

open ToInet.Lib ToInet.Lib.Socks5

variable {platform : Platform}

def hostText (platform : Platform) : Address → String
  | .ipv4 bytes _ => platform.hostAddress bytes
  | .domain name _ => String.ofList (platform.charset.decode name)
  | .ipv6 bytes _ => platform.hostAddress bytes

def requested : Address → Http.Host
  | .ipv4 bytes _ => .ipv4 bytes
  | .domain name _ => .name name
  | .ipv6 bytes _ => .ipv6 bytes

-- The bytes are the head of one request, with nothing behind it and one field. Its authority stands
-- for the host and the port of the target.
def Sends (written : Bytes) (target : Target) : Prop :=
  ∃ authority, Http.parse (written.map asciiChar) =
      some ({ method := "CONNECT".toList, target := authority, fields := [("Host".toList, authority)] }, []) ∧
    Http.authority authority = some (requested target.address, beNat target.portBytes)

-- An IPv4 address, or a domain of unreserved characters and sub-delimiters that is none.
def Plain : Address → Prop
  | .ipv4 .. => True
  | .domain name _ =>
      (∀ b ∈ name, Http.isNameChar (asciiChar b) = true) ∧ IpLiteral.ipv4 (name.map asciiChar) = none
  | .ipv6 .. => False

-- One request is never sent for two targets.
theorem eq_of_sends {written : Bytes} {target other : Target} (h : Sends written target)
    (hother : Sends written other) :
    target = other := by
  obtain ⟨address, portBytes, hport⟩ := target
  obtain ⟨otherAddress, otherPort, hotherPort⟩ := other
  obtain ⟨authority, hparse, hauthority⟩ := h
  obtain ⟨_, hsame, hotherAuthority⟩ := hother
  rw [hparse] at hsame
  obtain ⟨hhead, _⟩ := Prod.mk.inj (Option.some.inj hsame)
  obtain ⟨_, rfl, _⟩ := Http.Head.mk.inj hhead
  rw [hauthority] at hotherAuthority
  obtain ⟨hhost, hnumber⟩ := Prod.mk.inj (Option.some.inj hotherAuthority)
  have haddress : address = otherAddress := by
    cases address <;> cases otherAddress <;> simp [requested] at hhost ⊢ <;> exact hhost
  have hbytes : portBytes = otherPort := by
    have hnat : beNat portBytes = beNat otherPort := hnumber
    rw [← beBytes_beNat portBytes, ← beBytes_beNat otherPort, hport, hotherPort, hnat]
  subst haddress hbytes
  rfl

theorem connectRequest_toList (hostStr : String) (targetPort : Nat) :
    (connectRequest hostStr targetPort).toList =
      "CONNECT".toList ++ ' ' :: (hostStr.toList ++ ':' :: Nat.toDigits 10 targetPort ++ ' ' :: "HTTP/1.1".toList) ++
        '\r' :: '\n' :: ("Host".toList ++ ':' :: ' ' :: (hostStr.toList ++ ':' :: Nat.toDigits 10 targetPort) ++
          ['\r', '\n', '\r', '\n']) := by
  unfold connectRequest
  simp

theorem not_colon_of_isNameChar {text : List Char} (h : ∀ c ∈ text, Http.isNameChar c = true) : ':' ∉ text := by
  intro hmem
  exact absurd (h ':' hmem) (by decide)

-- Where the host stands for the one that is asked for, the request does.
theorem sends_of_host {hostStr : String} {target : Target} (hne : hostStr.toList ≠ [])
    (hnames : ∀ c ∈ hostStr.toList, Http.isNameChar c = true)
    (hhost : Http.host hostStr.toList = some (requested target.address)) :
    Sends (toByteArray (connectRequest hostStr (beNat target.portBytes))) target := by
  have hport : beNat target.portBytes < 65536 := by
    have hlt := beNat_lt target.portBytes
    rwa [target.hport] at hlt
  have hdigits : ∀ c ∈ Nat.toDigits 10 (beNat target.portBytes), Http.isNameChar c = true :=
    fun c hc => Http.isNameChar_of_isDigit (isDigit_of_mem_toDigits hc)
  have hvisible : (hostStr.toList ++ ':' :: Nat.toDigits 10 (beNat target.portBytes)).all Http.isVisible = true := by
    rw [List.all_eq_true, List.forall_mem_append, List.forall_mem_cons]
    exact ⟨fun c hc => Http.isVisible_of_isNameChar (hnames c hc), by decide,
      fun c hc => Http.isVisible_of_isNameChar (hdigits c hc)⟩
  have hbracket : hostStr.toList.head? ≠ some '[' := by
    intro hhead
    exact absurd (hnames '[' (List.mem_of_head? hhead)) (by decide)
  have hlow {text : List Char} (hall : ∀ c ∈ text, Http.isNameChar c = true) : ∀ c ∈ text, c.toNat < 128 := by
    intro c hc
    have hrange := Http.isNameChar_range (hall c hc)
    omega
  have hascii : ∀ c ∈ (connectRequest hostStr (beNat target.portBytes)).toList, c.toNat < 128 := by
    rw [connectRequest_toList]
    simp only [List.forall_mem_append, List.forall_mem_cons]
    exact ⟨⟨forall_mem_of_all (by decide), by decide, ⟨hlow hnames, by decide, hlow hdigits⟩, by decide,
      forall_mem_of_all (by decide)⟩, by decide, by decide,
      ⟨forall_mem_of_all (by decide), by decide, by decide, hlow hnames, by decide, hlow hdigits⟩, by decide, by decide,
      by decide, by decide, nofun⟩
  refine ⟨hostStr.toList ++ ':' :: Nat.toDigits 10 (beNat target.portBytes), ?_, ?_⟩
  · rw [map_asciiChar_toByteArray hascii, connectRequest_toList]
    exact Http.parse_request (by decide) (by decide) (List.append_ne_nil_of_left_ne_nil hne _) hvisible (by decide)
      (by decide) hvisible
  · rw [Http.authority_append (not_colon_of_isNameChar hnames) hbracket hne, hhost, Http.port_decimal hport]
    rfl

-- The text of the host as it is sent, byte by byte.
def sentHost (hostStr : String) : List Char := (toByteArray hostStr).map asciiChar

theorem sent_eq (hostStr : String) (targetPort : Nat) :
    ∃ rest, (toByteArray (connectRequest hostStr targetPort)).map asciiChar =
      "CONNECT".toList ++ ' ' :: (sentHost hostStr ++ ':' :: rest) := by
  have hfront : (toByteArray "CONNECT ").map asciiChar = "CONNECT ".toList :=
    map_asciiChar_toByteArray (forall_mem_of_all (by decide))
  have hcolon : (toByteArray ":").map asciiChar = ":".toList :=
    map_asciiChar_toByteArray (forall_mem_of_all (by decide))
  unfold connectRequest
  simp only [toByteArray_append, List.map_append, List.append_assoc, hfront, hcolon]
  exact ⟨_, rfl⟩

-- The authority of a request that is understood begins where the host does.
theorem authority_of_sends {hostStr : String} {targetPort : Nat} {target : Target}
    (h : Sends (toByteArray (connectRequest hostStr targetPort)) target) :
    ∃ authority more rest, authority ++ ' ' :: more = sentHost hostStr ++ ':' :: rest ∧
      Http.authority authority = some (requested target.address, beNat target.portBytes) := by
  obtain ⟨authority, hparse, hauthority⟩ := h
  obtain ⟨more, hmore⟩ := Http.parse_eq_some hparse
  obtain ⟨rest, hrest⟩ := sent_eq hostStr targetPort
  rw [hrest] at hmore
  exact ⟨authority, more, rest, (List.cons.inj (List.append_cancel_left hmore)).2.symm, hauthority⟩

theorem countP_sentHost (charset : Charset) (name : Bytes) :
    (sentHost (String.ofList (charset.decode name))).countP (fun c => c.toNat < 128) =
      name.countP fun b => IsAscii b := by
  have hsent : (sentHost (String.ofList (charset.decode name))).countP (fun c => c.toNat < 128) =
      (toByteArray (String.ofList (charset.decode name))).countP fun b => IsAscii b := by
    rw [sentHost, List.countP_map]
    refine List.countP_congr fun b _ => ?_
    rw [Function.comp_apply, toNat_asciiChar]
    exact Iff.rfl
  rw [hsent, ← charset.countP_decode, charset.decode_text, String.toList_ofList, charset.countP_decode]

theorem asciiChar_byteOf {c : Char} (h : c.toNat < 128) : asciiChar (Http.byteOf c) = c := by
  have hnat : (Http.byteOf c).toNat = c.toNat := by
    rw [Http.byteOf, UInt8.toNat_ofNat']
    exact Nat.mod_eq_of_lt (by omega)
  rw [asciiChar, hnat, Char.ofNat_toNat]

theorem byteOf_asciiChar (b : UInt8) : Http.byteOf (asciiChar b) = b := by
  rw [Http.byteOf, toNat_asciiChar, UInt8.ofNat_toNat]

-- What is read as the domain has no room for an escape, since it stands in the text for the domain.
theorem plain_of_sends {name : Bytes} {hlength : name.length < 256} {portBytes : Bytes} {hport : portBytes.length = 2}
    {targetPort : Nat}
    (h : Sends (toByteArray (connectRequest (String.ofList (platform.charset.decode name)) targetPort))
      ⟨.domain name hlength, portBytes, hport⟩) : Plain (.domain name hlength) := by
  obtain ⟨authority, more, rest, hsame, hauthority⟩ := authority_of_sends h
  obtain ⟨front, digits, rfl, hcolon, hhost⟩ := Http.authority_eq_name hauthority
  have hprefix : front <+: sentHost (String.ofList (platform.charset.decode name)) := by
    have htake := congrArg (List.takeWhile (· ≠ ':')) hsame
    rw [List.append_assoc, List.cons_append, takeWhile_ne hcolon] at htake
    rw [htake]
    by_cases hmem : ':' ∈ sentHost (String.ofList (platform.charset.decode name))
    · obtain ⟨before, after, hsplit, hbefore⟩ := List.eq_append_cons_of_mem hmem
      rw [hsplit, List.append_assoc, List.cons_append, takeWhile_ne hbefore]
      exact List.prefix_append _ _
    · rw [takeWhile_ne hmem]
  obtain ⟨hname, hfour⟩ : Http.regName front = some name ∧ IpLiteral.ipv4 front = none := by
    unfold Http.host at hhost
    split at hhost
    · cases hhost
    · next hnone =>
        split at hhost
        · cases hhost
        · obtain ⟨bytes, hbytes, hsame⟩ := Option.map_eq_some_iff.mp hhost
          rw [hbytes, Http.Host.name.inj hsame]
          exact ⟨rfl, hnone⟩
  obtain ⟨hcount, hascii⟩ := Http.length_regName hname
  have hescape : '%' ∉ front := by
    have hall : front.countP (fun c => c.toNat < 128) = front.length :=
      List.countP_eq_length.mpr fun c hc => by simpa using hascii c hc
    have hle := hprefix.sublist.countP_le (p := fun c => c.toNat < 128)
    have hbytes := List.countP_le_length (p := fun b => decide (IsAscii b)) (l := name)
    rw [hall, countP_sentHost] at hle
    exact List.count_eq_zero.mp (by omega)
  have hnames := Http.names_of_regName hescape hname
  have hchars : name.map asciiChar = front := by
    rw [Http.regName_of_names hnames] at hname
    rw [← Option.some.inj hname, List.map_map]
    exact (List.map_congr_left fun c hc => asciiChar_byteOf (hascii c hc)).trans (List.map_id front)
  refine ⟨fun b hb => hnames _ ?_, hchars ▸ hfour⟩
  rw [← hchars]
  exact List.mem_map_of_mem hb

theorem not_sends_ipv6 {bytes : Bytes} {hlength : bytes.length = 16} {portBytes : Bytes} {hport : portBytes.length = 2}
    {targetPort : Nat} :
    ¬Sends (toByteArray (connectRequest (platform.hostAddress bytes) targetPort))
      ⟨.ipv6 bytes hlength, portBytes, hport⟩ := by
  intro h
  obtain ⟨authority, more, rest, hsame, hauthority⟩ := authority_of_sends h
  obtain ⟨tail, rfl⟩ := List.head?_eq_some_iff.mp (Http.authority_eq_ipv6 hauthority)
  have hchars := platform.hostAddress_sixteen bytes hlength
  have hascii : ∀ c ∈ (platform.hostAddress bytes).toList, c.toNat < 128 := by
    intro c hc
    have hrange := (hchars c hc).range
    omega
  -- No bracket is put in front of the address.
  rw [sentHost, map_asciiChar_toByteArray hascii] at hsame
  cases htext : (platform.hostAddress bytes).toList with
  | nil =>
      rw [htext] at hsame
      exact absurd (List.cons.inj hsame).1 (by decide)
  | cons c text =>
      rw [htext] at hsame hchars
      obtain rfl := (List.cons.inj hsame).1
      exact absurd (hchars '[' List.mem_cons_self) (by unfold IpLiteral.IsAddressChar; decide)

theorem sends_of_plain {target : Target} (hnamed : target.address.named = true) (h : Plain target.address) :
    Sends (toByteArray (connectRequest (hostText platform target.address) (beNat target.portBytes))) target := by
  obtain ⟨address, portBytes, hport⟩ := target
  cases address with
  | ipv4 bytes hlength =>
      have htext : (hostText platform (.ipv4 bytes hlength)).toList = IpLiteral.dotted bytes := by
        rw [hostText, platform.hostAddress_four bytes hlength, String.toList_ofList]
      have hfour : IpLiteral.ipv4 (IpLiteral.dotted bytes) = some bytes :=
        IpLiteral.ipv4_eq_some_iff.mpr ⟨hlength, rfl⟩
      refine sends_of_host ?_ ?_ ?_
      · rw [htext]
        intro hnil
        rw [hnil] at hfour
        cases hfour
      · rw [htext]
        intro c hc
        obtain rfl | hdigit := IpLiteral.mem_dotted hc
        · decide
        · exact Http.isNameChar_of_isDigit hdigit
      · rw [htext, Http.host, hfour]
        rfl
  | domain name hlength =>
      have hascii : ∀ b ∈ name, IsAscii b := by
        intro b hb
        have hrange := Http.isNameChar_range (h.1 b hb)
        rw [toNat_asciiChar] at hrange
        unfold IsAscii
        omega
      have htext : (hostText platform (.domain name hlength)).toList = name.map asciiChar := by
        rw [hostText, String.toList_ofList, platform.charset.decode_of_ascii hascii]
      have hnames : ∀ c ∈ name.map asciiChar, Http.isNameChar c = true := List.forall_mem_map.mpr h.1
      have hne : name ≠ [] := by simpa [Address.named] using hnamed
      refine sends_of_host ?_ ?_ ?_
      · rw [htext]
        simpa using hne
      · rw [htext]
        exact hnames
      · have hbytes : (name.map asciiChar).map Http.byteOf = name := by
          rw [List.map_map]
          exact (List.map_congr_left fun b _ => byteOf_asciiChar b).trans (List.map_id name)
        have hchars : name.map asciiChar ≠ [] := by simpa using hne
        simp only [htext, Http.host, h.2, Http.regName_of_names hnames, hbytes, hchars, if_false]
        rfl
  | ipv6 bytes hlength => exact h.elim

theorem readHost_named {address : Address} (hnamed : address.named = true) {input : Input} {more : Bytes}
    (hinput : input.bytes = address.bytes ++ more) :
    ∃ rest, readHost platform address.atyp input = .host (hostText platform address) rest ∧ rest.bytes = more := by
  cases address with
  | ipv4 bytes hlength =>
      obtain ⟨rest, hread, hrest⟩ := Input.fill_append (show input.bytes = bytes ++ more from hinput)
      rw [hlength] at hread
      exact ⟨rest, by simp [readHost, readFully, Address.atyp, hread, hostText], hrest⟩
  | domain name hlength =>
      obtain ⟨afterLength, hbyte, hafter⟩ := Input.readByte_cons hinput
      obtain ⟨rest, hread, hrest⟩ := Input.fill_append hafter
      have hlen : (toByte name.length).toNat = name.length := by
        rw [toNat_toByte_nat]
        omega
      have hname : name ≠ [] := by simpa [Address.named] using hnamed
      rw [hlen] at hbyte
      exact ⟨rest, by simp [readHost, readFully, Address.atyp, hbyte, hread, hname, hostText], hrest⟩
  | ipv6 bytes hlength =>
      obtain ⟨rest, hread, hrest⟩ := Input.fill_append (show input.bytes = bytes ++ more from hinput)
      rw [hlength] at hread
      exact ⟨rest, by simp [readHost, readFully, Address.atyp, hread, hostText], hrest⟩

variable {input : Input} {methods following : Bytes} {target : Target}

-- The number of the methods is read with a sign.
theorem toProxy_of_many (answer : Bytes) (hmany : 128 ≤ methods.length) (hmethods : methods.length < 256)
    (hinput : input.bytes = greeting methods ++ following) :
    (handleConnection platform (some answer) input).toProxy = [] := by
  have hheader : input.bytes = [5, toByte methods.length] ++ (methods ++ following) := hinput
  obtain ⟨rest, hread, _⟩ := Input.fill_append hheader
  have hsign : (toByte methods.length).toInt8.toInt < 0 := by
    rw [toInt8_toByte _ hmethods, if_neg (by omega)]
    omega
  simp only [List.length_cons, List.length_nil] at hread
  simp only [handleConnection, readFully, hread, List.getD_cons_zero, List.getD_cons_succ, ne_eq, not_true_eq_false,
    if_false, hsign, if_true]

theorem toProxy_of_few (answer : Bytes) (hfew : methods.length < 128)
    (hinput : input.bytes = greeting methods ++ (connect target ++ following)) (hnamed : target.address.named = true) :
    (handleConnection platform (some answer) input).toProxy =
      toByteArray (connectRequest (hostText platform target.address) (beNat target.portBytes)) := by
  obtain ⟨address, portBytes, hport⟩ := target
  have hheader : input.bytes = [5, toByte methods.length] ++
      (methods ++ ([5, 1, 0, address.atyp] ++ (address.bytes ++ (portBytes ++ following)))) := by
    rw [hinput]
    simp [greeting, connect, Target.encode]
  obtain ⟨afterHeader, hread, hafterHeader⟩ := Input.fill_append hheader
  obtain ⟨afterMethods, hmethods, hafterMethods⟩ := Input.fill_append hafterHeader
  obtain ⟨afterReq, hreq, hafterReq⟩ := Input.fill_append hafterMethods
  obtain ⟨afterHost, hhost, hafterHost⟩ := @readHost_named platform _ hnamed _ _ hafterReq
  obtain ⟨rest, hportBytes, _⟩ := Input.fill_append hafterHost
  rw [hport] at hportBytes
  have hcount : (toByte methods.length).toInt8.toInt = methods.length := by
    rw [toInt8_toByte _ (by omega), if_pos hfew]
  have hnonneg : ¬(methods.length : Int) < 0 := by omega
  simp only [List.length_cons, List.length_nil] at hread hreq
  simp only [handleConnection, readFully, hread, List.getD_cons_zero, List.getD_cons_succ, ne_eq, not_true_eq_false,
    if_false, hcount, hnonneg, Int.toNat_natCast, hmethods, hreq, or_self, hhost, hportBytes]
  -- The request has been written before the answer is read.
  split
  · rfl
  · split
    · rfl
    · rfl

-- Of the clients of SOCKS5 those have the proxy asked for just what they ask for that offer fewer than
-- 128 methods and ask for an IPv4 address, or for a domain without escapes that is no such address.
theorem handleConnection_sends_iff (platform : Platform) (answer : Bytes) {input : Input} {methods following : Bytes}
    {target : Target} (hmethods : methods.length < 256)
    (hinput : input.bytes = greeting methods ++ (connect target ++ following)) (hnamed : target.address.named = true) :
    Sends (handleConnection platform (some answer) input).toProxy target ↔
      methods.length < 128 ∧ Plain target.address := by
  by_cases hfew : methods.length < 128
  · rw [toProxy_of_few answer hfew hinput hnamed, and_iff_right hfew]
    refine ⟨fun hsends => ?_, sends_of_plain hnamed⟩
    obtain ⟨address, portBytes, hport⟩ := target
    cases address with
    | ipv4 => exact trivial
    | domain => exact plain_of_sends hsends
    | ipv6 => exact not_sends_ipv6 hsends
  · rw [toProxy_of_many answer (Nat.le_of_not_lt hfew) hmethods hinput]
    refine iff_of_false ?_ fun h => hfew h.1
    rintro ⟨_, hparse, _⟩
    cases hparse

def utf8Platform : Platform where
  charset := utf8
  hostAddress bytes := String.ofList (IpLiteral.dotted bytes)
  hostAddress_four _ _ := rfl
  hostAddress_sixteen bytes _ c hc := by
    rw [String.toList_ofList] at hc
    obtain hdot | hdigit := IpLiteral.mem_dotted hc
    · exact .inr (.inl hdot)
    · exact .inr (.inr (by rw [digitVal_of_isDigit hdigit]; rfl))

def domainTarget (name : Bytes) (h : name.length < 256) : Target := ⟨.domain name h, [1, 187], length_https⟩

-- A client that offers one method and asks for port 443 of a domain.
def askingFor (name : Bytes) (h : name.length < 256) : Input := ⟨[greeting [0] ++ connect (domainTarget name h)]⟩

theorem askingFor_bytes (name : Bytes) (h : name.length < 256) :
    (askingFor name h).bytes = greeting [0] ++ (connect (domainTarget name h) ++ []) := by
  simp [askingFor, Input.bytes]

-- a.ru
theorem handleConnection_sends_domain :
    Sends (handleConnection utf8Platform (some []) (askingFor [97, 46, 114, 117] (by decide))).toProxy
      (domainTarget [97, 46, 114, 117] (by decide)) :=
  (handleConnection_sends_iff utf8Platform [] (by decide) (askingFor_bytes _ _) rfl).mpr
    ⟨by decide, forall_mem_of_all (by decide), by decide⟩

-- The bytes of a CRLF X: b add a line.
theorem not_handleConnection_sends :
    ¬∀ (platform : Platform) (answer : Bytes) (input : Input) (methods following : Bytes) (target : Target),
      0 < methods.length → methods.length < 256 →
        input.bytes = greeting methods ++ (connect target ++ following) → target.address.named = true →
          Sends (handleConnection platform (some answer) input).toProxy target := by
  intro h
  have hsends := h utf8Platform [] (askingFor [97, 13, 10, 88, 58, 32, 98] (by decide)) [0] []
    (domainTarget [97, 13, 10, 88, 58, 32, 98] (by decide)) (by decide) (by decide) (askingFor_bytes _ _) rfl
  rw [toProxy_of_few [] (by decide) (askingFor_bytes _ _) rfl] at hsends
  exact absurd ((plain_of_sends hsends).1 13 (by decide)) (by decide)

end ToInet.Operaproxy.SocksToHttpProxy
