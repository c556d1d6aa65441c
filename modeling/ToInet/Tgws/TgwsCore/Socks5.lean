import ToInet.Lib.Socks5
import ToInet.Tgws.TgwsCore.FakeTls

-- What a client that begins with 0x05 has to send to be bridged.
namespace ToInet.Tgws.TgwsCore

open ToInet.Lib ToInet.Lib.Socks5

def hostText (platform : Platform) : Address → String
  | .ipv4 bytes _ => platform.hostAddress bytes
  | .domain name _ => platform.string name
  | .ipv6 bytes _ => platform.hostAddress bytes

-- A greeting of 1 to 255 methods and a request for the target, and what comes behind them.
structure Opening (version reserved : UInt8) (bytes : Bytes) (target : Socks5.Target) (following : Bytes) : Prop where
  methods : ∃ methods : Bytes, 0 < methods.length ∧ methods.length < 256 ∧
    bytes = greeting methods ++ (request version reserved target ++ following)
  named : target.address.named = true

variable (platform : Platform) (core : TgwsCore)

def delivered (target : Socks5.Target) (following : Bytes) : Delivery :=
  { dcId := (core.dcMappings.entries.find? fun entry => entry.2 = hostText platform target.address).map Prod.fst
    isMedia := false, targetIp := hostText platform target.address, targetPort := beNat target.portBytes
    initialPayload := none, following }

-- The connection comes to connectAndBridge for a host and a port, with these bytes still unread.
def Reaches (input : Input) (targetIp : String) (targetPort : Nat) (following : Bytes) : Prop :=
  ∃ delivery, (core.handleClient platform input).2 = some delivery ∧ delivery.targetIp = targetIp ∧
    delivery.targetPort = targetPort ∧ delivery.following = following

-- It does exactly for a request that the stream carries, however the stream is cut.
def ReachesAsAsked (input : Input) : Prop :=
  (∀ targetIp targetPort following, Reaches platform core input targetIp targetPort following ↔
    ∃ target, Opening 5 0 input.bytes target following ∧ targetIp = hostText platform target.address ∧
      targetPort = beNat target.portBytes) ∧
  ∀ other : Input, other.bytes = input.bytes → core.handleClient platform other = core.handleClient platform input

-- A request that is complete but for its version and its reserved byte has these right as well.
def WellVersioned (bytes : Bytes) : Prop :=
  ∀ version reserved target following, Opening version reserved bytes target following → version = 5 ∧ reserved = 0

variable {platform core}

theorem opening_unique {version other reserved byte : UInt8} {bytes : Bytes} {target others : Socks5.Target}
    {following more : Bytes} (h : Opening version reserved bytes target following)
    (hother : Opening other byte bytes others more) :
    version = other ∧ reserved = byte ∧ target = others ∧ following = more := by
  obtain ⟨methods, _, hmethods, hbytes⟩ := h.methods
  obtain ⟨otherMethods, _, hother, hsame⟩ := hother.methods
  rw [hbytes] at hsame
  exact request_append_inj (greeting_append_inj hmethods hother hsame).2

variable (platform) in
theorem readAddress_named {address : Address} (hnamed : address.named = true) {input : Input} {more : Bytes}
    (hinput : input.bytes = address.bytes ++ more) :
    ∃ rest, readAddress platform address.atyp input = .address (hostText platform address) rest ∧
      rest.bytes = more := by
  cases address with
  | ipv4 bytes hlength =>
      obtain ⟨rest, hread, hrest⟩ := readFully_append (show input.bytes = bytes ++ more from hinput)
      rw [hlength] at hread
      exact ⟨rest, by simp [readAddress, Address.atyp, hread, hostText], hrest⟩
  | domain name hlength =>
      obtain ⟨afterLength, hbyte, hafter⟩ := Input.readByte_cons hinput
      obtain ⟨rest, hread, hrest⟩ := readFully_append hafter
      have hlen : (toByte name.length).toNat = name.length := by
        rw [toNat_toByte_nat]
        omega
      have hname : name ≠ [] := by simpa [Address.named] using hnamed
      rw [hlen] at hbyte
      exact ⟨rest, by simp [readAddress, Address.atyp, hbyte, hread, hname, hostText], hrest⟩
  | ipv6 bytes hlength =>
      obtain ⟨rest, hread, hrest⟩ := readFully_append (show input.bytes = bytes ++ more from hinput)
      rw [hlength] at hread
      exact ⟨rest, by simp [readAddress, Address.atyp, hread, hostText], hrest⟩

theorem readAddress_eq {atyp : UInt8} {input rest : Input} {targetIp : String}
    (h : readAddress platform atyp input = .address targetIp rest) :
    ∃ address : Address, address.named = true ∧ atyp = address.atyp ∧ targetIp = hostText platform address ∧
      input.bytes = address.bytes ++ rest.bytes := by
  -- What a read of a field gives, with its text.
  have hfield {size : Nat} {text : Bytes → String} {start : Input}
      (hread : ((readFully start size).map fun read => Target.address (text read.1) read.2).getD .closed =
        .address targetIp rest) :
      ∃ field, field.length = size ∧ targetIp = text field ∧ start.bytes = field ++ rest.bytes := by
    cases hfully : readFully start size with
    | none =>
        rw [hfully] at hread
        cases hread
    | some result =>
        obtain ⟨field, last⟩ := result
        rw [hfully] at hread
        obtain ⟨rfl, rfl⟩ := Target.address.inj hread
        obtain ⟨hlength, hbytes⟩ := readFully_eq_some hfully
        exact ⟨field, hlength, rfl, hbytes⟩
  unfold readAddress at h
  split at h
  · rename_i htype
    obtain ⟨field, hlength, htext, hbytes⟩ := hfield h
    exact ⟨.ipv4 field hlength, rfl, htype, htext, hbytes⟩
  · split at h
    · rename_i htype
      cases hbytes : input.bytes with
      | nil =>
          rw [Input.readByte_nil hbytes] at h
          cases h
      | cons len more =>
          obtain ⟨afterLength, hbyte, hafter⟩ := Input.readByte_cons hbytes
          simp only [hbyte] at h
          split at h
          · cases h
          · rename_i hlen
            obtain ⟨field, hlength, htext, hfollowing⟩ := hfield h
            have hname : field ≠ [] := fun hnil => hlen (by rw [← hlength, hnil]; rfl)
            refine ⟨.domain field (hlength ▸ len.toNat_lt), by simpa [Address.named] using hname, htype, htext, ?_⟩
            rw [← hafter, hfollowing, Address.bytes, hlength, toByte_toNat]
            rfl
    · split at h
      · rename_i htype
        obtain ⟨field, hlength, htext, hbytes⟩ := hfield h
        exact ⟨.ipv6 field hlength, rfl, htype, htext, hbytes⟩
      · cases h

-- Whoever sends an opening is connected, whatever its version and its reserved byte are.
theorem handleClient_opening {version reserved : UInt8} {input : Input} {target : Socks5.Target} {following : Bytes}
    (h : Opening version reserved input.bytes target following) :
    core.handleClient platform input = ([5, 0] ++ reply 0, some (core.delivered platform target following)) := by
  obtain ⟨methods, hpos, hmethods, hbytes⟩ := h.methods
  obtain ⟨address, portBytes, hport⟩ := target
  obtain ⟨afterFirst, hfirst, hafterFirst⟩ := Input.read_one hbytes
  obtain ⟨afterCount, hcount, hafterCount⟩ := Input.readByte_cons hafterFirst
  obtain ⟨afterMethods, hread, hafterMethods⟩ := readFully_append hafterCount
  have hlen : (toByte methods.length).toNat = methods.length := by
    rw [toNat_toByte_nat]
    omega
  have hrequest : afterMethods.bytes = [version, 1, reserved, address.atyp] ++
      (address.bytes ++ (portBytes ++ following)) := by
    rw [hafterMethods]
    simp [request, Target.encode]
  obtain ⟨afterHeader, hheader, hafterHeader⟩ := readFully_append hrequest
  obtain ⟨afterAddress, haddress, hafterAddress⟩ := readAddress_named platform h.named hafterHeader
  obtain ⟨rest, hportBytes, hrest⟩ := readFully_append hafterAddress
  rw [hport] at hportBytes
  have hne : methods.length ≠ 0 := by omega
  simp only [List.length_cons, List.length_nil] at hheader
  rw [hlen] at hcount
  simp only [handleClient, hfirst, handleSocks5, hcount, hread, hheader, List.getD_cons_zero, List.getD_cons_succ,
    Option.bind_eq_bind, Option.bind_some, if_neg hne, haddress, hportBytes, hrest, delivered]
  simp

theorem opening_of_delivery {input : Input} {tail : Bytes} {delivery : Delivery} (hfive : input.bytes = 5 :: tail)
    (h : (core.handleClient platform input).2 = some delivery) :
    ∃ version reserved target following, Opening version reserved input.bytes target following := by
  obtain ⟨afterFirst, hfirst, hafterFirst⟩ := Input.read_one hfive
  simp only [handleClient, hfirst, handleSocks5, List.getD_cons_zero, if_true] at h
  split at h
  · cases h
  rename_i _ methods afterMethods hmethods
  split at h
  · cases h
  rename_i _ req afterHeader hreq
  split at h
  · cases h
  rename_i hcommand
  split at h
  · cases h
  · cases h
  rename_i _ targetIp afterAddress haddress
  split at h
  · cases h
  rename_i _ portBytes rest hport
  obtain ⟨⟨count, afterCount⟩, hcount, hfully⟩ := Option.bind_eq_some_iff.mp hmethods
  split at hfully
  · cases hfully
  rename_i hpos
  cases htail : tail with
  | nil =>
      rw [htail] at hafterFirst
      rw [Input.readByte_nil hafterFirst] at hcount
      cases hcount
  | cons b more =>
      rw [htail] at hafterFirst
      obtain ⟨next, hbyte, hnext⟩ := Input.readByte_cons hafterFirst
      rw [hbyte] at hcount
      obtain ⟨rfl, rfl⟩ := Prod.mk.inj (Option.some.inj hcount)
      obtain ⟨hmethodsLength, hmethodsBytes⟩ := readFully_eq_some hfully
      obtain ⟨hreqLength, hreqBytes⟩ := readFully_eq_some hreq
      obtain ⟨address, hnamed, htype, _, haddressBytes⟩ := readAddress_eq haddress
      obtain ⟨hportLength, hportBytes⟩ := readFully_eq_some hport
      obtain ⟨version, command, reserved, atyp, rfl⟩ := List.length_eq_four.mp hreqLength
      simp only [List.getD_cons_zero, List.getD_cons_succ, ne_eq, not_not] at hcommand htype
      subst hcommand htype
      refine ⟨version, reserved, ⟨address, portBytes, hportLength⟩, rest.bytes, ⟨methods, by omega, ?_, ?_⟩, hnamed⟩
      · rw [hmethodsLength]
        exact b.toNat_lt
      · rw [hfive, htail, ← hnext, hmethodsBytes, hreqBytes, haddressBytes, hportBytes, greeting, hmethodsLength,
          toByte_toNat]
        simp [request, Target.encode]

variable (platform) in
theorem readAddress_congr (atyp : UInt8) {input other : Input} (h : input.bytes = other.bytes) :
    readAddress platform atyp input = readAddress platform atyp other ∨ ∃ targetIp rest last,
      readAddress platform atyp input = .address targetIp rest ∧
        readAddress platform atyp other = .address targetIp last ∧ rest.bytes = last.bytes := by
  have hfield (size : Nat) (text : Bytes → String) {start next : Input} (hsame : start.bytes = next.bytes) :
      let read (input : Input) : Target :=
        ((readFully input size).map fun read => Target.address (text read.1) read.2).getD .closed
      read start = read next ∨ ∃ targetIp rest last,
        read start = .address targetIp rest ∧ read next = .address targetIp last ∧ rest.bytes = last.bytes := by
    obtain ⟨hnone, hother⟩ | ⟨field, rest, last, hread, hlast, hbytes⟩ := readFully_congr size hsame
    · exact .inl (by simp only [hnone, hother])
    · exact .inr ⟨text field, rest, last, by simp only [hread, Option.map_some, Option.getD_some],
        by simp only [hlast, Option.map_some, Option.getD_some], hbytes⟩
  unfold readAddress
  split
  · exact hfield 4 platform.hostAddress h
  · split
    · obtain ⟨hnone, hother⟩ | ⟨len, next, after, hbyte, hafter, hsame⟩ := Input.readByte_congr h
      · exact .inl (by simp only [hnone, hother])
      · simp only [hbyte, hafter]
        split
        · exact .inl rfl
        · exact hfield len platform.string hsame
    · split
      · exact hfield 16 platform.hostAddress h
      · exact .inl rfl

-- What follows the count of the methods is read as the bytes have it, however they are cut.
theorem handleSocks5_congr {input other : Input} (h : input.bytes = other.bytes) :
    core.handleSocks5 platform input = core.handleSocks5 platform other := by
  unfold handleSocks5
  obtain ⟨hnone, hother⟩ | ⟨count, next, after, hcount, hafter, hsame⟩ := Input.readByte_congr h
  · simp only [hnone, hother]
  simp only [hcount, hafter, Option.bind_eq_bind, Option.bind_some]
  by_cases hzero : count = 0
  · simp only [if_pos hzero]
  simp only [if_neg hzero]
  obtain ⟨hnone, hother⟩ | ⟨methods, next, after, hmethods, hafter, hsame⟩ := readFully_congr count hsame
  · simp only [hnone, hother]
  simp only [hmethods, hafter]
  obtain ⟨hnone, hother⟩ | ⟨req, next, after, hreq, hafter, hsame⟩ := readFully_congr 4 hsame
  · simp only [hnone, hother]
  simp only [hreq, hafter]
  obtain heq | ⟨ip, next, after, haddress, hafter, hsame⟩ :=
    readAddress_congr platform (req.getD 3 0) hsame
  · simp only [heq]
  simp only [haddress, hafter]
  obtain ⟨hnone, hother⟩ | ⟨portBytes, next, after, hport, hafter, hsame⟩ := readFully_congr 2 hsame
  · simp only [hnone, hother]
  simp only [hport, hafter, hsame]

theorem handleClient_congr {input other : Input} {tail : Bytes} (hfive : input.bytes = 5 :: tail)
    (h : other.bytes = input.bytes) : core.handleClient platform other = core.handleClient platform input := by
  obtain ⟨rest, hfirst, hrest⟩ := Input.read_one hfive
  obtain ⟨last, hother, hlast⟩ := Input.read_one (h.trans hfive)
  simp only [handleClient, hfirst, hother, List.getD_cons_zero, if_true]
  exact handleSocks5_congr (hlast.trans hrest.symm)

theorem reaches_opening_iff {version reserved : UInt8} {input : Input} {target : Socks5.Target} {following : Bytes}
    (h : Opening version reserved input.bytes target following) {targetIp : String} {targetPort : Nat} {more : Bytes} :
    Reaches platform core input targetIp targetPort more ↔
      targetIp = hostText platform target.address ∧ targetPort = beNat target.portBytes ∧ more = following := by
  rw [Reaches, handleClient_opening h]
  constructor
  · rintro ⟨delivery, hdelivery, rfl, rfl, rfl⟩
    obtain rfl := Option.some.inj hdelivery
    exact ⟨rfl, rfl, rfl⟩
  · rintro ⟨rfl, rfl, rfl⟩
    exact ⟨_, rfl, rfl, rfl, rfl⟩

theorem wellVersioned_of_reachesAsAsked {input : Input} (h : ReachesAsAsked platform core input) :
    WellVersioned input.bytes := by
  intro version reserved target following hopening
  obtain ⟨asked, hasked, _⟩ := (h.1 _ _ _).mp ((reaches_opening_iff hopening).mpr ⟨rfl, rfl, rfl⟩)
  obtain ⟨hversion, hreserved, _⟩ := opening_unique hopening hasked
  exact ⟨hversion, hreserved⟩

-- The connection is bridged exactly as its client asks for, unless a request with another version
-- or with a reserved byte in use is complete otherwise.
theorem reachesAsAsked_iff (platform : Platform) (core : TgwsCore) {input : Input}
    (hfive : input.bytes.head? = some 5) :
    ReachesAsAsked platform core input ↔ WellVersioned input.bytes := by
  obtain ⟨tail, htail⟩ : ∃ tail, input.bytes = 5 :: tail := List.head?_eq_some_iff.mp hfive
  refine ⟨wellVersioned_of_reachesAsAsked, fun hversions => ⟨fun targetIp targetPort following => ?_, ?_⟩⟩
  · constructor
    · intro hreached
      have ⟨delivery, hdelivery, _⟩ := hreached
      obtain ⟨version, reserved, target, more, hopening⟩ := opening_of_delivery htail hdelivery
      obtain ⟨hip, hport, rfl⟩ := (reaches_opening_iff hopening).mp hreached
      obtain ⟨rfl, rfl⟩ := hversions _ _ _ _ hopening
      exact ⟨target, hopening, hip, hport⟩
    · rintro ⟨target, hopening, hip, hport⟩
      exact (reaches_opening_iff hopening).mpr ⟨hip, hport, rfl⟩
  · exact fun other => handleClient_congr htail

-- A client that asks for 192.0.2.1 and port 443, cut into three reads.
def askingInput (version : UInt8) : Input := ⟨[[5, 1, 0, version], [1, 0, 1, 192], [0, 2, 1, 1, 187, 22]]⟩

theorem reachesAsAsked_sample :
    ReachesAsAsked samplePlatform sampleCore (askingInput 5) ↔ WellVersioned (askingInput 5).bytes :=
  reachesAsAsked_iff samplePlatform sampleCore rfl

-- A request of SOCKS4 in the place of the second message is taken for one of SOCKS5.
theorem not_reachesAsAsked :
    ¬∀ (platform : Platform) (core : TgwsCore) (input : Input), input.bytes.head? = some 5 →
      ReachesAsAsked platform core input := by
  intro h
  have hversions := wellVersioned_of_reachesAsAsked (h samplePlatform sampleCore (askingInput 4) rfl)
  have hopening : Opening 4 0 (askingInput 4).bytes ⟨.ipv4 [192, 0, 2, 1] rfl, [1, 187], rfl⟩ [22] :=
    ⟨⟨[0], by decide, by decide, rfl⟩, rfl⟩
  exact absurd (hversions _ _ _ _ hopening).1 (by decide)

end ToInet.Tgws.TgwsCore
