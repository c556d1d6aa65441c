import ToInet.FakeVpn.DirectSocks5Connection
import ToInet.Lib.Charset
import ToInet.Rehabilitator.Socks5Connection.Reading

-- A connection of the fake VPN: the host that it connects to, and what it sends there.
namespace ToInet.FakeVpn

open ToInet.Lib ToInet.Lib.Socks5

-- The text of an IP address, the decoding of a name, and the white space of a text.
structure Texts where
  hostAddress : Bytes → String
  hostAddress_inj : ∀ a b, a.length = b.length → hostAddress a = hostAddress b → a = b
  charset : Charset
  isWhitespace : Char → Bool

def Texts.host (texts : Texts) : Address → String
  | .ipv4 bytes _ => texts.hostAddress bytes
  | .domain name _ => String.ofList (texts.charset.decode name)
  | .ipv6 bytes _ => texts.hostAddress bytes

structure FakeTlsPrefs where
  fakeVpnFakeTlsEnabled : Bool
  fakeVpnFakeTlsDomains : String

variable (texts : Texts) (prefs : FakeTlsPrefs)

def fakeTlsDomains : List String :=
  ((prefs.fakeVpnFakeTlsDomains.toList.splitOnP fun c => c = ' ' ∨ c = '\n' ∨ c = '\r').filter fun piece =>
    !piece.all texts.isWhitespace).map String.ofList

-- The domain that SecureRandom.nextInt chooses.
def randomDomain (nextInt : Nat) : String :=
  let fakeDomains := fakeTlsDomains texts prefs
  fakeDomains.getD (nextInt % fakeDomains.length) ""

def fakeTlsApplies (port : Nat) : Bool :=
  prefs.fakeVpnFakeTlsEnabled && port = 443 && !(fakeTlsDomains texts prefs).isEmpty

def pipe (input : Input) : List Bytes := input.chunks 8192

def firstReads (input : Input) : Reads 16384 := input.reads (by decide)

-- The bytes that the first coroutine sends to the remote side.
def relayed (nextInt port : Nat) (client : Input) : Bytes :=
  if fakeTlsApplies texts prefs port then sentUpstream (randomDomain texts prefs nextInt) (firstReads client)
  else (pipe client).flatten

-- What the client is told, and what is connected to with what is sent there.
structure Handled where
  told : Bytes
  remote : Option (String × Nat × Bytes)

-- Up to the connection the code is that of the rehabilitator, but that the address is kept as text.
def readRequest (client : Input) : Bytes × Option (Target × Input) := Rehabilitator.readRequest client

def handle (connects : String → Nat → Bool) (nextInt : Nat) (client : Input) : Handled :=
  match readRequest client with
  | (told, none) => { told, remote := none }
  | (told, some (target, client)) =>
      let hostStr := texts.host target.address
      let port := beNat target.portBytes
      if connects hostStr port then
        { told := told ++ Rehabilitator.replyBytes 0
          remote := some (hostStr, port, relayed texts prefs nextInt port client) }
      else { told := told ++ Rehabilitator.replyBytes 5, remote := none }

-- The spoofer leaves the first read as it is: it sees no host name, or the fake one.
def Unspoofed (nextInt port : Nat) (client : Input) : Prop :=
  fakeTlsApplies texts prefs port = true →
    hostNameOf (firstReads client).first = none ∨
      hostNameOf (firstReads client).first = some (toByteArray (randomDomain texts prefs nextInt))

variable {texts prefs} {nextInt port : Nat} {client : Input}

theorem relayed_eq_iff : relayed texts prefs nextInt port client = client.bytes ↔
    Unspoofed texts prefs nextInt port client := by
  unfold relayed Unspoofed
  by_cases happlies : fakeTlsApplies texts prefs port = true
  · have hbytes : (firstReads client).first ++ (firstReads client).rest = client.bytes := by
      rw [Reads.first_append_rest]
      exact Input.reads_bytes _ client
    rw [if_pos happlies, sentUpstream_eq, ← hbytes, List.append_left_inj]
    simp only [happlies, forall_const]
    cases hname : hostNameOf (firstReads client).first with
    | none => simp [spoofSni_eq_none (randomDomain texts prefs nextInt) hname]
    | some name =>
        obtain ⟨out, hspoof, hsame⟩ := spoofSni_eq_some (randomDomain texts prefs nextInt) hname
        have hself := hspoof []
        rw [List.append_nil, List.append_nil] at hself
        rw [hself, Option.getD_some, hsame]
        simp
  · rw [if_neg happlies]
    exact iff_of_true (Input.chunks_flatten (by decide) client) fun h => absurd h happlies

-- Zeros in the place of other bytes are seen in the text of a host.
theorem head_of_zeroed {asked address : Address} {tail : Bytes} (h : Rehabilitator.Zeroed asked address tail)
    (hhost : texts.host asked = texts.host address) : tail.head? = some 0 := by
  obtain ⟨chunk, hasked, haddress⟩ := h.content
  obtain ⟨b, tail, rfl⟩ := List.exists_cons_of_ne_nil h.tail_ne
  have hzeros (hsame : chunk ++ List.replicate (b :: tail).length 0 = chunk ++ b :: tail) : b = 0 := by
    have htail := List.append_cancel_left hsame
    rw [List.length_cons, List.replicate_succ] at htail
    exact (List.cons.inj htail).1.symm
  have hip (bytes others : Bytes) (hbytes : bytes = chunk ++ List.replicate (b :: tail).length 0)
      (hothers : others = chunk ++ b :: tail) (hsame : texts.hostAddress bytes = texts.hostAddress others) : b = 0 := by
    subst hbytes hothers
    exact hzeros (texts.hostAddress_inj _ _ (by simp) hsame)
  rw [List.head?_cons, Option.some.injEq]
  have htype := h.atyp
  cases asked with
  | ipv4 bytes hlength =>
      cases address with
      | ipv4 others hothers => exact hip bytes others hasked haddress hhost
      | domain => cases htype
      | ipv6 => cases htype
  | domain name hlength =>
      cases address with
      | ipv4 => cases htype
      | domain other hother =>
          -- Each zero byte is a character of its own.
          have hcount := congrArg (List.count (asciiChar 0)) (String.ofList_injective hhost)
          have hzero : IsAscii 0 := by decide
          rw [texts.charset.count_decode hzero, texts.charset.count_decode hzero] at hcount
          change name = _ at hasked
          change other = _ at haddress
          rw [hasked, haddress, List.count_append, List.count_append, List.count_replicate_self] at hcount
          have hall : List.count 0 (b :: tail) = (b :: tail).length := by omega
          exact (List.count_eq_length.mp hall b List.mem_cons_self).symm
      | ipv6 => cases htype
  | ipv6 bytes hlength =>
      cases address with
      | ipv4 => cases htype
      | domain => cases htype
      | ipv6 others hothers => exact hip bytes others hasked haddress hhost

-- A request that has been cut is never taken for one for the same host and the port of TLS.
theorem port_of_misread {asked target : Target} (h : Rehabilitator.Misread asked target)
    (hhost : texts.host asked.address = texts.host target.address) : beNat asked.portBytes ≠ 443 := by
  obtain ⟨address, portBytes, hport⟩ := asked
  obtain ⟨high, low, rfl⟩ : ∃ high low, portBytes = [high, low] := by
    match portBytes, hport with
    | [high, low], _ => exact ⟨high, low, rfl⟩
  have hvalue : beNat [high, low] = high.toNat * 256 + low.toNat := by simp [beNat]
  have hlow := low.toNat_lt
  rw [hvalue]
  obtain ⟨tail, hzeroed, hhead⟩ | hlast := h
  · rw [head_of_zeroed hzeroed hhost, List.head?_cons] at hhead
    obtain rfl := Option.some.inj hhead
    simp only [UInt8.toNat_zero, Nat.zero_mul, Nat.zero_add]
    omega
  · obtain rfl : low = 0 := by simpa using hlast
    simp only [UInt8.toNat_zero, Nat.add_zero]
    omega

-- A client that says what it is to say is connected to its target, and its payload goes there as it
-- is, exactly if its methods are fewer than 128, each field comes in one read, and no host name is
-- replaced.
theorem handle_relays_iff (texts : Texts) (prefs : FakeTlsPrefs) (connects : String → Nat → Bool) (nextInt : Nat)
    {client : Input} {methods payload : Bytes} {target : Target} (hmethods : methods.length < 256)
    (hclient : client.bytes = greeting methods ++ (connect target ++ payload))
    (hconnects : connects (texts.host target.address) (beNat target.portBytes) = true) :
    (handle texts prefs connects nextInt client).remote =
        some (texts.host target.address, beNat target.portBytes, payload) ↔
      methods.length < 128 ∧ ∃ rest, client.readWhole (Rehabilitator.requestSizes methods target) = some rest ∧
        Unspoofed texts prefs nextInt (beNat target.portBytes) rest := by
  by_cases hsmall : methods.length < 128
  · obtain ⟨rest, hwhole, hrest, hread⟩ | ⟨hnone, hcut⟩ := Rehabilitator.readRequest_sent hsmall hclient
    · rw [handle, readRequest, hread]
      simp only [if_pos hconnects, Option.some.injEq, Prod.mk.injEq, true_and]
      rw [← hrest, relayed_eq_iff, hwhole]
      simp [hsmall]
    · refine iff_of_false (fun hremote => ?_) (by simp [hnone])
      cases hread : Rehabilitator.readRequest client with
      | mk told request =>
          cases request with
          | none => simp [handle, readRequest, hread] at hremote
          | some request =>
              obtain ⟨asked, rest⟩ := request
              obtain ⟨hlength, hmisread⟩ := hcut told asked rest hread
              simp only [handle, readRequest, hread] at hremote
              split at hremote
              · obtain ⟨hhost, hport, hrelayed⟩ : _ ∧ _ ∧ _ := by simpa using hremote
                have hplain : ¬fakeTlsApplies texts prefs (beNat asked.portBytes) = true := by
                  simp [fakeTlsApplies, port_of_misread hmisread hhost]
                -- Without a replacement what is left of the request is relayed too.
                rw [relayed, if_neg hplain] at hrelayed
                have hbytes : (pipe rest).flatten = rest.bytes := Input.chunks_flatten (by decide) rest
                rw [← hrelayed, hbytes] at hlength
                exact Nat.lt_irrefl _ hlength
              · cases hremote
  · refine iff_of_false ?_ fun h => hsmall h.1
    have hread : readRequest client = ([], none) :=
      Rehabilitator.readRequest_negative (Nat.le_of_not_lt hsmall) hmethods hclient
    rw [handle, hread]
    exact nofun

-- 93.184.216.34 and port 443, and the texts as they are for it.
def sampleTarget : Target := ⟨.ipv4 [93, 184, 216, 34] rfl, [1, 187], length_https⟩

def sampleTexts : Texts where
  hostAddress bytes := if bytes = [93, 184, 216, 34] then "93.184.216.34" else String.ofList (bytes.map asciiChar)
  hostAddress_inj a b hlength h := by
    have hlist := congrArg (fun text => text.toList) h
    split at h <;> split at h <;> rename_i ha hb
    · rw [ha, hb]
    · have hl := congrArg List.length hlist
      simp [ha, hb, ← hlength] at hl
    · have hl := congrArg List.length hlist
      simp [ha, hb, hlength] at hl
    · simp only [if_neg ha, if_neg hb, String.toList_ofList] at hlist
      exact (List.map_inj_right fun _ _ => asciiChar_inj).mp hlist
  charset := utf8
  isWhitespace c := c = ' '

def fakeTlsOff : FakeTlsPrefs := { fakeVpnFakeTlsEnabled := false, fakeVpnFakeTlsDomains := "" }

def wholeRequest : Input := ⟨[[5, 1], [0], [5, 1, 0, 1], [93, 184, 216, 34], [1, 187], [22]]⟩

-- The address comes in two reads.
def cutRequest : Input := ⟨[[5, 1], [0], [5, 1, 0, 1], [93, 184], [216, 34, 1, 187], [22]]⟩

theorem handle_relays_sample :
    (handle sampleTexts fakeTlsOff (fun _ _ => true) 0 wholeRequest).remote =
        some (sampleTexts.host sampleTarget.address, beNat sampleTarget.portBytes, [22]) ↔
      ([0] : Bytes).length < 128 ∧ ∃ rest,
        wholeRequest.readWhole (Rehabilitator.requestSizes [0] sampleTarget) = some rest ∧
          Unspoofed sampleTexts fakeTlsOff 0 (beNat sampleTarget.portBytes) rest :=
  handle_relays_iff sampleTexts fakeTlsOff (fun _ _ => true) 0 (by decide) rfl rfl

-- The end of the address is taken for the port, and the port for the beginning of the payload.
theorem not_relayed_cutRequest :
    ¬∀ (texts : Texts) (prefs : FakeTlsPrefs) (connects : String → Nat → Bool) (nextInt : Nat) (client : Input)
      (methods payload : Bytes) (target : Target), 0 < methods.length → methods.length < 256 →
      client.bytes = greeting methods ++ (connect target ++ payload) →
      connects (texts.host target.address) (beNat target.portBytes) = true →
      (handle texts prefs connects nextInt client).remote =
        some (texts.host target.address, beNat target.portBytes, payload) := by
  intro h
  have hremote := h sampleTexts fakeTlsOff (fun _ _ => true) 0 cutRequest [0] [22] sampleTarget (by decide) (by decide)
    rfl rfl
  have hport : (handle sampleTexts fakeTlsOff (fun _ _ => true) 0 cutRequest).remote.map (fun remote => remote.2) =
      some (55330, [1, 187, 22]) := by decide
  rw [hremote] at hport
  exact absurd hport (by decide)

end ToInet.FakeVpn
