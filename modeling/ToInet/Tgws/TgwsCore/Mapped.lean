import ToInet.Lib.IpLiteral
import ToInet.Tgws.TgwsCore.Relay
import ToInet.Tgws.TgwsCore.Socks5

-- Which WebSocket hosts a SOCKS5 client gets that asks for an address of the mapping.
namespace ToInet.Tgws.TgwsCore

open ToInet.Lib ToInet.Lib.Socks5

-- The address that a text of the mapping stands for.
def Denotes (text : String) : Address → Prop
  | .ipv4 bytes _ => IpLiteral.ipv4 text.toList = some bytes
  | .domain .. => False
  | .ipv6 bytes _ => IpLiteral.ipv6 text.toList = some bytes

-- InetAddress.getHostAddress() for four bytes.
def DottedHosts (platform : Platform) : Prop :=
  ∀ bytes, bytes.length = 4 → platform.hostAddress bytes = String.ofList (IpLiteral.dotted bytes)

def hosts (core : TgwsCore) (dcId : Int) : List String :=
  let name := "kws" ++ toString dcId
  core.cfWorkerDomains.map (fun domain => name ++ "." ++ domain) ++
    core.cfProxyDomains.map (fun domain => name ++ "." ++ domain) ++ [name ++ ".web.telegram.org"]

-- The connection comes to connectAndBridge, which tries the hosts of the data center.
def BridgedTo (platform : Platform) (core : TgwsCore) (input : Input) (dcId : Int) : Prop :=
  ∃ delivery, (core.handleClient platform input).2 = some delivery ∧
    core.domains delivery.dcId delivery.isMedia = core.hosts dcId

variable {platform : Platform} {core : TgwsCore} {dcId : Int} {text : String}

theorem hosts_inj {other : Int} (h : core.hosts dcId = core.hosts other) : dcId = other := by
  have hlast := congrArg List.getLast? h
  simp only [hosts, List.getLast?_concat, Option.some_inj] at hlast
  have hchars := congrArg String.toList hlast
  simp only [String.toList_append] at hchars
  exact toString_inj.mp (String.toList_inj.mp (List.append_cancel_left (List.append_cancel_right hchars)))

theorem domains_eq_hosts_iff {found : Option Int} :
    core.domains found false = core.hosts dcId ↔ core.disableWebSockets = false ∧ found = some dcId := by
  have hne : core.hosts dcId ≠ [] := List.append_ne_nil_of_right_ne_nil _ (List.cons_ne_nil _ _)
  cases found with
  | none => exact iff_of_false (fun h => hne h.symm) (fun h => nomatch h.2)
  | some found =>
      cases hdisable : core.disableWebSockets with
      | true =>
          simp only [domains, hdisable, if_true]
          exact iff_of_false (fun h => hne h.symm) (fun h => nomatch h.1)
      | false =>
          have hdomains : core.domains (some found) false = core.hosts found := by
            simp only [domains, hdisable, hosts, Bool.false_eq_true, if_false]
          rw [hdomains, and_iff_right rfl, Option.some_inj]
          exact ⟨hosts_inj, fun h => h ▸ rfl⟩

-- The first entry with the address is the one of the data center.
theorem find_eq_iff (hentry : (dcId, text) ∈ core.dcMappings.entries) {host : String} :
    (core.dcMappings.entries.find? fun entry => entry.2 = host).map Prod.fst = some dcId ↔
      text = host ∧ ∀ entry ∈ core.dcMappings.entries.takeWhile (fun entry => entry.1 ≠ dcId), entry.2 ≠ text := by
  obtain ⟨before, after, hsplit⟩ := List.append_of_mem hentry
  have hnodup := core.dcMappings.nodup
  rw [hsplit, List.map_append, List.map_cons] at hnodup
  have hbefore : ∀ entry ∈ before, entry.1 ≠ dcId := by
    intro entry hmem hsame
    refine List.disjoint_of_nodup_append hnodup (List.mem_map.mpr ⟨entry, hmem, rfl⟩) ?_
    rw [hsame]
    exact List.mem_cons_self
  have htake : (before ++ (dcId, text) :: after).takeWhile (fun entry => entry.1 ≠ dcId) = before := by
    rw [List.takeWhile_append_of_pos fun entry hmem => by simpa using hbefore entry hmem]
    simp
  rw [hsplit, htake]
  constructor
  · intro hfound
    obtain ⟨⟨found, content⟩, hfind, rfl⟩ := Option.map_eq_some_iff.mp hfound
    rw [List.find?_append, Option.or_eq_some_iff] at hfind
    obtain hfirst | ⟨hnone, hlast⟩ := hfind
    · exact absurd rfl (hbefore _ (List.mem_of_find?_eq_some hfirst))
    · by_cases htext : text = host
      · refine ⟨htext, fun entry hmem hsame => ?_⟩
        have hother := List.find?_eq_none.mp hnone entry hmem
        simp [hsame, htext] at hother
      · rw [List.find?_cons_of_neg (by simpa using htext)] at hlast
        have hafter := (List.nodup_cons.mp (List.Nodup.of_append_right hnodup)).1
        exact absurd (List.mem_map.mpr ⟨_, List.mem_of_find?_eq_some hlast, rfl⟩) hafter
  · rintro ⟨rfl, hother⟩
    have hfind : (before ++ (dcId, text) :: after).find? (fun entry => entry.2 = text) = some (dcId, text) := by
      refine List.find?_eq_some_iff_append.mpr ⟨by simp, before, after, rfl, fun entry hmem => ?_⟩
      simpa using hother entry hmem
    rw [hfind, Option.map_some]

theorem bridgedTo_iff_found {version reserved : UInt8} {input : Input} {target : Socks5.Target} {following : Bytes}
    (h : Opening version reserved input.bytes target following) :
    BridgedTo platform core input dcId ↔
      core.disableWebSockets = false ∧ (core.delivered platform target following).dcId = some dcId := by
  rw [BridgedTo, handleClient_opening h, ← domains_eq_hosts_iff]
  constructor
  · rintro ⟨delivery, hdelivery, hhosts⟩
    obtain rfl := Option.some.inj hdelivery
    exact hhosts
  · exact fun hhosts => ⟨_, rfl, hhosts⟩

-- A client that asks for the address of a data center gets its hosts exactly if WebSockets are not
-- disabled, the text of an IPv6 address is the one that getHostAddress gives, and no entry in front
-- of its own has the same address.
theorem bridgedTo_iff (hdotted : DottedHosts platform) (hentry : (dcId, text) ∈ core.dcMappings.entries)
    {version reserved : UInt8} {input : Input} {target : Socks5.Target} {following : Bytes}
    (h : Opening version reserved input.bytes target following) (hdenotes : Denotes text target.address) :
    BridgedTo platform core input dcId ↔
      core.disableWebSockets = false ∧
        (∀ bytes, IpLiteral.ipv6 text.toList = some bytes → platform.hostAddress bytes = text) ∧
        ∀ entry ∈ core.dcMappings.entries.takeWhile (fun entry => entry.1 ≠ dcId), entry.2 ≠ text := by
  have htext : text = hostText platform target.address ↔
      ∀ bytes, IpLiteral.ipv6 text.toList = some bytes → platform.hostAddress bytes = text := by
    cases haddress : target.address with
    | ipv4 bytes hlength =>
        rw [haddress] at hdenotes
        refine iff_of_true ?_ fun other hother => ?_
        · rw [hostText, hdotted bytes hlength, ← (IpLiteral.ipv4_eq_some_iff.mp hdenotes).2, String.ofList_toList]
        · exact absurd (IpLiteral.colon_mem_of_ipv6 hother) (IpLiteral.colon_notMem_of_ipv4 hdenotes)
    | domain name hlength =>
        rw [haddress] at hdenotes
        exact hdenotes.elim
    | ipv6 bytes hlength =>
        rw [haddress] at hdenotes
        have hsix : IpLiteral.ipv6 text.toList = some bytes := hdenotes
        rw [hostText, hsix]
        exact ⟨fun hsame other hother => Option.some.inj hother ▸ hsame.symm, fun hall => (hall bytes rfl).symm⟩
  rw [bridgedTo_iff_found h, ← htext]
  exact and_congr_right fun _ => find_eq_iff hentry

-- The mapping that Prefs has by default.
def defaultMapping : LinkedMap Int String := ⟨[(2, "149.154.167.220"), (4, "149.154.167.220")], by decide⟩

def defaultCore : TgwsCore := { sampleCore with dcMappings := defaultMapping }

def dottedPlatform : Platform :=
  { samplePlatform with hostAddress := fun bytes => String.ofList (IpLiteral.dotted bytes) }

-- A client that asks for 149.154.167.220 and port 443.
def mappedInput : Input := ⟨[[5, 1, 0], [5, 1, 0, 1, 149, 154, 167, 220, 1, 187]]⟩

theorem opening_mappedInput :
    Opening 5 0 mappedInput.bytes ⟨.ipv4 [149, 154, 167, 220] rfl, [1, 187], rfl⟩ [] :=
  ⟨⟨[0], by decide, by decide, rfl⟩, rfl⟩

theorem bridgedTo_two : BridgedTo dottedPlatform defaultCore mappedInput 2 :=
  (bridgedTo_iff (fun _ _ => rfl) (List.mem_cons_self) opening_mappedInput
    (show Denotes "149.154.167.220" _ by unfold Denotes; decide)).mpr
    ⟨rfl, fun _ hsix => absurd (IpLiteral.colon_mem_of_ipv6 hsix) (by decide), by decide⟩

-- The second data center of the default mapping gets the hosts of the first.
theorem not_bridgedTo_four :
    ¬∀ (platform : Platform) (core : TgwsCore) (dcId : Int) (text : String) (input : Input) (target : Socks5.Target)
      (following : Bytes), DottedHosts platform → (dcId, text) ∈ core.dcMappings.entries →
        Opening 5 0 input.bytes target following → Denotes text target.address →
          BridgedTo platform core input dcId := by
  intro h
  have hbridged := h dottedPlatform defaultCore 4 "149.154.167.220" mappedInput _ _ (fun _ _ => rfl) (by decide)
    opening_mappedInput (by unfold Denotes; decide)
  have hfound : (defaultCore.delivered dottedPlatform ⟨.ipv4 [149, 154, 167, 220] rfl, [1, 187], rfl⟩ []).dcId =
      some 2 := by decide
  rw [bridgedTo_iff_found opening_mappedInput, hfound] at hbridged
  exact absurd hbridged.2 (by decide)

end ToInet.Tgws.TgwsCore
