import ToInet.Circumvention.GetTorConfig
import ToInet.Lib.Bytes
import ToInet.Util.Prefs.Theorems

-- The lines of a SOCKS5 proxy in the configuration of Tor.
namespace ToInet.Circumvention.GetTorConfig

open ToInet.Lib ToInet.Util

def keyword (line : List Char) : List Char := line.takeWhile (· ≠ ' ')

theorem keyword_append {name value : List Char} (h : ' ' ∉ name) : keyword (name ++ ' ' :: value) = name := by
  have hpos : ∀ c ∈ name, decide (c ≠ ' ') = true := fun c hc => decide_eq_true fun heq => h (heq ▸ hc)
  rw [keyword, List.takeWhile_append_of_pos hpos, List.takeWhile_cons_of_neg (by decide), List.append_nil]

theorem keyword_directive {name : String} {value : List Char} (h : ' ' ∉ name.toList) :
    keyword (directive name value) = name.toList := keyword_append h

-- The lines with one keyword.
def linesOf (name : String) (lines : List (List Char)) : List (List Char) :=
  lines.filter fun line => keyword line = name.toList

theorem linesOf_append (name : String) (lines rest : List (List Char)) :
    linesOf name (lines ++ rest) = linesOf name lines ++ linesOf name rest := List.filter_append _ _

theorem linesOf_cons_self {name : String} {value : List Char} {lines : List (List Char)} (h : ' ' ∉ name.toList) :
    linesOf name (directive name value :: lines) = directive name value :: linesOf name lines :=
  List.filter_cons_of_pos (by simpa using keyword_directive h)

theorem linesOf_cons_other {name other : String} {value : List Char} {lines : List (List Char)}
    (h : ' ' ∉ other.toList) (hne : other.toList ≠ name.toList) :
    linesOf name (directive other value :: lines) = linesOf name lines :=
  List.filter_cons_of_neg (by simpa [keyword_directive h] using hne)

theorem linesOf_eq_nil {name other : String} {lines : List (List Char)} (hne : other.toList ≠ name.toList)
    (h : ∀ line ∈ lines, keyword line = other.toList) : linesOf name lines = [] := by
  rw [linesOf, List.filter_eq_nil_iff]
  intro line hline
  simpa [h line hline] using hne

theorem keyword_bridgeLine (raw : List Char) : keyword (bridgeLine raw) = "Bridge".toList :=
  keyword_directive (by decide)

theorem keyword_sqsLines {idx : Nat} {bridges : List Bridge} {lines : List (List Char)}
    (h : sqsLines idx bridges = some lines) : ∀ line ∈ lines, keyword line = "Bridge".toList := by
  induction bridges generalizing idx lines with
  | nil =>
      obtain rfl := Option.some.inj h
      exact nofun
  | cons bridge bridges ih =>
      unfold sqsLines at h
      obtain ⟨built, _, hrest⟩ := Option.bind_eq_some_iff.mp h
      obtain ⟨rest, hlines, hcons⟩ := Option.bind_eq_some_iff.mp hrest
      obtain rfl := Option.some.inj hcons
      intro line hline
      obtain rfl | hmem := List.mem_cons.mp hline
      · exact keyword_bridgeLine _
      · exact ih hlines line hmem

theorem keyword_ampLines {idx : Nat} {bridges : List Bridge} {lines : List (List Char)}
    (h : SnowflakeAmp.getTorConfig idx bridges = some lines) : ∀ line ∈ lines, keyword line = "Bridge".toList := by
  induction bridges generalizing idx lines with
  | nil =>
      obtain rfl := Option.some.inj h
      exact nofun
  | cons bridge bridges ih =>
      unfold SnowflakeAmp.getTorConfig at h
      obtain ⟨built, _, hrest⟩ := Option.bind_eq_some_iff.mp h
      obtain ⟨rest, hlines, hcons⟩ := Option.bind_eq_some_iff.mp hrest
      obtain rfl := Option.some.inj hcons
      intro line hline
      obtain rfl | hmem := List.mem_cons.mp hline
      · exact keyword_bridgeLine built.raw
      · exact ih hlines line hmem

theorem keyword_bridgeLines {s : Sources} {transport : Transport} {lines : List (List Char)}
    (h : bridgeLines s transport = some lines) : ∀ line ∈ lines, keyword line = "Bridge".toList := by
  have hmap {α : Type} (raw : α → List Char) (list : List α) :
      ∀ line ∈ list.map fun x => bridgeLine (raw x), keyword line = "Bridge".toList := by
    intro line hline
    obtain ⟨x, _, rfl⟩ := List.mem_map.mp hline
    exact keyword_bridgeLine _
  cases transport with
  | none => exact Option.some.inj h ▸ nofun
  | byedpi => exact Option.some.inj h ▸ nofun
  | snowflakeAmp => exact keyword_ampLines h
  | snowflakeSqs => exact keyword_sqsLines h
  | dnstt =>
      obtain rfl := Option.some.inj h
      intro line hline
      exact (List.mem_append.mp hline).elim (hmap _ _ line) (hmap _ _ line)
  | _ => exact Option.some.inj h ▸ hmap _ _

theorem keyword_pluginLines {s : Sources} {transport : Transport} :
    ∀ line ∈ pluginLines s transport, keyword line = "ClientTransportPlugin".toList := by
  intro line hline
  obtain ⟨name, _, rfl⟩ := List.mem_map.mp hline
  exact keyword_directive (by decide)

-- The password that is shown of a user info.
def shown (password : List Char) : List Char :=
  if password.takeWhile (· ≠ ':') = [] then [' '] else password.takeWhile (· ≠ ':')

theorem shown_eq_iff {password : List Char} (hne : password ≠ []) : shown password = password ↔ ':' ∉ password := by
  constructor
  · intro h hmem
    unfold shown at h
    split at h
    · subst h
      cases List.mem_singleton.mp hmem
    · rw [← h] at hmem
      simpa using List.all_eq_true.mp List.all_takeWhile _ hmem
  · intro hcolon
    have hall : password.takeWhile (· ≠ ':') = password :=
      List.takeWhile_eq_self_iff.mpr fun c hc => decide_eq_true fun h => hcolon (h ▸ hc)
    rw [shown, hall, if_neg hne]

theorem credentials_eq {username : List Char} (password : List Char) (hne : username ≠ []) (hcolon : ':' ∉ username) :
    credentials (username ++ ':' :: password) =
      [directive "Socks5ProxyUsername" username, directive "Socks5ProxyPassword" (shown password)] := by
  have hsplit : (username ++ ':' :: password).splitOn ':' = username :: password.splitOn ':' := by
    rw [List.splitOn_append_cons_self, List.splitOn_eq_singleton hcolon]
    rfl
  have hfirst := head?_splitOn ':' password
  rw [credentials, hsplit]
  cases hparts : password.splitOn ':' with
  | nil => exact absurd hparts (List.splitOn_ne_nil _ _)
  | cons first rest =>
      rw [hparts, List.head?_cons] at hfirst
      obtain rfl := Option.some.inj hfirst
      cases username with
      | nil => exact absurd rfl hne
      | cons c username =>
          rw [shown]
          cases password.takeWhile (· ≠ ':') <;> rfl

-- A SOCKS5 proxy with a name and a password that need no escapes.
structure Socks5 (platform : UriPlatform) (proxy : ProxySettings) (user pass : List Char) : Prop where
  enabled : proxy.enabled = true
  scheme : proxy.scheme platform = "socks5".toList
  hostName : proxy.hostName ≠ []
  username : proxy.username = some user
  user_ne_nil : user ≠ []
  user_legal : ∀ c ∈ user, Uri.isUserInfo c = true
  colon_notMem : ':' ∉ user
  password : proxy.password = some pass
  pass_ne_nil : pass ≠ []
  pass_legal : ∀ c ∈ pass, Uri.isUserInfo c = true

-- The host and the port, as they are set.
def address (proxy : ProxySettings) : List Char := proxy.hostName ++ ProxySettings.portPart proxy.portNumber

-- A host that is read with its port as it is written.
def HostReadable (platform : UriPlatform) (proxy : ProxySettings) : Prop :=
  (∀ c ∈ proxy.hostName, Uri.isEnd c = false) ∧
    ∃ host port, Uri.readHostPort platform.isHost (address proxy) = some (host, port) ∧
      host ++ ProxySettings.portPart port = address proxy

-- What the configuration has of the proxy.
def Emits (proxy : ProxySettings) (user pass : List Char) (lines : List (List Char)) : Prop :=
  linesOf "Socks5Proxy" lines = [directive "Socks5Proxy" (address proxy)] ∧
  linesOf "Socks5ProxyUsername" lines = [directive "Socks5ProxyUsername" user] ∧
  linesOf "Socks5ProxyPassword" lines = [directive "Socks5ProxyPassword" pass]

variable {platform : UriPlatform} {proxy : ProxySettings} {user pass : List Char}

namespace Socks5

theorem url_eq (h : Socks5 platform proxy user pass) :
    proxy.url platform =
      "socks5".toList ++ ':' :: '/' :: '/' :: ((user ++ ':' :: pass) ++ '@' :: (address proxy ++ ['/'])) := by
  have huser : proxy.userPart = (user ++ ':' :: pass) ++ ['@'] := by
    simp [ProxySettings.userPart, h.username, h.password, h.user_ne_nil, h.pass_ne_nil]
  rw [ProxySettings.url, h.scheme, huser, address]
  simp

theorem legal (h : Socks5 platform proxy user pass) : ∀ c ∈ user ++ ':' :: pass, Uri.isUserInfo c = true := by
  intro c hc
  rcases List.mem_append.mp hc with hmem | hmem
  · exact h.user_legal c hmem
  · obtain rfl | hmem := List.mem_cons.mp hmem
    · decide
    · exact h.pass_legal c hmem

theorem outboundProxy_eq (h : Socks5 platform proxy user pass) :
    (proxy.outboundProxy platform).1 = Uri.parse platform.isHost (proxy.url platform) := by
  have hset : ¬(¬proxy.enabled = true ∨ proxy.scheme platform = [] ∨ proxy.hostName = []) := by
    rw [h.enabled, h.scheme]
    simpa using h.hostName
  rw [ProxySettings.outboundProxy, if_neg hset]
  cases Uri.parse platform.isHost (proxy.url platform) <;> rfl

-- The lines for what has been read of the URI.
theorem schemeLines_eq (h : Socks5 platform proxy user pass) (host : List Char) (port : Int) :
    schemeLines platform
        { scheme := some "socks5".toList
          authority := { userInfo := some (user ++ ':' :: pass), host := some host, port } } =
      [directive "Socks5Proxy" (host ++ ProxySettings.portPart port), directive "Socks5ProxyUsername" user,
        directive "Socks5ProxyPassword" (shown pass)] := by
  have hpercent : '%' ∉ user ++ ':' :: pass := fun hmem => absurd (h.legal '%' hmem) (by decide)
  have hhttps : ¬some "socks5".toList = some "https".toList := by decide
  have hsocks4 : ¬some "socks5".toList = some "socks4".toList := by decide
  unfold schemeLines
  dsimp only
  rw [if_neg hhttps, if_neg hsocks4, if_pos rfl]
  simp only [Uri.getUserInfo, Option.map_some, Option.getD_some, if_neg hpercent,
    credentials_eq _ h.user_ne_nil h.colon_notMem]
  rfl

end Socks5

variable {s : Sources} {transport : Transport}

def proxyKeywords : List String := ["Socks5Proxy", "Socks5ProxyUsername", "Socks5ProxyPassword"]

-- The keywords of the proxy stand in its own lines and in that for ByeDPI.
theorem linesOf_getTorConfig (name : String) (hname : name ∈ proxyKeywords)
    {lines : List (List Char)} (h : getTorConfig platform s transport = some lines) :
    ∃ upstream, upstreamLines s = some upstream ∧
      linesOf name lines = linesOf name (proxyLines platform s) ++ linesOf name upstream := by
  have hother : ∀ other ∈ ["UseBridges", "ClientTransportPlugin", "Bridge"], other.toList ≠ name.toList := by
    intro other hother
    simp only [proxyKeywords, List.mem_cons, List.not_mem_nil, or_false] at hname hother
    rcases hname with rfl | rfl | rfl <;> rcases hother with rfl | rfl | rfl <;> decide
  obtain ⟨upstream, hupstream, hrest⟩ := Option.bind_eq_some_iff.mp h
  obtain ⟨bridges, hbridges, hlines⟩ := Option.bind_eq_some_iff.mp hrest
  refine ⟨upstream, hupstream, ?_⟩
  rw [← Option.some.inj hlines, linesOf_cons_other (by decide) (hother "UseBridges" (by simp)), linesOf_append,
    linesOf_append, linesOf_append, linesOf_eq_nil (hother "ClientTransportPlugin" (by simp)) keyword_pluginLines,
    linesOf_eq_nil (hother "Bridge" (by simp)) (keyword_bridgeLines hbridges), List.append_nil, List.append_nil]

theorem upstreamLines_off (h : ¬(s.byedpiEnabled = true ∧ s.byedpiUseAsUpstream = true)) :
    upstreamLines s = some [] := if_neg h

-- Without ByeDPI the lines are those of the proxy.
theorem linesOf_getTorConfig_off {name : String} (hname : name ∈ proxyKeywords)
    (hoff : ¬(s.byedpiEnabled = true ∧ s.byedpiUseAsUpstream = true)) {lines : List (List Char)}
    (h : getTorConfig platform s transport = some lines) :
    linesOf name lines = linesOf name (proxyLines platform s) := by
  obtain ⟨upstream, hupstream, hsplit⟩ := linesOf_getTorConfig name hname h
  rw [upstreamLines_off hoff] at hupstream
  obtain rfl := Option.some.inj hupstream
  exact hsplit.trans (List.append_nil _)

-- ByeDPI has a line of its own.
theorem linesOf_upstream (hon : s.byedpiEnabled = true ∧ s.byedpiUseAsUpstream = true) {upstream : List (List Char)}
    (h : upstreamLines s = some upstream) : linesOf "Socks5Proxy" upstream ≠ [] := by
  rw [upstreamLines, if_pos hon] at h
  obtain ⟨port, _, rfl⟩ := Option.map_eq_some_iff.mp h
  rw [linesOf_cons_self (by decide)]
  exact List.cons_ne_nil _ _

theorem linesOf_proxy (address user pass value : List Char) :
    linesOf "Socks5Proxy" [directive "Socks5Proxy" address, directive "Socks5ProxyUsername" user,
        directive "Socks5ProxyPassword" pass, directive "NoProxy" value] = [directive "Socks5Proxy" address] ∧
    linesOf "Socks5ProxyUsername" [directive "Socks5Proxy" address, directive "Socks5ProxyUsername" user,
        directive "Socks5ProxyPassword" pass, directive "NoProxy" value] = [directive "Socks5ProxyUsername" user] ∧
    linesOf "Socks5ProxyPassword" [directive "Socks5Proxy" address, directive "Socks5ProxyUsername" user,
        directive "Socks5ProxyPassword" pass, directive "NoProxy" value] = [directive "Socks5ProxyPassword" pass] := by
  refine ⟨?_, ?_, ?_⟩
  · rw [linesOf_cons_self (by decide), linesOf_cons_other (by decide) (by decide),
      linesOf_cons_other (by decide) (by decide), linesOf_cons_other (by decide) (by decide)]
    rfl
  · rw [linesOf_cons_other (by decide) (by decide), linesOf_cons_self (by decide),
      linesOf_cons_other (by decide) (by decide), linesOf_cons_other (by decide) (by decide)]
    rfl
  · rw [linesOf_cons_other (by decide) (by decide), linesOf_cons_other (by decide) (by decide),
      linesOf_cons_self (by decide), linesOf_cons_other (by decide) (by decide)]
    rfl

-- A URI without a user info gives no name.
theorem linesOf_schemeLines_none {uri : Uri} (h : uri.authority.userInfo = none) :
    linesOf "Socks5ProxyUsername" (schemeLines platform uri ++ [directive "NoProxy" localHost]) = [] := by
  have hinfo : (uri.getUserInfo platform.decode).getD [] = [] := by
    rw [Uri.getUserInfo, h]
    rfl
  have hnoProxy : linesOf "Socks5ProxyUsername" [directive "NoProxy" localHost] = [] :=
    linesOf_cons_other (by decide) (by decide)
  rw [linesOf_append, hnoProxy, List.append_nil]
  unfold schemeLines
  rw [hinfo]
  dsimp only
  split
  · exact linesOf_cons_other (by decide) (by decide)
  · split
    · exact linesOf_cons_other (by decide) (by decide)
    · split
      · exact linesOf_cons_other (by decide) (by decide)
      · rfl

theorem linesOf_username_upstream {upstream : List (List Char)} (h : upstreamLines s = some upstream) :
    linesOf "Socks5ProxyUsername" upstream = [] ∧ linesOf "Socks5ProxyPassword" upstream = [] := by
  unfold upstreamLines at h
  split at h
  · obtain ⟨port, _, rfl⟩ := Option.map_eq_some_iff.mp h
    constructor
    · rw [linesOf_cons_other (by decide) (by decide), linesOf_cons_other (by decide) (by decide)]
      rfl
    · rw [linesOf_cons_other (by decide) (by decide), linesOf_cons_other (by decide) (by decide)]
      rfl
  · obtain rfl := Option.some.inj h
    exact ⟨rfl, rfl⟩

theorem isEnd_of_mem_portPart {port : Int} {c : Char} (hc : c ∈ ProxySettings.portPart port) : Uri.isEnd c = false := by
  unfold ProxySettings.portPart at hc
  split at hc
  · by_contra h
    simp only [Uri.isEnd, Bool.or_eq_true, decide_eq_true_eq, Bool.not_eq_false] at h
    obtain rfl | hdigits := List.mem_cons.mp hc
    · revert h
      decide
    · rcases h with (rfl | rfl) | rfl <;> exact Prefs.notMem_decimal (by decide) (by decide) hdigits
  · cases hc

theorem cutAuthority_of_isEnd {text : List Char} (h : ∀ c ∈ text, Uri.isEnd c = false) :
    Uri.cutAuthority (text ++ ['/']) = text ∧ (text ++ ['/']).dropWhile (fun c => !Uri.isEnd c) = ['/'] := by
  have hpos : ∀ c ∈ text, (!Uri.isEnd c) = true := fun c hc => by rw [h c hc]; rfl
  constructor
  · rw [Uri.cutAuthority, List.takeWhile_append_of_pos hpos, List.takeWhile_cons_of_neg (by decide), List.append_nil]
  · rw [List.dropWhile_append_of_pos hpos, List.dropWhile_cons_of_neg (by decide)]

theorem directive_inj {keyword : String} {value other : List Char}
    (h : directive keyword value = directive keyword other) : value = other :=
  (List.cons.inj (List.append_cancel_left h)).2

namespace Socks5

theorem proxyLines_eq (h : Socks5 platform s.proxy user pass) (host : List Char) (port : Int)
    (hparse : Uri.parse platform.isHost (s.proxy.url platform) =
      some { scheme := some "socks5".toList
             authority := { userInfo := some (user ++ ':' :: pass), host := some host, port } }) :
    proxyLines platform s =
      [directive "Socks5Proxy" (host ++ ProxySettings.portPart port), directive "Socks5ProxyUsername" user,
        directive "Socks5ProxyPassword" (shown pass), directive "NoProxy" localHost] := by
  rw [proxyLines, h.outboundProxy_eq, hparse]
  dsimp only
  rw [h.schemeLines_eq]
  rfl

-- A configuration with the name of the proxy comes of a URI that has been read as a server.
theorem exists_of_username (h : Socks5 platform s.proxy user pass)
    (hname : linesOf "Socks5ProxyUsername" (proxyLines platform s) ≠ []) :
    ∃ host port, Uri.readHostPort platform.isHost (Uri.cutAuthority (address s.proxy ++ ['/'])) = some (host, port) ∧
      proxyLines platform s =
        [directive "Socks5Proxy" (host ++ ProxySettings.portPart port), directive "Socks5ProxyUsername" user,
          directive "Socks5ProxyPassword" (shown pass), directive "NoProxy" localHost] := by
  cases hparse : Uri.parse platform.isHost (s.proxy.url platform) with
  | none =>
      rw [proxyLines, h.outboundProxy_eq, hparse] at hname
      exact absurd rfl hname
  | some uri =>
      have hinfo : uri.authority.userInfo ≠ none := by
        intro hnone
        rw [proxyLines, h.outboundProxy_eq, hparse] at hname
        exact hname (linesOf_schemeLines_none hnone)
      have hread := hparse
      rw [h.url_eq] at hread
      obtain ⟨host, port, hhost, rfl⟩ := Uri.exists_of_parse (by decide) h.legal hread hinfo
      exact ⟨host, port, hhost, h.proxyLines_eq host port hparse⟩

-- What the lines say has been read of the URI.
theorem of_emits (h : Socks5 platform s.proxy user pass) {lines : List (List Char)}
    (hlines : getTorConfig platform s transport = some lines) (hemits : Emits s.proxy user pass lines) :
    HostReadable platform s.proxy ∧ ':' ∉ pass ∧ ¬(s.byedpiEnabled = true ∧ s.byedpiUseAsUpstream = true) := by
  obtain ⟨hproxy, huser, hpass⟩ := hemits
  obtain ⟨upstream, hupstream, hsplit⟩ := linesOf_getTorConfig "Socks5Proxy" (by simp [proxyKeywords]) hlines
  obtain ⟨_, hsame, husers⟩ := linesOf_getTorConfig "Socks5ProxyUsername" (by simp [proxyKeywords]) hlines
  obtain rfl := Option.some.inj (hupstream.symm.trans hsame)
  obtain ⟨_, hsame, hpasses⟩ := linesOf_getTorConfig "Socks5ProxyPassword" (by simp [proxyKeywords]) hlines
  obtain rfl := Option.some.inj (hupstream.symm.trans hsame)
  obtain ⟨hnone, hnone'⟩ := linesOf_username_upstream hupstream
  rw [hnone, List.append_nil] at husers
  rw [hnone', List.append_nil] at hpasses
  have hname : linesOf "Socks5ProxyUsername" (proxyLines platform s) ≠ [] := by
    rw [← husers, huser]
    exact List.cons_ne_nil _ _
  obtain ⟨host, port, hread, hproxyLines⟩ := h.exists_of_username hname
  obtain ⟨hfirst, _, hthird⟩ := linesOf_proxy (host ++ ProxySettings.portPart port) user (shown pass) localHost
  rw [hsplit, hproxyLines, hfirst] at hproxy
  rw [hpasses, hproxyLines, hthird] at hpass
  obtain ⟨htext, hrest⟩ := List.cons.inj hproxy
  have htext := directive_inj htext
  have hpassword := directive_inj (List.cons.inj hpass).1
  have haddress : ∀ c ∈ address s.proxy, Uri.isEnd c = false := by
    intro c hc
    rw [← htext] at hc
    refine (List.mem_append.mp hc).elim (fun hmem => ?_) isEnd_of_mem_portPart
    have hcut := List.all_eq_true.mp List.all_takeWhile c (Uri.mem_of_readHostPort hread c hmem)
    exact (Bool.not_eq_true' _).mp hcut
  refine ⟨⟨fun c hc => haddress c (List.mem_append_left _ hc), host, port, ?_, htext⟩,
    (shown_eq_iff h.pass_ne_nil).mp hpassword, fun hon => linesOf_upstream hon hupstream hrest⟩
  rw [← (cutAuthority_of_isEnd haddress).1]
  exact hread

theorem proxyLines_of_readable (h : Socks5 platform s.proxy user pass) (hhost : HostReadable platform s.proxy)
    (hcolon : ':' ∉ pass) :
    proxyLines platform s =
      [directive "Socks5Proxy" (address s.proxy), directive "Socks5ProxyUsername" user,
        directive "Socks5ProxyPassword" pass, directive "NoProxy" localHost] := by
  obtain ⟨hend, host, port, hread, htext⟩ := hhost
  have haddress : ∀ c ∈ address s.proxy, Uri.isEnd c = false := fun c hc =>
    (List.mem_append.mp hc).elim (hend c) isEnd_of_mem_portPart
  have hproxy := h.proxyLines_eq host port (by
    rw [h.url_eq]
    apply Uri.parse_userInfo (by decide) h.legal
    · rw [(cutAuthority_of_isEnd haddress).2]
      decide
    · rw [(cutAuthority_of_isEnd haddress).1, hread])
  rwa [htext, (shown_eq_iff h.pass_ne_nil).mpr hcolon] at hproxy

end Socks5

theorem ampLines_isSome_iff {idx : Nat} {bridges : List Bridge} :
    (SnowflakeAmp.getTorConfig idx bridges).isSome = true ↔ ∀ bridge ∈ bridges, bridge.Addressed := by
  induction bridges generalizing idx with
  | nil => exact iff_of_true rfl fun bridge hbridge => (List.not_mem_nil hbridge).elim
  | cons bridge bridges ih =>
      rw [List.forall_mem_cons, ← @ih (idx + 1), ← Bridge.ofBridge_isSome_iff, SnowflakeAmp.getTorConfig,
        SnowflakeAmp.ampBridge]
      cases Bridge.Builder.ofBridge bridge <;> cases SnowflakeAmp.getTorConfig (idx + 1) bridges <;> simp

theorem sqsLines_isSome_iff {idx : Nat} {bridges : List Bridge} :
    (sqsLines idx bridges).isSome = true ↔ ∀ bridge ∈ bridges, bridge.Addressed := by
  induction bridges generalizing idx with
  | nil => exact iff_of_true rfl fun bridge hbridge => (List.not_mem_nil hbridge).elim
  | cons bridge bridges ih =>
      rw [List.forall_mem_cons, ← @ih (idx + 1), ← Bridge.ofBridge_isSome_iff, sqsLines, sqsBridge]
      cases Bridge.Builder.ofBridge bridge <;> cases sqsLines (idx + 1) bridges <;> simp

-- Two transports make their bridges from the built-in ones, each of which needs its address for this.
def BridgesTaken (s : Sources) (transport : Transport) : Prop :=
  transport = .snowflakeAmp ∨ transport = .snowflakeSqs →
    ∀ bridge ∈ builtInLines s (·.snowflake), bridge.Addressed

theorem bridgeLines_isSome_iff {transport : Transport} :
    (bridgeLines s transport).isSome = true ↔ BridgesTaken s transport := by
  unfold BridgesTaken
  cases transport with
  | snowflakeAmp => exact ampLines_isSome_iff.trans (by simp)
  | snowflakeSqs => exact sqsLines_isSome_iff.trans (by simp)
  | _ => exact iff_of_true rfl fun h => by rcases h with h | h <;> cases h

-- The proxy gets its lines where its host and port are read as they are written, and its password whole
-- where it has no colon; with ByeDPI in front there is a second proxy.
theorem emits_iff (h : Socks5 platform s.proxy user pass) (transport : Transport) :
    (∃ lines, getTorConfig platform s transport = some lines ∧ Emits s.proxy user pass lines) ↔
      HostReadable platform s.proxy ∧ ':' ∉ pass ∧ ¬(s.byedpiEnabled = true ∧ s.byedpiUseAsUpstream = true) ∧
        BridgesTaken s transport := by
  rw [← bridgeLines_isSome_iff]
  constructor
  · rintro ⟨lines, hlines, hemits⟩
    obtain ⟨hhost, hcolon, hoff⟩ := h.of_emits hlines hemits
    obtain ⟨_, _, hbind⟩ := Option.bind_eq_some_iff.mp hlines
    obtain ⟨bridges, hbridges, _⟩ := Option.bind_eq_some_iff.mp hbind
    exact ⟨hhost, hcolon, hoff, Option.isSome_iff_exists.mpr ⟨bridges, hbridges⟩⟩
  · rintro ⟨hhost, hcolon, hoff, hbridges⟩
    obtain ⟨bridges, hbridges⟩ := Option.isSome_iff_exists.mp hbridges
    obtain ⟨lines, hlines⟩ : ∃ lines, getTorConfig platform s transport = some lines := by
      rw [getTorConfig, upstreamLines_off hoff, hbridges]
      exact ⟨_, rfl⟩
    have hproxy := h.proxyLines_of_readable hhost hcolon
    obtain ⟨hfirst, hsecond, hthird⟩ := linesOf_proxy (address s.proxy) user pass localHost
    refine ⟨lines, hlines, ?_, ?_, ?_⟩
    · rw [linesOf_getTorConfig_off (by simp [proxyKeywords]) hoff hlines, hproxy, hfirst]
    · rw [linesOf_getTorConfig_off (by simp [proxyKeywords]) hoff hlines, hproxy, hsecond]
    · rw [linesOf_getTorConfig_off (by simp [proxyKeywords]) hoff hlines, hproxy, hthird]

-- Hosts of letters, digits, hyphens and dots.
def plainPlatform : UriPlatform :=
  { lowercase := fun text => text.map Char.toLower
    isHost := fun text => text ≠ [] && text.all fun c => Uri.isAlphanum c || c = '-' || c = '.'
    decode := id }

def colonPassword : Sources :=
  { proxy :=
      { enabled := true, type := some "SOCKS5".toList, host := some "proxy.lan".toList
        username := some "user".toList, password := some "a:b".toList, port := some "1080".toList }
    byedpiEnabled := false
    byedpiUseAsUpstream := false
    byedpiPort := none
    torIgnoreEmptyUrl := false
    bridgesList := []
    builtIn := none
    controllerPort := fun _ => 0 }

theorem colonPassword_socks5 : Socks5 plainPlatform colonPassword.proxy "user".toList "a:b".toList where
  enabled := rfl
  scheme := by decide +kernel
  hostName := by decide +kernel
  username := rfl
  user_ne_nil := by decide
  user_legal := forall_mem_of_all (by decide)
  colon_notMem := by decide
  password := rfl
  pass_ne_nil := by decide
  pass_legal := forall_mem_of_all (by decide)

theorem emits_iff_colonPassword :
    (∃ lines, getTorConfig plainPlatform colonPassword .none = some lines ∧
      Emits colonPassword.proxy "user".toList "a:b".toList lines) ↔
      HostReadable plainPlatform colonPassword.proxy ∧ ':' ∉ "a:b".toList ∧
        ¬(colonPassword.byedpiEnabled = true ∧ colonPassword.byedpiUseAsUpstream = true) ∧
        BridgesTaken colonPassword .none :=
  emits_iff colonPassword_socks5 .none

-- The password ends at its colon.
theorem not_emits_colonPassword :
    Socks5 plainPlatform colonPassword.proxy "user".toList "a:b".toList ∧
      ¬∃ lines, getTorConfig plainPlatform colonPassword .none = some lines ∧
        Emits colonPassword.proxy "user".toList "a:b".toList lines := by
  refine ⟨colonPassword_socks5, ?_⟩
  rintro ⟨lines, hlines, _, _, hpass⟩
  have hline : getTorConfig plainPlatform colonPassword .none =
      some ["UseBridges 0".toList, "Socks5Proxy proxy.lan:1080".toList, "Socks5ProxyUsername user".toList,
        "Socks5ProxyPassword a".toList, "NoProxy 127.0.0.1".toList] := by decide +kernel
  rw [hline] at hlines
  obtain rfl := Option.some.inj hlines
  revert hpass
  decide +kernel

end ToInet.Circumvention.GetTorConfig
