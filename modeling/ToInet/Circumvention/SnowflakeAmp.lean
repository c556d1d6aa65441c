import ToInet.Circumvention.Bridge.Build

-- The bridges of SNOWFLAKE_AMP: those of Snowflake, with an address, a broker and fronts of their own.
namespace ToInet.Circumvention.SnowflakeAmp

open ToInet.Lib ToInet.Util ToInet.Circumvention.Bridge

def ampBroker : List Char := "https://snowflake-broker.torproject.net/".toList

def ampFront : List Char := "www.google.com".toList

def ampIp (idx : Nat) : List Char := ("192.0.2." ++ toString (5 + idx)).toList

def ampBuilder (idx : Nat) (builder : Builder) : Builder :=
  { builder with ip := ampIp idx, url := some ampBroker, fronts := [ampFront] }

-- What becomes of the bridge at an index; none is an exception.
def ampBridge (idx : Nat) (bridge : Bridge) : Option Bridge :=
  (Builder.ofBridge bridge).map fun builder => (ampBuilder idx builder).build

-- The Bridge lines of getTorConfig; the first exception ends it.
def getTorConfig (idx : Nat) : List Bridge → Option (List (List Char))
  | [] => some []
  | bridge :: bridges => do
      let built ← ampBridge idx bridge
      let lines ← getTorConfig (idx + 1) bridges
      some (("Bridge ".toList ++ built.raw) :: lines)

-- A line with the name of the transport, an address with a port, and anything in the pieces behind it.
structure SnowflakeLine where
  ip : List Char
  port : List Char
  number : Int
  rest : List (List Char)
  ip_ne_nil : ip ≠ []
  space_notMem_ip : ' ' ∉ ip
  parse_port : Prefs.parseInt port = some number
  number_pos : 1 ≤ number
  space_notMem_rest : ∀ piece ∈ rest, ' ' ∉ piece

namespace SnowflakeLine

variable (line : SnowflakeLine)

def address : List Char := line.ip ++ ':' :: line.port

def bridge : Bridge := ⟨[' '].intercalate ("snowflake".toList :: line.address :: line.rest)⟩

-- Only the address, the broker and the fronts are others.
structure Kept (built : Bridge) : Prop where
  transport : built.transport = some "snowflake".toList
  port : built.portText = line.port
  fingerprint1 : built.fingerprint1 = line.bridge.fingerprint1
  pieces : ∀ piece ≠ [], startsWith "url" piece = false → startsWith "fronts" piece = false →
    (piece ∈ built.rawPieces.drop 2 ↔ piece ∈ line.rest)

-- A line of which the builder knows everything.
structure Known : Prop where
  rest : line.rest ≠ []
  port : line.port = (toString line.number).toList
  plain : ∀ piece ∈ line.rest, piece ≠ [] → '=' ∉ piece → line.bridge.fingerprint1 = some piece
  known : ∀ piece ∈ line.rest, '=' ∈ piece → startsWith "url" piece = false → startsWith "fronts" piece = false →
    ∃ key ∈ keys, ∃ value, value ≠ [] ∧ '=' ∉ value ∧ piece = key.toList ++ '=' :: value
  single : ∀ key ∈ keys, key ≠ "url" → key ≠ "fronts" → ∀ piece ∈ line.rest, startsWith key piece = true →
    line.bridge.param key = some (lastPart '=' piece)
  address : ∀ key ∈ keys, key ≠ "url" → key ≠ "fronts" → startsWith key line.ip = true →
    ∃ piece ∈ line.rest, startsWith key piece = true

end SnowflakeLine

def KeptAll (lines : List SnowflakeLine) : Prop :=
  ∃ texts, getTorConfig 0 (lines.map SnowflakeLine.bridge) = some texts ∧
    List.Forall₂ (fun line text => ∃ built : Bridge, text = "Bridge ".toList ++ built.raw ∧ line.Kept built) lines texts

variable {line : SnowflakeLine} {idx : Nat} {bridge built : Bridge}

namespace SnowflakeLine

theorem notMem_port (line : SnowflakeLine) : ':' ∉ line.port ∧ '=' ∉ line.port ∧ ' ' ∉ line.port :=
  ⟨Prefs.notMem_of_parseInt line.parse_port (by decide) (by decide),
    Prefs.notMem_of_parseInt line.parse_port (by decide) (by decide),
    Prefs.notMem_of_parseInt line.parse_port (by decide) (by decide)⟩

theorem space_notMem_address : ' ' ∉ line.address := by
  rw [address, List.mem_append, List.mem_cons, not_or, not_or]
  exact ⟨line.space_notMem_ip, by decide, line.notMem_port.2.2⟩

theorem rawPieces_bridge (line : SnowflakeLine) :
    line.bridge.rawPieces =
      if line.rest = [] then [[], "snowflake".toList, line.address]
      else "snowflake".toList :: line.address :: line.rest := by
  have hspace : ∀ piece ∈ "snowflake".toList :: line.address :: line.rest, ' ' ∉ piece :=
    List.forall_mem_cons.mpr
      ⟨by decide, List.forall_mem_cons.mpr ⟨space_notMem_address, line.space_notMem_rest⟩⟩
  rw [bridge, rawPieces_join (List.cons_ne_nil _ _) hspace]
  cases hrest : line.rest with
  | nil => rfl
  | cons piece rest =>
      rw [if_neg (List.cons_ne_nil _ _), if_neg]
      simp only [List.length_cons]
      omega

theorem lastPart_address : lastPart ':' line.address = line.port := by
  rw [address, lastPart_append_cons, lastPart_eq_self line.notMem_port.1]

-- A line that ends with its address is taken for a vanilla bridge, whose address has no port.
theorem rest_ne_nil_of_ampBridge (h : ampBridge idx line.bridge = some built) : line.rest ≠ [] := by
  intro hrest
  have hpieces := line.rawPieces_bridge
  rw [if_pos hrest] at hpieces
  obtain ⟨builder, hbuilder, _⟩ := Option.map_eq_some_iff.mp h
  obtain ⟨first, second, rest, n, hsecond, hparse, _⟩ := ofBridge_eq_some hbuilder
  rw [hpieces, List.cons.injEq, List.cons.injEq] at hsecond
  rw [← hsecond.2.1] at hparse
  cases hparse

end SnowflakeLine

-- What the derived bridge has for a key.
def ampValue (bridge : Bridge) (key : String) : Option (List Char) :=
  if key = "url" then some ampBroker else if key = "fronts" then some ampFront else bridge.param key

theorem space_notMem_ampValue (key : String) (text : List Char) (h : ampValue bridge key = some text) : ' ' ∉ text := by
  unfold ampValue at h
  split at h
  · rw [← Option.some.inj h]
    decide
  · split at h
    · rw [← Option.some.inj h]
      decide
    · exact space_notMem_param h

theorem space_notMem_ampAddress (idx : Nat) (n : Int) : ' ' ∉ ampIp idx ++ ':' :: (toString n).toList := by
  have hidx : ' ' ∉ (toString (5 + idx)).toList := by
    rw [Nat.toString_eq_repr, Nat.toList_repr]
    exact fun hmem => absurd (isDigit_of_mem_toDigits hmem) (by decide)
  have hn : ' ' ∉ (toString n).toList := by
    rw [toList_toString]
    exact Prefs.notMem_decimal (by decide) (by decide)
  rw [ampIp, String.toList_append, List.mem_append, List.mem_append, List.mem_cons, not_or, not_or, not_or]
  exact ⟨⟨by decide, hidx⟩, by decide, hn⟩

theorem flatMap_ampBuilder {builder : Builder} (h : Builder.ofBridge bridge = some builder) :
    ((ampBuilder idx builder).fields.flatMap fun field => Builder.named field.1 field.2) =
      keys.flatMap fun key => Builder.named key (ampValue bridge key) := by
  obtain ⟨port, _, h⟩ := Option.bind_eq_some_iff.mp h
  split at h
  · cases h
  · obtain rfl := Option.some.inj h
    rfl

theorem params_ampBuilder {builder : Builder} {n : Int} (h : Builder.ofBridge bridge = some builder)
    (hport : builder.port = n) :
    (ampBuilder idx builder).params = Builder.nonEmpty bridge.transport ++
      (ampIp idx ++ ':' :: (toString n).toList) :: bridge.tailWith (ampValue bridge) := by
  rw [← hport, Builder.params, flatMap_ampBuilder h, tailWith, List.append_assoc, List.append_assoc]
  obtain ⟨port, _, h⟩ := Option.bind_eq_some_iff.mp h
  split at h
  · cases h
  · obtain rfl := Option.some.inj h
    rfl

namespace SnowflakeLine

variable (line)

-- The pieces of the derived line.
theorem exists_ampBridge (hrest : line.rest ≠ []) (idx : Nat) :
    ∃ built, ampBridge idx line.bridge = some built ∧
      built.rawPieces = "snowflake".toList :: (ampIp idx ++ ':' :: (toString line.number).toList) ::
        line.bridge.tailWith (ampValue line.bridge) := by
  have hpieces := line.rawPieces_bridge
  rw [if_neg hrest] at hpieces
  have haddress := address_of_rawPieces hpieces
  have hport : line.bridge.port = some (some line.number) := by
    simp only [Bridge.port, haddress, SnowflakeLine.lastPart_address, line.parse_port, Option.map_some]
  have hip : line.bridge.ip = some line.ip := by
    rw [Bridge.ip, haddress, Option.map_some, address, frontPart_append_cons line.notMem_port.1]
  have hbuilder := ofBridge_of_valid hport hip line.ip_ne_nil line.number_pos
  have hback : ∀ piece ∈ line.bridge.tailWith (ampValue line.bridge), ' ' ∉ piece :=
    fun piece hpiece => space_notMem_tailWith space_notMem_ampValue hpiece
  have hurl : "url".toList ++ '=' :: ampBroker ∈ line.bridge.tailWith (ampValue line.bridge) :=
    mem_tailWith_iff.mpr (.inr ⟨"url", by decide, ampBroker, rfl, by decide, rfl⟩)
  have hlength : 1 ≤ (line.bridge.tailWith (ampValue line.bridge)).length := List.length_pos_of_mem hurl
  have hbuilt := build_rawPieces hpieces (space_notMem_ampAddress idx line.number) hback
    (params_ampBuilder hbuilder rfl)
  rw [if_neg (by decide), if_pos hlength] at hbuilt
  exact ⟨_, Option.map_eq_some_iff.mpr ⟨_, hbuilder, rfl⟩, hbuilt⟩

variable {line}

theorem param_bridge {key : String} (hrest : line.rest ≠ []) (hkey : key ∈ keys) :
    line.bridge.param key =
      if startsWith key line.ip then some (lastPart '=' line.address) else found key line.rest := by
  have hpieces := line.rawPieces_bridge
  rw [if_neg hrest] at hpieces
  have hname : startsWith key "snowflake".toList = false := not_startsWith (by decide)
  rw [param_of_rawPieces hpieces, hname, if_neg Bool.false_ne_true, address,
    startsWith_colon (notMem_keys key hkey).2.1]

end SnowflakeLine

theorem ne_of_startsWith {key other : String} {text : List Char}
    (h : startsWith key (other.toList ++ '=' :: text) = false) : other ≠ key := by
  rintro rfl
  rw [startsWith_iff.mpr ⟨text, rfl⟩] at h
  cases h

theorem startsWith_of_ne {key other : String} (text : List Char) (hkey : '=' ∉ key.toList) (hother : '=' ∉ other.toList)
    (hne : other ≠ key) : startsWith key (other.toList ++ '=' :: text) = false := by
  rw [← Bool.not_eq_true, startsWith_named hkey hother]
  exact hne

theorem eq_of_named {key other : String} {value text : List Char} (hkey : key ∈ keys) (hother : other ∈ keys)
    (htext : '=' ∉ text) (h : key.toList ++ '=' :: value = other.toList ++ '=' :: text) :
    other = key ∧ lastPart '=' (key.toList ++ '=' :: value) = text := by
  have hstarts : startsWith key (other.toList ++ '=' :: text) = true := startsWith_iff.mpr ⟨value, h.symm⟩
  rw [startsWith_named (notMem_keys key hkey).1 (notMem_keys other hother).1] at hstarts
  refine ⟨hstarts, ?_⟩
  rw [h, lastPart_append_cons, lastPart_eq_self htext]

-- What is left of the original parameters.
theorem mem_tailWith_ampValue_iff {piece : List Char} (hurl : startsWith "url" piece = false)
    (hfronts : startsWith "fronts" piece = false) :
    piece ∈ bridge.tailWith (ampValue bridge) ↔ bridge.fingerprint1 = some piece ∨
      ∃ key ∈ keys, ∃ text, bridge.param key = some text ∧ text ≠ [] ∧ piece = key.toList ++ '=' :: text := by
  rw [mem_tailWith_iff]
  refine or_congr_right (exists_congr fun key => and_congr_right fun _ => exists_congr fun text => ?_)
  refine and_congr_left fun h => ?_
  obtain ⟨_, rfl⟩ := h
  rw [ampValue, if_neg (ne_of_startsWith hurl), if_neg (ne_of_startsWith hfronts)]

namespace SnowflakeLine

-- A value that is read stands behind the address, with its key.
theorem Known.mem_of_param (hknown : line.Known) {key : String} {text : List Char} (hkey : key ∈ keys)
    (hurl : key ≠ "url") (hfronts : key ≠ "fronts") (h : line.bridge.param key = some text) :
    key.toList ++ '=' :: text ∈ line.rest := by
  have hstarts : ∃ piece ∈ line.rest, startsWith key piece = true := by
    have hparam := param_bridge hknown.rest hkey
    split at hparam
    · rename_i hip
      exact hknown.address key hkey hurl hfronts hip
    · obtain ⟨piece, hfind, _⟩ := Option.map_eq_some_iff.mp (hparam.symm.trans h)
      exact ⟨piece, List.mem_of_find?_eq_some hfind, List.find?_some hfind⟩
  obtain ⟨piece, hpiece, hstarts⟩ := hstarts
  have hsingle := hknown.single key hkey hurl hfronts piece hpiece hstarts
  obtain ⟨value, rfl⟩ := startsWith_iff.mp hstarts
  have hchars := (notMem_keys key hkey).1
  obtain ⟨other, hother, last, _, hequals, hsame⟩ := hknown.known _ hpiece (by simp)
    (startsWith_of_ne value (by decide) hchars hurl) (startsWith_of_ne value (by decide) hchars hfronts)
  obtain ⟨rfl, hlast⟩ := eq_of_named hkey hother hequals hsame
  rw [Option.some.inj (h.symm.trans hsingle), hlast, ← hsame]
  exact hpiece

theorem Known.mem_iff (hknown : line.Known) {piece : List Char} (hne : piece ≠ [])
    (hurl : startsWith "url" piece = false) (hfronts : startsWith "fronts" piece = false) :
    piece ∈ line.bridge.tailWith (ampValue line.bridge) ↔ piece ∈ line.rest := by
  rw [mem_tailWith_ampValue_iff hurl hfronts]
  constructor
  · rintro (hfingerprint | ⟨key, hkey, text, hparam, _, rfl⟩)
    · have hpieces := line.rawPieces_bridge
      rw [if_neg hknown.rest] at hpieces
      rw [fingerprint1_of_rawPieces hpieces] at hfingerprint
      exact List.mem_of_head? (Option.filter_eq_some_iff.mp hfingerprint).1
    · exact hknown.mem_of_param hkey (ne_of_startsWith hurl) (ne_of_startsWith hfronts) hparam
  · intro hmem
    by_cases hequals : '=' ∈ piece
    · obtain ⟨key, hkey, value, hvalue, hlast, rfl⟩ := hknown.known piece hmem hequals hurl hfronts
      have hsingle := hknown.single key hkey (ne_of_startsWith hurl) (ne_of_startsWith hfronts) _ hmem
        (startsWith_iff.mpr ⟨value, rfl⟩)
      rw [(eq_of_named hkey hkey hlast rfl).2] at hsingle
      exact .inr ⟨key, hkey, value, hsingle, hvalue, rfl⟩
    · exact .inl (hknown.plain piece hmem hne hequals)

theorem known_of_mem_iff (hrest : line.rest ≠ []) (hport : line.port = (toString line.number).toList)
    (h : ∀ piece ≠ [], startsWith "url" piece = false → startsWith "fronts" piece = false →
      (piece ∈ line.bridge.tailWith (ampValue line.bridge) ↔ piece ∈ line.rest)) : line.Known := by
  have hread : ∀ piece ∈ line.rest, piece ≠ [] → startsWith "url" piece = false → startsWith "fronts" piece = false →
      line.bridge.fingerprint1 = some piece ∨ ∃ key ∈ keys, ∃ text,
        line.bridge.param key = some text ∧ text ≠ [] ∧ piece = key.toList ++ '=' :: text :=
    fun piece hpiece hne hurl hfronts =>
      (mem_tailWith_ampValue_iff hurl hfronts).mp ((h piece hne hurl hfronts).mpr hpiece)
  have hlast : ∀ {key : String} {text : List Char}, line.bridge.param key = some text → '=' ∉ text := by
    intro key text hparam
    obtain ⟨piece, _, rfl⟩ := Option.map_eq_some_iff.mp hparam
    exact notMem_lastPart '=' piece
  refine ⟨hrest, hport, fun piece hpiece hne hequals => ?_, fun piece hpiece hequals hurl hfronts => ?_,
    fun key hkey hurl hfronts piece hpiece hstarts => ?_, fun key hkey hurl hfronts hip => ?_⟩
  · refine (hread piece hpiece hne (not_startsWith hequals) (not_startsWith hequals)).resolve_right ?_
    rintro ⟨key, _, text, _, _, rfl⟩
    exact hequals (by simp)
  · obtain hfingerprint | ⟨key, hkey, text, hparam, htext, hsame⟩ :=
      hread piece hpiece (List.ne_nil_of_mem hequals) hurl hfronts
    · exact absurd hequals (fingerprint1_eq_some hfingerprint).2.2.1
    · exact ⟨key, hkey, text, htext, hlast hparam, hsame⟩
  · obtain ⟨value, rfl⟩ := startsWith_iff.mp hstarts
    have hchars := (notMem_keys key hkey).1
    obtain hfingerprint | ⟨other, hother, text, hparam, _, hsame⟩ := hread _ hpiece (by simp)
      (startsWith_of_ne value (by decide) hchars hurl) (startsWith_of_ne value (by decide) hchars hfronts)
    · exact absurd (by simp) (fingerprint1_eq_some hfingerprint).2.2.1
    · obtain ⟨rfl, hvalue⟩ := eq_of_named hkey hother (hlast hparam) hsame
      rw [hvalue, hparam]
  · have hchars := (notMem_keys key hkey).1
    have hparam := param_bridge hrest hkey
    rw [if_pos hip] at hparam
    have hne : lastPart '=' line.address ≠ [] := by
      rw [address, lastPart_append]
      · simp
      · rw [List.mem_cons, not_or]
        exact ⟨by decide, line.notMem_port.2.1⟩
    have hurl := startsWith_of_ne (lastPart '=' line.address) (by decide) hchars hurl
    have hfronts := startsWith_of_ne (lastPart '=' line.address) (by decide) hchars hfronts
    exact ⟨_, (h _ (by simp) hurl hfronts).mp
      ((mem_tailWith_ampValue_iff hurl hfronts).mpr (.inr ⟨key, hkey, _, hparam, hne, rfl⟩)),
      startsWith_iff.mpr ⟨_, rfl⟩⟩

theorem kept_iff (line : SnowflakeLine) (idx : Nat) :
    (∃ built, ampBridge idx line.bridge = some built ∧ line.Kept built) ↔ line.Known := by
  have hcolon : ':' ∉ (toString line.number).toList := by
    rw [toList_toString]
    exact Prefs.notMem_decimal (by decide) (by decide)
  constructor
  · rintro ⟨built, hbuilt, hkept⟩
    have hrest := rest_ne_nil_of_ampBridge hbuilt
    obtain ⟨_, hsame, hpieces⟩ := line.exists_ampBridge hrest idx
    obtain rfl := Option.some.inj (hbuilt.symm.trans hsame)
    have hport := hkept.port
    have hmem := hkept.pieces
    rw [portText, address_of_rawPieces hpieces, Option.getD_some, lastPart_append_cons,
      lastPart_eq_self hcolon] at hport
    rw [hpieces] at hmem
    exact known_of_mem_iff hrest hport.symm hmem
  · intro hknown
    obtain ⟨built, hbuilt, hpieces⟩ := line.exists_ampBridge hknown.rest idx
    refine ⟨built, hbuilt, ?_, ?_, ?_, fun piece hne hurl hfronts => ?_⟩
    · rw [transport_of_rawPieces hpieces, if_neg (by decide)]
    · rw [portText, address_of_rawPieces hpieces, Option.getD_some, lastPart_append_cons, lastPart_eq_self hcolon,
        hknown.port]
    · rw [fingerprint1_of_rawPieces hpieces, fingerprint1_tailWith]
    · rw [hpieces]
      exact hknown.mem_iff hne hurl hfronts

end SnowflakeLine

-- One line for each bridge, whatever its index.
theorem getTorConfig_kept_iff (idx : Nat) (lines : List SnowflakeLine) :
    (∃ texts, getTorConfig idx (lines.map SnowflakeLine.bridge) = some texts ∧
      List.Forall₂ (fun line text => ∃ built : Bridge, text = "Bridge ".toList ++ built.raw ∧ line.Kept built)
        lines texts) ↔ ∀ line ∈ lines, line.Known := by
  induction lines generalizing idx with
  | nil => exact iff_of_true ⟨[], rfl, .nil⟩ nofun
  | cons line lines ih =>
      rw [List.forall_mem_cons, ← SnowflakeLine.kept_iff line idx, ← ih (idx + 1)]
      constructor
      · rintro ⟨texts, hconfig, hkept⟩
        obtain ⟨built, hbuilt, hconfig⟩ := Option.bind_eq_some_iff.mp hconfig
        obtain ⟨rest, hrest, hconfig⟩ := Option.bind_eq_some_iff.mp hconfig
        obtain rfl := Option.some.inj hconfig
        obtain ⟨⟨other, htext, hother⟩, hkept⟩ := List.forall₂_cons.mp hkept
        have hraw : other = built := by
          rw [Bridge.mk.injEq, List.append_cancel_left htext]
        exact ⟨⟨built, hbuilt, hraw ▸ hother⟩, rest, hrest, hkept⟩
      · rintro ⟨⟨built, hbuilt, hkept⟩, rest, hrest, hall⟩
        refine ⟨("Bridge ".toList ++ built.raw) :: rest, ?_, .cons ⟨built, rfl, hkept⟩ hall⟩
        rw [List.map_cons, getTorConfig, hbuilt, Option.bind_eq_bind, Option.bind_some, hrest]
        rfl

-- What the builder does not know is lost: a key of none of its fields, a value with =, and all but the first
-- of the values for one key.
theorem keptAll_iff (lines : List SnowflakeLine) : KeptAll lines ↔ ∀ line ∈ lines, line.Known :=
  getTorConfig_kept_iff 0 lines

def covertDtls : SnowflakeLine where
  ip := "192.0.2.3".toList
  port := "80".toList
  number := 80
  rest := ["fingerprint=2B280B23E1107BB62ABFC40DDCC8824814F80A72".toList, "covertdtls-config=mimic".toList]
  ip_ne_nil := by decide
  space_notMem_ip := by decide
  parse_port := by decide
  number_pos := by decide
  space_notMem_rest := forall_mem_of_all (by decide)

theorem not_keptAll_covertDtls : ¬KeptAll [covertDtls] := by
  intro h
  have hknown := (getTorConfig_kept_iff 0 _).mp h _ List.mem_cons_self
  have hkeys : ∀ key ∈ keys, startsWith key "covertdtls-config=mimic".toList = false := forall_mem_of_all (by decide)
  obtain ⟨key, hkey, value, _, _, hsame⟩ := hknown.known "covertdtls-config=mimic".toList
    (List.mem_cons_of_mem _ List.mem_cons_self) (by decide) (by decide) (by decide)
  have hstarts := hkeys key hkey
  rw [startsWith_iff.mpr ⟨value, hsame⟩] at hstarts
  cases hstarts

end ToInet.Circumvention.SnowflakeAmp
