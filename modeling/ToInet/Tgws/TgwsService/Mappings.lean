import ToInet.Tgws.TgwsService
import ToInet.Util.Prefs.Theorems

-- Which mappings of data centers come through the preferences and the intent as they are.
namespace ToInet.Tgws.TgwsService

open ToInet.Lib ToInet.Util

variable {mapping : LinkedMap Int String}

theorem readMapping_write {key : Int} (hkey : FitsInt32 key) (value : String) :
    readMapping (toString key ++ ":" ++ value) =
      some (key, String.ofList (value.toList.takeWhile (· ≠ ':'))) := by
  have htext : (toString key ++ ":" ++ value).toList = decimal key ++ ':' :: value.toList := by
    rw [String.toList_append, String.toList_append, toList_toString, List.append_assoc]
    rfl
  have hvalue : (decimal key :: value.toList.splitOn ':')[1]? = some (value.toList.takeWhile (· ≠ ':')) := by
    rw [List.getElem?_cons_succ, ← List.head?_eq_getElem?, head?_splitOn]
  simp only [readMapping, htext, Prefs.splitOn_line, List.getD_cons_zero, Prefs.parseInt_decimal hkey, hvalue]
  rfl

theorem onStartCommand_start (port : Int) (secret : String) (useByeDpi : Bool)
    (cfWorkerDomains cfProxyDomains : List String) (h : ∀ entry ∈ mapping.entries, FitsInt32 entry.1) :
    ∃ core, onStartCommand (some (start port mapping secret useByeDpi cfWorkerDomains cfProxyDomains)) = some core ∧
      core.dcMappings.entries = mapping.entries.map fun entry =>
        (entry.1, String.ofList (entry.2.toList.takeWhile (· ≠ ':'))) := by
  obtain ⟨result, hresult, hentries⟩ := LinkedMap.associate_map
    (fun value : String => String.ofList (value.toList.takeWhile (· ≠ ':')))
    fun entry hentry => readMapping_write (h entry hentry) entry.2
  have hread : LinkedMap.associate readMapping ((Option.map Extras.dcMappings (some
      (start port mapping secret useByeDpi cfWorkerDomains cfProxyDomains))).getD []) = some result := hresult
  rw [onStartCommand, hread]
  exact ⟨_, rfl, hentries⟩

-- The texts of addresses of both kinds.
def IsAddress (text : String) : Prop :=
  (IpLiteral.ipv4 text.toList).isSome ∨ (IpLiteral.ipv6 text.toList).isSome

theorem isAddressChar_of_isAddress {text : String} (h : IsAddress text) :
    ∀ c ∈ text.toList, IpLiteral.IsAddressChar c := by
  obtain hfour | hsix := h
  · obtain ⟨bytes, hbytes⟩ := Option.isSome_iff_exists.mp hfour
    exact IpLiteral.isAddressChar_of_ipv4 hbytes
  · obtain ⟨bytes, hbytes⟩ := Option.isSome_iff_exists.mp hsix
    exact IpLiteral.isAddressChar_of_ipv6 hbytes

-- Only an IPv4 address has no colon.
theorem colon_notMem_iff {text : String} (h : IsAddress text) :
    ':' ∉ text.toList ↔ (IpLiteral.ipv4 text.toList).isSome := by
  constructor
  · intro hcolon
    obtain hfour | hsix := h
    · exact hfour
    · obtain ⟨bytes, hbytes⟩ := Option.isSome_iff_exists.mp hsix
      exact absurd (IpLiteral.colon_mem_of_ipv6 hbytes) hcolon
  · intro hfour
    obtain ⟨bytes, hbytes⟩ := Option.isSome_iff_exists.mp hfour
    exact IpLiteral.colon_notMem_of_ipv4 hbytes

theorem trim_takeWhile {text : String} (h : IsAddress text) :
    Prefs.trim (text.toList.takeWhile (· ≠ ':')) = text.toList.takeWhile (· ≠ ':') := by
  refine Prefs.trim_eq_self fun c hc => ?_
  have hrange := (isAddressChar_of_isAddress h c (List.takeWhile_subset _ hc)).range
  exact Prefs.isWhitespace_of_le (by omega) (by omega)

theorem newline_notMem {text : String} (h : IsAddress text) : '\n' ∉ text.toList := by
  intro hmem
  exact absurd (isAddressChar_of_isAddress h '\n' hmem).range.1 (by decide)

-- A map whose values are cut at their colons is the same only where there are no colons.
theorem eq_iff_of_cut {result : LinkedMap Int String}
    (h : result.entries = mapping.entries.map fun entry =>
      (entry.1, String.ofList (entry.2.toList.takeWhile (· ≠ ':')))) :
    result = mapping ↔ ∀ entry ∈ mapping.entries, ':' ∉ entry.2.toList := by
  have hsame : result = mapping ↔ result.entries = mapping.entries :=
    ⟨fun heq => heq ▸ rfl, LinkedMap.ext⟩
  rw [hsame, h]
  nth_rewrite 2 [← List.map_id mapping.entries]
  rw [List.map_inj_left]
  refine forall₂_congr fun entry _ => ?_
  rw [id, Prod.ext_iff, and_iff_right rfl, ← String.toList_inj, String.toList_ofList, List.takeWhile_eq_self_iff]
  simp only [decide_eq_true_eq]
  exact ⟨fun hall hmem => hall ':' hmem rfl, fun hcolon c hc hsame => hcolon (hsame ▸ hc)⟩

-- The mapping comes back from the preferences and gets to the core exactly when all its addresses
-- are IPv4 ones.
theorem dcMappings_kept_iff (texts : FloatTexts) (prefs : SharedPreferences) (port : Int) (secret : String)
    (useByeDpi : Bool) (cfWorkerDomains cfProxyDomains : List String) (mapping : LinkedMap Int String)
    (h : ∀ entry ∈ mapping.entries, FitsInt32 entry.1 ∧ IsAddress entry.2) :
    (Prefs.tgwsDcMappings texts (Prefs.setTgwsDcMappings prefs mapping) = some mapping ∧
      (onStartCommand (some (start port mapping secret useByeDpi cfWorkerDomains cfProxyDomains))).map
        TgwsCore.dcMappings = some mapping) ↔
      ∀ entry ∈ mapping.entries, (IpLiteral.ipv4 entry.2.toList).isSome := by
  obtain ⟨stored, hstored, hentries⟩ := Prefs.tgwsDcMappings_set texts prefs
    fun entry hentry => ⟨(h entry hentry).1, newline_notMem (h entry hentry).2⟩
  obtain ⟨core, hcore, hmappings⟩ := onStartCommand_start port secret useByeDpi cfWorkerDomains cfProxyDomains
    fun entry hentry => (h entry hentry).1
  have hcut : stored.entries = mapping.entries.map fun entry =>
      (entry.1, String.ofList (entry.2.toList.takeWhile (· ≠ ':'))) := by
    rw [hentries]
    exact List.map_congr_left fun entry hentry => by rw [trim_takeWhile (h entry hentry).2]
  rw [hstored, hcore, Option.map_some, Option.some_inj, Option.some_inj, eq_iff_of_cut hcut, eq_iff_of_cut hmappings,
    and_self]
  exact forall₂_congr fun entry hentry => colon_notMem_iff (h entry hentry).2

-- One data center with an address.
def single (address : String) : LinkedMap Int String := ⟨[(2, address)], List.nodup_singleton 2⟩

def noTexts : FloatTexts := ⟨fun _ => "", fun _ => ""⟩

theorem dcMappings_kept_single :
    Prefs.tgwsDcMappings noTexts (Prefs.setTgwsDcMappings ∅ (single "149.154.167.220")) =
        some (single "149.154.167.220") ∧
      (onStartCommand (some (start 1480 (single "149.154.167.220") "" false [] []))).map TgwsCore.dcMappings =
        some (single "149.154.167.220") :=
  (dcMappings_kept_iff noTexts ∅ 1480 "" false [] [] (single "149.154.167.220")
    (List.forall_mem_singleton.mpr ⟨by decide, .inl (by decide)⟩)).mpr (List.forall_mem_singleton.mpr (by decide))

-- Of an IPv6 address the text up to its first colon is left.
theorem not_dcMappings_kept :
    IsAddress "2001:db8::1" ∧
      ¬(Prefs.tgwsDcMappings noTexts (Prefs.setTgwsDcMappings ∅ (single "2001:db8::1")) =
          some (single "2001:db8::1") ∧
        (onStartCommand (some (start 1480 (single "2001:db8::1") "" false [] []))).map TgwsCore.dcMappings =
          some (single "2001:db8::1")) := by
  have hkeys : ∀ entry ∈ (single "2001:db8::1").entries, FitsInt32 entry.1 := by decide
  refine ⟨.inr (by decide), fun ⟨_, hcore⟩ => ?_⟩
  obtain ⟨core, hstart, hentries⟩ := onStartCommand_start 1480 "" false [] [] hkeys
  rw [hstart, Option.map_some, Option.some_inj] at hcore
  rw [hcore] at hentries
  exact absurd hentries (by decide)

end ToInet.Tgws.TgwsService
