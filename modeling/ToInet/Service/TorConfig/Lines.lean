import ToInet.Lib.Split
import ToInet.Service.TorConfig
import ToInet.Util.Prefs.Theorems

-- The four ports as they are read back from the text of a configuration.
namespace ToInet.Service.TorConfig

open ToInet.Lib ToInet.Util ToInet.Circumvention.GetTorConfig

-- What stands behind the keyword of a line.
def valueOf (keyword : String) (line : List Char) : Option (List Char) :=
  if line.takeWhile (· ≠ ' ') = keyword.toList then some ((line.dropWhile (· ≠ ' ')).drop 1) else none

-- The port of the first line with a keyword, behind its address where it has one.
def portIn (text : List Char) (keyword : String) : Option Int :=
  ((text.splitOn '\n').findSome? (valueOf keyword)).bind fun value =>
    Prefs.parseInt (lastPart ':' (value.takeWhile (· ≠ ' ')))

def portKeywords : List String := ["SOCKSPort", "HTTPTunnelPort", "TransPort", "DNSPort"]

def portsIn (text : List Char) : List (Option Int) := portKeywords.map (portIn text)

def Ports.numbers (p : Ports) : List (Option Int) := [p.socks, p.http, p.trans, p.dns].map Prefs.parseInt

variable {keyword other : String} {value line : List Char}

theorem takeWhile_directive (hother : ' ' ∉ other.toList) :
    (directive other value).takeWhile (· ≠ ' ') = other.toList := by
  rw [directive, List.takeWhile_append_of_pos, List.takeWhile_cons_of_neg (by decide), List.append_nil]
  intro c hc
  rw [decide_eq_true_eq]
  rintro rfl
  exact hother hc

theorem valueOf_directive (hkeyword : ' ' ∉ keyword.toList) :
    valueOf keyword (directive keyword value) = some value := by
  have hdrop : (directive keyword value).dropWhile (· ≠ ' ') = ' ' :: value := by
    rw [directive, List.dropWhile_append_of_pos, List.dropWhile_cons_of_neg (by decide)]
    intro c hc
    rw [decide_eq_true_eq]
    rintro rfl
    exact hkeyword hc
  rw [valueOf, if_pos (takeWhile_directive hkeyword), hdrop, List.drop_one, List.tail_cons]

theorem valueOf_directive_ne (hother : ' ' ∉ other.toList) (hne : other.toList ≠ keyword.toList) :
    valueOf keyword (directive other value) = none := by
  rw [valueOf, takeWhile_directive hother, if_neg hne]

-- The lines that have no port.
def plainLines : List (List Char) :=
  firstLines ++ ["SocksPolicy accept *:*", "SafeSocks 0", "TestSocks 0", "ConnectionPadding 1",
    "ReducedConnectionPadding 1", "ReducedCircuitPadding 1"].map String.toList

theorem plainLines_findSome? : ∀ keyword ∈ portKeywords, plainLines.findSome? (valueOf keyword) = none :=
  forall_mem_of_all (p := fun keyword => plainLines.findSome? (valueOf keyword) = none) (by decide +kernel)

theorem valueOf_plain (hkeyword : keyword ∈ portKeywords) (hline : line ∈ plainLines) : valueOf keyword line = none :=
  List.findSome?_eq_none_iff.mp (plainLines_findSome? keyword hkeyword) line hline

theorem firstLines_findSome? (hkeyword : keyword ∈ portKeywords) : firstLines.findSome? (valueOf keyword) = none :=
  List.findSome?_eq_none_iff.mpr fun _ hline => valueOf_plain hkeyword (List.mem_append_left _ hline)

theorem lineIf_findSome? {text : String} (condition : Bool) (hkeyword : keyword ∈ portKeywords)
    (htext : text.toList ∈ plainLines) : (lineIf condition text).findSome? (valueOf keyword) = none := by
  unfold lineIf
  split
  · rw [List.findSome?_cons, valueOf_plain hkeyword htext, List.findSome?_nil]
  · rfl

variable (prefs : TorPrefs) (p : Ports) (rest : List (List Char))

-- The lines between those of the ports have other keywords.
theorem portLines_findSome? (hkeyword : keyword ∈ portKeywords) :
    (portLines prefs p ++ rest).findSome? (valueOf keyword) =
      ([socksLine prefs p, httpLine prefs p, transLine prefs p, dnsLine prefs p] ++ rest).findSome?
        (valueOf keyword) := by
  have hif {text : String} (condition : Bool) := @lineIf_findSome? keyword text condition hkeyword
  have hsafe := @valueOf_plain keyword "SafeSocks 0".toList hkeyword (by decide)
  have htest := @valueOf_plain keyword "TestSocks 0".toList hkeyword (by decide)
  have hcircuit (value : List Char) : valueOf keyword (directive "CircuitPadding" value) = none :=
    valueOf_directive_ne (by decide)
      (forall_mem_of_all (p := fun keyword : String => "CircuitPadding".toList ≠ keyword.toList) (by decide) _ hkeyword)
  have hpolicy := hif prefs.openProxyOnAllInterfaces (show "SocksPolicy accept *:*".toList ∈ plainLines by decide)
  have hpadding := hif prefs.connectionPadding (show "ConnectionPadding 1".toList ∈ plainLines by decide)
  have hreduced := hif prefs.reducedConnectionPadding (show "ReducedConnectionPadding 1".toList ∈ plainLines by decide)
  have hreducedCircuit := hif prefs.reducedCircuitPadding (show "ReducedCircuitPadding 1".toList ∈ plainLines by decide)
  rw [portLines]
  simp only [List.findSome?_append, List.findSome?_cons, List.cons_append, List.append_assoc, List.nil_append,
    hsafe, htest, hcircuit, hpolicy, hpadding, hreduced, hreducedCircuit, Option.none_or]

theorem value_found (hkeyword : keyword ∈ portKeywords) :
    (firstLines ++ (portLines prefs p ++ rest)).findSome? (valueOf keyword) =
      ([socksLine prefs p, httpLine prefs p, transLine prefs p, dnsLine prefs p] ++ rest).findSome?
        (valueOf keyword) := by
  rw [List.findSome?_append, firstLines_findSome? hkeyword, Option.none_or, portLines_findSome? prefs p rest hkeyword]

def socksAddress : List Char := if prefs.openProxyOnAllInterfaces then "0.0.0.0:".toList else []

-- The values of the four keywords, each with its port.
theorem values_found (lines : List (List Char)) (hlines : lines = firstLines ++ (portLines prefs p ++ rest)) :
    lines.findSome? (valueOf "SOCKSPort") = some (socksAddress prefs ++ p.socks ++
        ' ' :: (getIpv6 prefs ++ ' ' :: (getIsolation prefs ++ " OptimisticData".toList))) ∧
      lines.findSome? (valueOf "HTTPTunnelPort") = some (p.http ++ ' ' :: getIsolation prefs) ∧
      lines.findSome? (valueOf "TransPort") = some (p.trans ++ ' ' :: getIsolation prefs) ∧
      lines.findSome? (valueOf "DNSPort") = some (p.dns ++ ' ' :: getIsolation prefs) := by
  subst hlines
  have hskip {keyword other : String} (value : List Char) := @valueOf_directive_ne keyword other value
  refine ⟨?_, ?_, ?_, ?_⟩
  · rw [value_found prefs p rest (by decide), List.cons_append, List.findSome?_cons, socksLine,
      valueOf_directive (by decide), socksAddress]
  · rw [value_found prefs p rest (by decide), List.cons_append, List.findSome?_cons, socksLine,
      hskip _ (by decide) (by decide), List.cons_append, List.findSome?_cons, httpLine, valueOf_directive (by decide)]
  · rw [value_found prefs p rest (by decide), List.cons_append, List.findSome?_cons, socksLine,
      hskip _ (by decide) (by decide), List.cons_append, List.findSome?_cons, httpLine,
      hskip _ (by decide) (by decide), List.cons_append, List.findSome?_cons, transLine, valueOf_directive (by decide)]
  · rw [value_found prefs p rest (by decide), List.cons_append, List.findSome?_cons, socksLine,
      hskip _ (by decide) (by decide), List.cons_append, List.findSome?_cons, httpLine,
      hskip _ (by decide) (by decide), List.cons_append, List.findSome?_cons, transLine,
      hskip _ (by decide) (by decide), List.cons_append, List.findSome?_cons, dnsLine, valueOf_directive (by decide)]

theorem notMem_directive (hkeyword : '\n' ∉ keyword.toList) (hvalue : '\n' ∉ value) :
    '\n' ∉ directive keyword value := by
  rw [directive, List.mem_append, List.mem_cons]
  rintro (hmem | hspace | hmem)
  · exact hkeyword hmem
  · exact absurd hspace (by decide)
  · exact hvalue hmem

theorem notMem_words {list : List (Bool × String)} (hlist : ∀ word ∈ list, '\n' ∉ word.2.toList) :
    '\n' ∉ words list := by
  intro hmem
  obtain hspace | ⟨part, hpart, hmem⟩ := mem_intercalate hmem
  · exact absurd hspace (by decide)
  · obtain ⟨word, hword, rfl⟩ := List.mem_map.mp hpart
    exact hlist word (List.mem_of_mem_filter hword) hmem

theorem notMem_getIsolation : '\n' ∉ getIsolation prefs := by
  apply notMem_words
  simp only [List.forall_mem_cons]
  exact ⟨by decide, by decide, by decide, by decide, List.forall_mem_nil _⟩

theorem notMem_getIpv6 : '\n' ∉ getIpv6 prefs := by
  apply notMem_words
  simp only [List.forall_mem_cons]
  exact ⟨by decide, by decide, by decide, List.forall_mem_nil _⟩

theorem notMem_lineIf {text : String} (condition : Bool) (htext : '\n' ∉ text.toList) :
    ∀ line ∈ lineIf condition text, '\n' ∉ line := by
  unfold lineIf
  split
  · exact List.forall_mem_singleton.mpr htext
  · exact List.forall_mem_nil _

variable {p}

theorem notMem_portLines (hports : ∀ port ∈ [p.socks, p.http, p.trans, p.dns], '\n' ∉ port) :
    ∀ line ∈ portLines prefs p, '\n' ∉ line := by
  have hisolation := notMem_getIsolation prefs
  have hipv6 := notMem_getIpv6 prefs
  simp only [List.forall_mem_cons] at hports
  obtain ⟨hsocks, hhttp, htrans, hdns, -⟩ := hports
  have hsocksLine : '\n' ∉ socksLine prefs p := by
    have haddress : '\n' ∉ if prefs.openProxyOnAllInterfaces then "0.0.0.0:".toList else [] := by
      cases prefs.openProxyOnAllInterfaces <;> decide
    apply notMem_directive (by decide)
    simp only [List.mem_append, List.mem_cons, not_or]
    exact ⟨⟨haddress, hsocks⟩, by decide, hipv6, by decide, hisolation, by decide⟩
  have hisolated {keyword : String} {port : List Char} (hkeyword : '\n' ∉ keyword.toList) (hport : '\n' ∉ port) :
      '\n' ∉ directive keyword (port ++ ' ' :: getIsolation prefs) := by
    apply notMem_directive hkeyword
    simp only [List.mem_append, List.mem_cons, not_or]
    exact ⟨hport, by decide, hisolation⟩
  have hcircuit : '\n' ∉ directive "CircuitPadding" (flag prefs.circuitPadding) := by
    apply notMem_directive (by decide)
    cases prefs.circuitPadding <;> decide
  have hif {text : String} (condition : Bool) := @notMem_lineIf text condition
  rw [portLines]
  simp only [List.forall_mem_cons, List.forall_mem_append]
  exact ⟨hsocksLine, ⟨⟨⟨⟨⟨hif _ (by decide), by decide, by decide, hisolated (by decide) hhttp, List.forall_mem_nil _⟩,
    hif _ (by decide)⟩, hif _ (by decide)⟩, hcircuit, List.forall_mem_nil _⟩, hif _ (by decide)⟩,
    hisolated (by decide) htrans, hisolated (by decide) hdns, List.forall_mem_nil _⟩

-- A port that is a number is read back as it stands, with an address in front or without.
theorem parseInt_value {port : List Char} {n : Int} (address behind : List Char) (h : Prefs.parseInt port = some n)
    (haddress : address = [] ∨ address = "0.0.0.0:".toList) :
    Prefs.parseInt (lastPart ':' ((address ++ port ++ ' ' :: behind).takeWhile (· ≠ ' '))) = some n := by
  have hspace : ' ' ∉ address ++ port := by
    obtain rfl | rfl := haddress
    · exact Prefs.notMem_of_parseInt h (by decide) (by decide)
    · rw [List.mem_append, not_or]
      exact ⟨by decide, Prefs.notMem_of_parseInt h (by decide) (by decide)⟩
  have hcolon : ':' ∉ port := Prefs.notMem_of_parseInt h (by decide) (by decide)
  have htake : (address ++ port ++ ' ' :: behind).takeWhile (· ≠ ' ') = address ++ port := by
    rw [List.takeWhile_append_of_pos, List.takeWhile_cons_of_neg (by decide), List.append_nil]
    intro c hc
    rw [decide_eq_true_eq]
    rintro rfl
    exact hspace hc
  rw [htake]
  obtain rfl | rfl := haddress
  · rw [List.nil_append, lastPart_eq_self hcolon, h]
  · rw [show "0.0.0.0:".toList = "0.0.0.0".toList ++ [':'] from rfl, List.append_assoc, List.singleton_append,
      lastPart_append_cons, lastPart_eq_self hcolon, h]

variable {prefs} {answers : Int → Bool} {files : Files} {platform : UriPlatform} {sources : Sources} {text : List Char}

-- The configuration says the ports that have been found.
theorem portsIn_build (hp : ports answers prefs = some p) (hnumbers : ∀ port ∈ p.numbers, port.isSome = true)
    (h : build prefs files answers platform sources = some text) : portsIn text = p.numbers := by
  obtain ⟨lines, hconf, rfl⟩ := Option.map_eq_some_iff.mp h
  obtain ⟨other, hother, hconf⟩ := Option.bind_eq_some_iff.mp hconf
  obtain rfl := Option.some.inj (hp.symm.trans hother)
  obtain ⟨transportLines, -, hconf⟩ := Option.bind_eq_some_iff.mp hconf
  obtain rfl := Option.some.inj hconf
  simp only [Ports.numbers, List.map_cons, List.map_nil, List.forall_mem_cons] at hnumbers
  obtain ⟨hsocks, hhttp, htrans, hdns, -⟩ := hnumbers
  obtain ⟨socks, hsocks⟩ := Option.isSome_iff_exists.mp hsocks
  obtain ⟨http, hhttp⟩ := Option.isSome_iff_exists.mp hhttp
  obtain ⟨trans, htrans⟩ := Option.isSome_iff_exists.mp htrans
  obtain ⟨dns, hdns⟩ := Option.isSome_iff_exists.mp hdns
  have hbreak {port : List Char} {n : Int} (h : Prefs.parseInt port = some n) : '\n' ∉ port :=
    Prefs.notMem_of_parseInt h (by decide) (by decide)
  have hlines : ∀ line ∈ firstLines ++ portLines prefs p, '\n' ∉ line := by
    rw [List.forall_mem_append]
    refine ⟨forall_mem_of_all (by decide), notMem_portLines prefs ?_⟩
    simp only [List.forall_mem_cons]
    exact ⟨hbreak hsocks, hbreak hhttp, hbreak htrans, hbreak hdns, List.forall_mem_nil _⟩
  have hrest : middleLines prefs ++ (transportLines ++ lastLines prefs files) ≠ [] := List.cons_ne_nil _ _
  have hsplit := splitOn_intercalate_append hlines hrest
  simp only [List.append_assoc] at hsplit
  obtain ⟨hsocksValue, hhttpValue, htransValue, hdnsValue⟩ := values_found prefs p _ _ hsplit
  have hbare {port : List Char} {n : Int} (h : Prefs.parseInt port = some n) :=
    parseInt_value [] (getIsolation prefs) h (.inl rfl)
  have haddress : socksAddress prefs = [] ∨ socksAddress prefs = "0.0.0.0:".toList := by
    cases hall : prefs.openProxyOnAllInterfaces <;> simp [socksAddress, hall]
  simp only [List.nil_append] at hbare
  simp only [portsIn, portKeywords, List.map_cons, List.map_nil, portIn, Ports.numbers, List.append_assoc]
  rw [hsocksValue, hhttpValue, htransValue, hdnsValue, Option.bind_some, Option.bind_some, Option.bind_some,
    Option.bind_some, parseInt_value _ _ hsocks haddress, hbare hhttp, hbare htrans, hbare hdns, hsocks, hhttp, htrans,
    hdns]

end ToInet.Service.TorConfig
