import ToInet.Circumvention.Bridge.Build

-- What is read from the line that the builder writes for a bridge.
namespace ToInet.Circumvention.Bridge

open ToInet.Lib ToInet.Util

variable {bridge built : Bridge} {builder : Builder} {key : String} {first host digits : List Char}
  {rest : List (List Char)} {n : Int}

theorem parseInt_toString (hparse : Prefs.parseInt digits = some n) : Prefs.parseInt (toString n).toList = some n := by
  rw [toList_toString]
  exact Prefs.parseInt_decimal (Prefs.parseInt_eq_some hparse).1

-- Neither the keys nor the fronts are parted in a port.
theorem notMem_port (hparse : Prefs.parseInt digits = some n) :
    ':' ∉ digits ∧ '=' ∉ ':' :: digits ∧ ',' ∉ ':' :: digits := by
  refine ⟨Prefs.notMem_of_parseInt hparse (by decide) (by decide), ?_, ?_⟩
  · rw [List.mem_cons, not_or]
    exact ⟨by decide, Prefs.notMem_of_parseInt hparse (by decide) (by decide)⟩
  · rw [List.mem_cons, not_or]
    exact ⟨by decide, Prefs.notMem_of_parseInt hparse (by decide) (by decide)⟩

theorem lastPart_address (hparse : Prefs.parseInt digits = some n) :
    lastPart '=' (host ++ ':' :: digits) = lastPart '=' host ++ ':' :: digits :=
  lastPart_append (notMem_port hparse).2.1

-- The names that stand in an address: its port belongs to the last one.
theorem splitOn_address (hparse : Prefs.parseInt digits = some n) :
    (lastPart '=' (host ++ ':' :: digits)).splitOn ',' =
      ((lastPart '=' host).splitOn ',').dropLast ++ [lastPart ',' (lastPart '=' host) ++ ':' :: digits] := by
  rw [lastPart_address hparse]
  exact splitOn_append (notMem_port hparse).2.2

theorem portKept_iff (haddress : bridge.address = some (host ++ ':' :: digits))
    (hparse : Prefs.parseInt digits = some n) :
    PortKept bridge key ↔ digits = (toString n).toList ∨ key = "fronts" ∧
      lastPart ',' (lastPart '=' host) ++ ':' :: digits ∈ ((lastPart '=' host).splitOn ',').dropLast ∧
      lastPart ',' (lastPart '=' host) ++ ':' :: (toString n).toList ∈ ((lastPart '=' host).splitOn ',').dropLast := by
  have hcolon := (notMem_port hparse).1
  have htext : bridge.portText = digits := by
    rw [portText, haddress, Option.getD_some, lastPart_append_cons, lastPart_eq_self hcolon]
  have hnames : (lastPart '=' (bridge.address.getD [])).splitOn ',' =
      ((lastPart '=' host).splitOn ',').dropLast ++ [lastPart ',' (lastPart '=' host) ++ ':' :: digits] := by
    rw [haddress, Option.getD_some, splitOn_address hparse]
  simp only [PortKept, htext, hnames, List.getLastD_concat, List.dropLast_concat, frontPart_append_cons hcolon, hparse,
    Option.some.injEq, exists_eq_left']

-- A list whose last element is replaced has the same elements when nothing changes or both are among the others.
theorem forall_mem_concat_iff {α : Type} {names : List α} {last other : α} :
    (∀ name, name ∈ names ++ [other] ↔ name ∈ names ++ [last]) ↔ last = other ∨ last ∈ names ∧ other ∈ names := by
  constructor
  · intro h
    have hlast := (h last).mpr (List.mem_append_right _ List.mem_cons_self)
    have hother := (h other).mp (List.mem_append_right _ List.mem_cons_self)
    rw [List.mem_append, List.mem_singleton] at hlast hother
    obtain hlast | hsame := hlast
    · obtain hother | hsame := hother
      · exact .inr ⟨hlast, hother⟩
      · exact .inl hsame.symm
    · exact .inl hsame
  · rintro (rfl | ⟨hlast, hother⟩) name
    · rfl
    · rw [List.mem_append, List.mem_append, List.mem_singleton, List.mem_singleton]
      constructor
      · rintro (hname | rfl)
        · exact .inl hname
        · exact .inl hother
      · rintro (hname | rfl)
        · exact .inl hname
        · exact .inl hlast

theorem fronts_of_param {value : Option (List Char)} (h : bridge.param "fronts" = value) :
    bridge.fronts.getD [] = (value.map fun value => (value.splitOn ',').filter (· ≠ [])).getD [] := by
  rw [fronts, h]

-- Fronts that are written are read again.
theorem mem_fronts_of_written (h : built.param "fronts" = (bridge.written "fronts").filter (· ≠ []))
    (name : List Char) :
    name ∈ built.fronts.getD [] ↔ name ∈ bridge.fronts.getD [] := by
  rw [fronts_of_param h, ← mem_frontSet, written, if_pos rfl]
  by_cases hnil : bridge.frontSet = []
  · rw [if_pos hnil, hnil]
    rfl
  · have hparts : ([','].intercalate bridge.frontSet).splitOn ',' = bridge.frontSet :=
      List.splitOn_intercalate ',' (fun name hname => (mem_fronts (mem_frontSet.mp hname)).2.1) hnil
    have hne : [','].intercalate bridge.frontSet ≠ [] := by
      intro hjoined
      rw [hjoined] at hparts
      have hmem : [] ∈ bridge.frontSet := by
        rw [← hparts]
        exact List.mem_cons_self
      exact (mem_fronts (mem_frontSet.mp hmem)).1 rfl
    rw [if_neg hnil, Option.filter_some, if_pos (decide_eq_true hne), Option.map_some, Option.getD_some, hparts,
      List.mem_filter]
    exact and_iff_left_of_imp fun hmem => decide_eq_true (mem_fronts (mem_frontSet.mp hmem)).1

-- A pair of lines of which the second one is written for the first.
structure Written (bridge built : Bridge) (first host digits : List Char) (rest : List (List Char)) (n : Int) :
    Prop where
  pieces : bridge.rawPieces = first :: (host ++ ':' :: digits) :: rest
  parse : Prefs.parseInt digits = some n
  built : built.rawPieces = first :: (host ++ ':' :: (toString n).toList) :: bridge.tail

namespace Written

variable (h : Written bridge built first host digits rest n)
include h

theorem transport : built.transport = bridge.transport := by
  rw [transport_of_rawPieces h.built, transport_of_rawPieces h.pieces]

theorem ip : built.ip = bridge.ip := by
  rw [Bridge.ip, Bridge.ip, address_of_rawPieces h.built, address_of_rawPieces h.pieces, Option.map_some,
    Option.map_some, frontPart_append_cons (notMem_port h.parse).1,
    frontPart_append_cons (notMem_port (parseInt_toString h.parse)).1]

theorem port : built.port = bridge.port := by
  rw [Bridge.port, Bridge.port, address_of_rawPieces h.built, address_of_rawPieces h.pieces]
  simp only [lastPart_append_cons, lastPart_eq_self (notMem_port h.parse).1,
    lastPart_eq_self (notMem_port (parseInt_toString h.parse)).1, h.parse, parseInt_toString h.parse]

theorem fingerprint1 : built.fingerprint1 = bridge.fingerprint1 := by
  rw [fingerprint1_of_rawPieces h.built]
  exact fingerprint1_tailWith bridge bridge.written

theorem param (hkey : key ∈ keys) :
    built.param key =
      if startsWith key first then some (lastPart '=' first)
      else if startsWith key host then some (lastPart '=' host ++ ':' :: (toString n).toList)
      else (bridge.written key).filter (· ≠ []) := by
  rw [param_of_rawPieces h.built, startsWith_colon (notMem_keys key hkey).2.1,
    lastPart_address (parseInt_toString h.parse), found_tail hkey]

theorem param_before (hkey : key ∈ keys) :
    bridge.param key =
      if startsWith key first then some (lastPart '=' first)
      else if startsWith key host then some (lastPart '=' host ++ ':' :: digits) else found key rest := by
  rw [param_of_rawPieces h.pieces, startsWith_colon (notMem_keys key hkey).2.1, lastPart_address h.parse]

theorem param_iff (hkey : key ∈ keys) (hfronts : key ≠ "fronts") :
    built.param key = bridge.param key ↔
      (bridge.param key = some [] → startsWith key first = true) ∧
        (startsWith key host = true → startsWith key first = false → digits = (toString n).toList) := by
  have hbefore := h.param_before hkey
  rw [h.param hkey, written, if_neg hfronts]
  by_cases hfirst : startsWith key first = true
  · rw [if_pos hfirst] at hbefore ⊢
    simp [hbefore, hfirst]
  · rw [if_neg hfirst] at hbefore ⊢
    rw [Bool.not_eq_true] at hfirst
    by_cases hhost : startsWith key host = true
    · rw [if_pos hhost] at hbefore ⊢
      have hne : lastPart '=' host ++ ':' :: digits ≠ [] := by simp
      simp only [hbefore, hfirst, hhost, Option.some.injEq, List.append_cancel_left_eq, List.cons.injEq, true_and, hne,
        false_implies, forall_const]
      exact eq_comm
    · rw [if_neg hhost] at hbefore ⊢
      -- what has no key in front is written as it was read, unless it is empty
      simp only [hfirst, hhost, Bool.false_eq_true, false_implies, and_true, imp_false]
      cases hparam : bridge.param key with
      | none => exact iff_of_true rfl nofun
      | some text =>
          rw [Option.filter_some, Option.some.injEq]
          by_cases htext : text = []
          · rw [htext]
            exact iff_of_false nofun fun hne => hne rfl
          · rw [if_pos (decide_eq_true htext)]
            exact iff_of_true rfl htext

-- The last of the names in the address, with its port.
theorem fronts_iff :
    (∀ name, name ∈ built.fronts.getD [] ↔ name ∈ bridge.fronts.getD []) ↔
      (startsWith "fronts" host = true → startsWith "fronts" first = false → digits = (toString n).toList ∨
        lastPart ',' (lastPart '=' host) ++ ':' :: digits ∈ ((lastPart '=' host).splitOn ',').dropLast ∧
        lastPart ',' (lastPart '=' host) ++ ':' :: (toString n).toList ∈
          ((lastPart '=' host).splitOn ',').dropLast) := by
  have hkey : "fronts" ∈ keys := by decide
  have hbefore := h.param_before hkey
  have hafter := h.param hkey
  by_cases hfirst : startsWith "fronts" first = true
  · rw [if_pos hfirst] at hbefore hafter
    rw [fronts_of_param hbefore, fronts_of_param hafter, hfirst]
    exact iff_of_true (fun _ => Iff.rfl) nofun
  · rw [if_neg hfirst] at hbefore hafter
    rw [Bool.not_eq_true] at hfirst
    by_cases hhost : startsWith "fronts" host = true
    · rw [if_pos hhost, ← lastPart_address h.parse] at hbefore
      rw [if_pos hhost, ← lastPart_address (parseInt_toString h.parse)] at hafter
      have hne : ∀ text : List Char, lastPart ',' (lastPart '=' host) ++ ':' :: text ≠ [] := by simp
      rw [fronts_of_param hbefore, fronts_of_param hafter]
      simp only [Option.map_some, Option.getD_some, splitOn_address h.parse,
        splitOn_address (parseInt_toString h.parse), List.filter_append, List.filter_singleton, hne, hhost, hfirst,
        ne_eq, not_false_eq_true, decide_true, cond_true, forall_const, forall_mem_concat_iff, List.mem_filter,
        List.append_cancel_left_eq, List.cons.injEq, true_and, and_true]
    · rw [if_neg hhost] at hafter
      exact iff_of_true (mem_fronts_of_written hafter) fun hyes => absurd hyes hhost

theorem sameFields_iff :
    SameFields bridge built ↔
      (∀ key ∈ keys, key ≠ "fronts" → bridge.param key = some [] → startsWith key first = true) ∧
        ∀ key ∈ keys, startsWith key (host ++ ':' :: digits) = true → startsWith key first = false →
          PortKept bridge key := by
  have hkept := fun key => @portKept_iff bridge key host digits n (address_of_rawPieces h.pieces) h.parse
  rw [Bridge.sameFields_iff, h.fronts_iff]
  constructor
  · rintro ⟨_, hparams, hfronts⟩
    refine ⟨fun key hkey hne => ((h.param_iff hkey hne).mp (hparams key hkey hne)).1, fun key hkey hhost hfirst => ?_⟩
    rw [startsWith_colon (notMem_keys key hkey).2.1] at hhost
    rw [hkept]
    by_cases hne : key = "fronts"
    · subst hne
      exact (hfronts hhost hfirst).imp_right fun hnames => ⟨rfl, hnames⟩
    · exact .inl (((h.param_iff hkey hne).mp (hparams key hkey hne)).2 hhost hfirst)
  · rintro ⟨hvalues, haddress⟩
    have haddress : ∀ key ∈ keys, startsWith key host = true → startsWith key first = false → PortKept bridge key := by
      intro key hkey hhost
      rw [← startsWith_colon (notMem_keys key hkey).2.1 host digits] at hhost
      exact haddress key hkey hhost
    refine ⟨⟨h.transport, h.ip, h.port, h.fingerprint1⟩, fun key hkey hne => ?_, fun hhost hfirst => ?_⟩
    · refine (h.param_iff hkey hne).mpr ⟨hvalues key hkey hne, fun hhost hfirst => ?_⟩
      exact ((hkept key).mp (haddress key hkey hhost hfirst)).resolve_right fun hnames => hne hnames.1
    · exact ((hkept "fronts").mp (haddress "fronts" (by decide) hhost hfirst)).imp_right And.right

end Written

section

variable {second address : List Char} (hpieces : bridge.rawPieces = first :: second :: rest) (haddress : ' ' ∉ address)
  (hparams : builder.params = Builder.nonEmpty bridge.transport ++ address :: bridge.tail)
include hpieces haddress hparams

-- With the right number of pieces, they stand where they were.
theorem rawPieces_build (h : bridge.transport.isSome ∧ 1 ≤ bridge.optionals ∨
    bridge.transport = none ∧ bridge.optionals ≤ 1) :
    builder.build.rawPieces = first :: address :: bridge.tail := by
  rw [build_rawPieces hpieces haddress (fun _ => space_notMem_tail) hparams, length_tail]
  have htransport := transport_of_rawPieces hpieces
  obtain ⟨hsome, hcount⟩ | ⟨hnone, hcount⟩ := h
  · by_cases hfirst : first = []
    · rw [htransport, if_pos hfirst] at hsome
      cases hsome
    · rw [if_neg hfirst, if_pos hcount]
  · by_cases hfirst : first = []
    · rw [if_pos hfirst, if_pos hcount, hfirst]
    · rw [htransport, if_neg hfirst] at hnone
      cases hnone

-- With any other number, the transport is lost or the address becomes the transport.
theorem pieces_of_transport (hne : address ≠ []) (h : builder.build.transport = bridge.transport) :
    bridge.transport.isSome ∧ 1 ≤ bridge.optionals ∨ bridge.transport = none ∧ bridge.optionals ≤ 1 := by
  have hbuilt := build_rawPieces hpieces haddress (fun _ => space_notMem_tail) hparams
  have htransport := transport_of_rawPieces hpieces
  rw [length_tail] at hbuilt
  by_cases hfirst : first = []
  · rw [if_pos hfirst] at hbuilt htransport
    refine .inr ⟨htransport, ?_⟩
    by_contra hcount
    rw [if_neg hcount] at hbuilt
    rw [transport_of_rawPieces hbuilt, if_neg hne, htransport] at h
    cases h
  · rw [if_neg hfirst] at hbuilt htransport
    refine .inl ⟨htransport ▸ rfl, ?_⟩
    by_contra hcount
    rw [if_neg hcount] at hbuilt
    rw [transport_of_rawPieces hbuilt, if_pos rfl, htransport] at h
    cases h

end

-- The fields survive when no value is empty, no piece is lost that the position of the others hangs on, and
-- no parameter is read from an address whose port is spelled in another way.
theorem build_sameFields_iff (h : Builder.ofBridge bridge = some builder) :
    SameFields bridge builder.build ↔ Rebuilds bridge := by
  obtain ⟨first, second, rest, n, hpieces, hparse, hsecond, hip, hparams⟩ := ofBridge_eq_some h
  have hspace : ' ' ∉ frontPart ':' second ++ ':' :: (toString n).toList := by
    have hsecond' : second ∈ bridge.rawPieces := by
      rw [hpieces]
      exact List.mem_cons_of_mem _ List.mem_cons_self
    have hnot := space_notMem hsecond'
    rw [hsecond, List.mem_append, not_or] at hnot
    rw [List.mem_append, List.mem_cons, not_or, not_or]
    exact ⟨hnot.1, by decide, Prefs.notMem_of_parseInt (parseInt_toString hparse) (by decide) (by decide)⟩
  have hwritten (hbuilt : builder.build.rawPieces = _) :
      Written bridge builder.build first (frontPart ':' second) (lastPart ':' second) rest n :=
    ⟨hsecond ▸ hpieces, hparse, hbuilt⟩
  have hhead : bridge.rawPieces.headD [] = first := by rw [hpieces]; rfl
  have haddress : bridge.address.getD [] = frontPart ':' second ++ ':' :: lastPart ':' second := by
    rw [address_of_rawPieces hpieces, Option.getD_some, ← hsecond]
  constructor
  · intro hsame
    have hcount := pieces_of_transport hpieces hspace hparams (by simp) hsame.transport
    have hfields := (hwritten (rawPieces_build hpieces hspace hparams hcount)).sameFields_iff.mp hsame
    rw [← hhead, ← haddress] at hfields
    exact ⟨hcount, hfields.1, hfields.2⟩
  · intro hrebuilds
    refine (hwritten (rawPieces_build hpieces hspace hparams hrebuilds.pieces)).sameFields_iff.mpr ?_
    rw [← hhead, ← haddress]
    exact ⟨hrebuilds.values, hrebuilds.address⟩

theorem build_sameFields_obfs4 :
    ∃ builder, Builder.ofBridge ⟨"obfs4 57.128.45.196:18384 cert=boaTbcdp+rFHg iat-mode=0".toList⟩ = some builder ∧
      SameFields ⟨"obfs4 57.128.45.196:18384 cert=boaTbcdp+rFHg iat-mode=0".toList⟩ builder.build := by
  have hkeys : ∀ key ∈ keys, startsWith key "57.128.45.196:18384".toList = false := forall_mem_of_all (by decide)
  have hvalues : ∀ key ∈ keys,
      param ⟨"obfs4 57.128.45.196:18384 cert=boaTbcdp+rFHg iat-mode=0".toList⟩ key ≠ some [] :=
    forall_mem_of_all (by decide)
  refine ⟨_, rfl, (build_sameFields_iff rfl).mpr ⟨.inl (by decide), ?_, ?_⟩⟩
  · intro key hkey _ hempty
    exact absurd hempty (hvalues key hkey)
  · intro key hkey hstarts
    exact absurd ((hkeys key hkey).symm.trans hstarts) (by decide)

-- Without the parameter that it does not know, the builder's line is taken for a vanilla bridge at "dnstt".
theorem not_build_sameFields :
    ∃ bridge builder, Builder.ofBridge bridge = some builder ∧ ¬SameFields bridge builder.build :=
  ⟨⟨"dnstt 192.0.3.1:80 domain=r.f14.1e-100.net".toList⟩, _, rfl, fun h => absurd h.transport (by decide)⟩

end ToInet.Circumvention.Bridge
