import Mathlib.Data.List.Forall2
import ToInet.Circumvention.CustomBridgeBottomSheet.Parsed
import ToInet.Circumvention.Transport.BridgesList

-- The lines of the dialog as they are stored, and the transports that are started for them.
namespace ToInet.Circumvention.CustomBridgeBottomSheet

open ToInet.Lib ToInet.Util

-- Prefs.bridgesList, after the dialog has set it.
def stored (lines : List String) : List String := bridgesList (storedBridges lines)

def isBridge (line : String) : Bool := !isBlank line.toList

def Faithful (classes : Classes) (lines : List String) : Prop :=
  List.Forall₂ (fun line raw => ∃ captured, captures classes line.toList = some captured ∧
    Consistent captured ⟨raw.toList⟩) (lines.filter isBridge) (stored lines) ∧
  ∀ name, name ∈ Transport.custom.transportNames (stored lines) ↔ ∃ line ∈ lines.filter isBridge, ∃ captured,
    captures classes line.toList = some captured ∧ captured.transport = some name.toList

-- A line that the dialog accepts, of the lines into which lines() takes its text apart.
structure Accepted (classes : Classes) (line : String) : Prop where
  lf : '\n' ∉ line.toList
  cr : '\r' ∉ line.toList
  valid : isValidBridge classes line.toList = true

variable {classes : Classes} {lines : List String} {line : String}

theorem lines_of_line {line : List Char} (hlf : '\n' ∉ line) (hcr : '\r' ∉ line) :
    Lib.lines '\r' '\n' line = [line] := by
  have hread : Lines.read '\r' '\n' line = { ended := [], line, afterCr := false } := by
    refine (Lines.foldl_push_text (fun c hc => ?_) (Lines.start Char)).trans rfl
    rintro (rfl | rfl)
    · exact hlf hc
    · exact hcr hc
  rw [Lib.lines, hread]
  rfl

theorem Accepted.captures (h : Accepted classes line) (hbridge : isBridge line = true) :
    ∃ captured, CustomBridgeBottomSheet.captures classes line.toList = some captured := by
  have hvalid := h.valid
  have hnonblank : isBlank line.toList = false := by simpa [isBridge] using hbridge
  have hne : line.toList ≠ [] := by
    intro hnil
    rw [hnil] at hnonblank
    cases hnonblank
  rw [isValidBridge, lines_of_line h.lf h.cr, List.filter_singleton, hnonblank] at hvalid
  simp only [hne, ne_eq, not_false_eq_true, Bool.not_false, and_self, decide_true, cond_true, List.all_cons,
    List.all_nil, Bool.and_true] at hvalid
  obtain ⟨groups, hgroups⟩ := Option.isSome_iff_exists.mp hvalid
  exact ⟨capturedBy groups, Option.map_eq_some_iff.mpr ⟨groups, hgroups, rfl⟩⟩

-- Every line that is not blank is read as it was written, without the space at its ends.
theorem stored_eq (h : ∀ line ∈ lines, '\n' ∉ line.toList) :
    stored lines = (lines.filter isBridge).map fun line => String.ofList (Prefs.trim line.toList) := by
  have hlines : ((storedBridges lines).toList.splitOn '\n').filter (fun line => !isBlank line) =
      (lines.filter isBridge).map fun line => Prefs.trim line.toList := by
    have htext : (storedBridges lines).toList =
        ['\n'].intercalate ((lines.filter isBridge).map fun line => Prefs.trim line.toList) :=
      toList_storedBridges lines
    rw [htext]
    by_cases hnil : lines.filter isBridge = []
    · rw [hnil]
      rfl
    · rw [List.splitOn_intercalate]
      · refine List.filter_eq_self.mpr fun text htext => ?_
        obtain ⟨line, hline, rfl⟩ := List.mem_map.mp htext
        rw [isBlank_trim]
        exact (List.mem_filter.mp hline).2
      · intro text htext hmem
        obtain ⟨line, hline, rfl⟩ := List.mem_map.mp htext
        obtain ⟨front, back, hparts, _⟩ := Prefs.exists_trim line.toList
        refine h line (List.mem_filter.mp hline).1 ?_
        rw [hparts]
        exact List.mem_append_right _ (List.mem_append_left _ hmem)
      · simpa using hnil
  rw [stored, bridgesList, hlines, List.map_map]
  refine List.map_congr_left fun line _ => ?_
  rw [Function.comp_apply, Prefs.trim_trim]

theorem bridgeTransport_eq (raw : String) :
    bridgeTransport raw = (Bridge.transport ⟨raw.toList⟩).map String.ofList := by
  unfold bridgeTransport
  obtain ⟨first, second, third, rest, hsplit, hpieces⟩ | ⟨first, hsplit, hpieces⟩ | ⟨first, second, hsplit, hpieces⟩ :=
    Bridge.rawPieces_cases ⟨raw.toList⟩
  · rw [Bridge.transport_of_rawPieces hpieces]
    simp only at hsplit
    rw [hsplit]
    cases first <;> rfl
  · rw [Bridge.transport_of_rawPieces hpieces, hsplit]
    rfl
  · rw [Bridge.transport_of_rawPieces hpieces, hsplit]
    rfl

theorem mem_transportNames_custom {bridges : List String} {name : String} :
    name ∈ Transport.custom.transportNames bridges ↔
      isBlank name.toList = false ∧ ∃ raw ∈ bridges, Bridge.transport ⟨raw.toList⟩ = some name.toList := by
  have hname : ∀ raw : String,
      bridgeTransport raw = some name ↔ Bridge.transport ⟨raw.toList⟩ = some name.toList := by
    intro raw
    rw [bridgeTransport_eq, Option.map_eq_some_iff]
    constructor
    · rintro ⟨text, htext, rfl⟩
      rw [htext, String.toList_ofList]
    · intro h
      exact ⟨name.toList, h, String.ofList_toList⟩
  simp only [Transport.transportNames, List.mem_filter, List.mem_filterMap, hname, Bool.not_eq_true']
  exact and_comm

theorem consistent_stored_iff (h : Accepted classes line) (hbridge : isBridge line = true) :
    (∃ captured, captures classes line.toList = some captured ∧
      Consistent captured ⟨(String.ofList (Prefs.trim line.toList)).toList⟩) ↔
    ∀ captured ∈ captures classes line.toList, Spaced captured (Prefs.trim line.toList) ∧ PortRead captured := by
  obtain ⟨captured, hcaptured⟩ := h.captures hbridge
  obtain ⟨front, gap, rest, hparted⟩ := exists_parted hcaptured
  rw [String.toList_ofList, hcaptured]
  simp only [Option.some.injEq, exists_eq_left', Option.mem_def, forall_eq', hparted.consistent_iff]

theorem exists_of_forall₂ {α β : Type} {related : α → β → Prop} {as : List α} {bs : List β} {b : β}
    (h : List.Forall₂ related as bs) (hb : b ∈ bs) : ∃ a ∈ as, related a b := by
  induction h with
  | nil => cases hb
  | @cons a c as bs hhead _ ih =>
      obtain rfl | hb := List.mem_cons.mp hb
      · exact ⟨a, List.mem_cons_self, hhead⟩
      · obtain ⟨a, ha, hrelated⟩ := ih hb
        exact ⟨a, List.mem_cons_of_mem _ ha, hrelated⟩

-- The names that are started are those of the lines, once every line is read as it was captured.
theorem transportNames_stored {raws : List String}
    (h : List.Forall₂ (fun line raw => ∃ captured, captures classes line.toList = some captured ∧
      Consistent captured ⟨raw.toList⟩) lines raws) (name : String) :
    name ∈ Transport.custom.transportNames raws ↔ ∃ line ∈ lines, ∃ captured,
      captures classes line.toList = some captured ∧ captured.transport = some name.toList := by
  rw [mem_transportNames_custom]
  constructor
  · rintro ⟨_, raw, hraw, htransport⟩
    obtain ⟨line, hline, captured, hcaptured, hconsistent⟩ := exists_of_forall₂ h hraw
    exact ⟨line, hline, captured, hcaptured, hconsistent.transport.symm.trans htransport⟩
  · rintro ⟨line, hline, captured, hcaptured, htransport⟩
    obtain ⟨raw, hraw, other, hother, hconsistent⟩ := exists_of_forall₂ h.flip hline
    obtain rfl := Option.some.inj (hother.symm.trans hcaptured)
    have hnames : ∀ name ∈ bridgeTypes, isBlank name = false := forall_mem_of_all (by decide)
    obtain ⟨front, gap, rest, hparted⟩ := exists_parted hcaptured
    refine ⟨?_, raw, hraw, hconsistent.transport.trans htransport⟩
    obtain ⟨hnone, _⟩ | ⟨name, hname, _, hsome, _⟩ := hparted.front_eq
    · cases hnone.symm.trans htransport
    · rw [← Option.some.inj (hsome.symm.trans htransport)]
      exact hnames name hname

-- Bridge reads a line as the pattern does when single spaces part what has been captured.
theorem faithful_iff (h : ∀ line ∈ lines, Accepted classes line) :
    Faithful classes lines ↔ ∀ line ∈ lines.filter isBridge, ∀ captured ∈ captures classes line.toList,
      Spaced captured (Prefs.trim line.toList) ∧ PortRead captured := by
  have hlines : (List.Forall₂ (fun line raw => ∃ captured, captures classes line.toList = some captured ∧
      Consistent captured ⟨raw.toList⟩) (lines.filter isBridge) (stored lines)) ↔
      ∀ line ∈ lines.filter isBridge, ∀ captured ∈ captures classes line.toList,
        Spaced captured (Prefs.trim line.toList) ∧ PortRead captured := by
    rw [stored_eq fun line hline => (h line hline).lf, List.forall₂_map_right_iff, List.forall₂_same]
    refine forall_congr' fun line => forall_congr' fun hline => ?_
    obtain ⟨hmem, hbridge⟩ := List.mem_filter.mp hline
    exact consistent_stored_iff (h line hmem) hbridge
  rw [← hlines]
  exact and_iff_left_of_imp fun hall name => transportNames_stored hall name

theorem faithful_iff_obfs4 :
    Faithful ascii ["obfs4 84.22.108.82:9202 38D749F6FA80488329EDB1233B8FF8D229A1C57A iat-mode=0"] := by
  have haccepted : ∀ line ∈ ["obfs4 84.22.108.82:9202 38D749F6FA80488329EDB1233B8FF8D229A1C57A iat-mode=0"],
      Accepted ascii line :=
    List.forall_mem_singleton.mpr ⟨by decide, by decide, by decide +kernel⟩
  have hcaptures : captures ascii
      "obfs4 84.22.108.82:9202 38D749F6FA80488329EDB1233B8FF8D229A1C57A iat-mode=0".toList =
      some ⟨some "obfs4".toList, "84.22.108.82:9202".toList, some ":9202".toList,
        some "38D749F6FA80488329EDB1233B8FF8D229A1C57A".toList⟩ := by rfl
  refine (faithful_iff haccepted).mpr fun line hline captured hcaptured => ?_
  obtain rfl := List.mem_singleton.mp (List.mem_filter.mp hline).1
  obtain rfl := Option.some.inj (hcaptures.symm.trans hcaptured)
  refine ⟨⟨"38D749F6FA80488329EDB1233B8FF8D229A1C57A iat-mode=0".toList, by decide +kernel, ?_⟩, ?_⟩
  · rintro _ ⟨⟩
    exact ⟨by decide, by decide⟩
  · rintro _ ⟨⟩
    exact forall_mem_of_all (by decide)

-- Without the space at its end, the line has two pieces and is taken for a vanilla bridge at "obfs4".
theorem not_faithful_obfs4 :
    Accepted ascii "obfs4 84.22.108.82:9202 " ∧ ¬Faithful ascii ["obfs4 84.22.108.82:9202 "] := by
  have hcaptures : captures ascii "obfs4 84.22.108.82:9202 ".toList =
      some ⟨some "obfs4".toList, "84.22.108.82:9202".toList, some ":9202".toList, none⟩ := by rfl
  have hread : Bridge.transport ⟨Prefs.trim "obfs4 84.22.108.82:9202 ".toList⟩ = none := by decide +kernel
  refine ⟨⟨by decide, by decide, by decide +kernel⟩, fun ⟨hlines, _⟩ => ?_⟩
  rw [stored_eq (List.forall_mem_singleton.mpr (by decide)), List.forall₂_map_right_iff, List.forall₂_same] at hlines
  obtain ⟨captured, hcaptured, hconsistent⟩ := hlines "obfs4 84.22.108.82:9202 " (by decide)
  obtain rfl := Option.some.inj (hcaptured.symm.trans hcaptures)
  have htransport := hconsistent.transport
  rw [String.toList_ofList, hread] at htransport
  cases htransport

end ToInet.Circumvention.CustomBridgeBottomSheet
