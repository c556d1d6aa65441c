import ToInet.Circumvention.Transport
import ToInet.Lib.Split
import ToInet.Util.Prefs.Theorems

-- What is stored for a list of bridges, and what is read of it again.
namespace ToInet.Circumvention

open ToInet.Lib ToInet.Util

theorem isBlank_trim (text : List Char) : isBlank (Prefs.trim text) = isBlank text := by
  obtain ⟨front, back, htext, hfront, hback, _⟩ := Prefs.exists_trim text
  conv_rhs => rw [htext]
  simp only [isBlank, List.all_append, List.all_eq_true.mpr hfront, List.all_eq_true.mpr hback, Bool.true_and,
    Bool.and_true]

theorem toList_storedBridges (value : List String) :
    (storedBridges value).toList =
      ['\n'].intercalate ((value.filter fun line => !isBlank line.toList).map fun line => Prefs.trim line.toList) := by
  have hsep : "\n".toList = ['\n'] := rfl
  rw [storedBridges, String.toList_intercalate, List.map_map, hsep]
  exact congrArg _ (List.map_congr_left fun line _ => String.toList_ofList)

theorem exists_of_not_isBlank {text : List Char} (h : isBlank text = false) :
    ∃ c ∈ text, Prefs.isWhitespace c = false := by
  by_contra hall
  push Not at hall
  have hblank : isBlank text = true :=
    List.all_eq_true.mpr fun c hc => Bool.of_not_eq_false (hall c hc)
  rw [h] at hblank
  cases hblank

theorem not_isBlank_of_mem {text : List Char} {c : Char} (hc : c ∈ text) (h : Prefs.isWhitespace c = false) :
    isBlank text = false := by
  by_contra hblank
  rw [List.all_eq_true.mp (Bool.of_not_eq_false hblank) c hc] at h
  cases h

-- A line break is white space, so what is not parts one line from the next.
theorem bridgesList_ne_nil_iff {stored : String} : bridgesList stored ≠ [] ↔ isBlank stored.toList = false := by
  constructor
  · intro hne
    obtain ⟨line, hline⟩ := List.exists_mem_of_ne_nil _ hne
    obtain ⟨part, hpart, _⟩ := List.mem_map.mp hline
    obtain ⟨hmem, hnot⟩ := List.mem_filter.mp hpart
    obtain ⟨c, hc, hspace⟩ := exists_of_not_isBlank ((Bool.not_eq_true' _).mp hnot)
    exact not_isBlank_of_mem (mem_of_mem_splitOn hmem c hc) hspace
  · intro hnot hnil
    obtain ⟨c, hc, hspace⟩ := exists_of_not_isBlank hnot
    obtain rfl | ⟨part, hpart, hmem⟩ := mem_splitOn '\n' hc
    · cases hspace
    · have hfilter := List.map_eq_nil_iff.mp hnil
      exact List.filter_eq_nil_iff.mp hfilter part hpart (by rw [not_isBlank_of_mem hmem hspace]; rfl)

theorem bridgesList_storedBridges_ne_nil_iff {value : List String} :
    bridgesList (storedBridges value) ≠ [] ↔ ∃ line ∈ value, isBlank line.toList = false := by
  rw [bridgesList_ne_nil_iff, toList_storedBridges]
  constructor
  · intro hnot
    by_contra hall
    push Not at hall
    have hnil : (value.filter fun line => !isBlank line.toList) = [] :=
      List.filter_eq_nil_iff.mpr fun line hline => by rw [Bool.of_not_eq_false (hall line hline)]; decide
    rw [hnil] at hnot
    cases hnot
  · rintro ⟨line, hline, hnot⟩
    obtain ⟨c, hc, hspace⟩ := exists_of_not_isBlank ((isBlank_trim _).trans hnot)
    refine not_isBlank_of_mem (mem_intercalate_of_mem (List.mem_map.mpr ⟨line, ?_, rfl⟩) hc) hspace
    exact List.mem_filter.mpr ⟨hline, by rw [hnot]; rfl⟩

end ToInet.Circumvention
