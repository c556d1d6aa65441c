import ToInet.Circumvention.CustomBridgeBottomSheet

-- What Bridge reads from a line of the dialog, against what the pattern captures of it.
namespace ToInet.Circumvention.CustomBridgeBottomSheet

open ToInet.Lib ToInet.Util

structure Consistent (captured : Captured) (bridge : Bridge) : Prop where
  transport : bridge.transport = captured.transport
  address : bridge.address = some captured.address
  port : captured.port.isSome = true → bridge.port ≠ none
  fingerprint1 : bridge.fingerprint1 = captured.fingerprint

-- Single spaces part what has been captured. A vanilla bridge has its fingerprint behind the address and no
-- more; behind that of another bridge there is a space.
def Spaced (captured : Captured) (raw : List Char) : Prop :=
  match captured.transport with
  | some name =>
      ∃ more, raw = name ++ ' ' :: (captured.address ++ ' ' :: more) ∧
        ∀ text ∈ captured.fingerprint, Bridge.isFingerprint text = true ∧ more.takeWhile (· ≠ ' ') = text
  | none =>
      raw = captured.address ∧ captured.fingerprint = none ∨
        ∃ more, raw = captured.address ++ ' ' :: more ∧ ' ' ∉ more ∧
          ∀ text ∈ captured.fingerprint, Bridge.isFingerprint text = true ∧ more = text

-- The digits of the port are digits for toInt() too.
def PortRead (captured : Captured) : Prop :=
  ∀ port ∈ captured.port, ∀ c ∈ port.tail, (Prefs.digit c).isSome = true

variable {classes : Classes} {captured : Captured} {line front gap rest raw : List Char}

theorem space_notMem_of_isWhitespace {text : List Char} (h : ∀ c ∈ text, Prefs.isWhitespace c = false) :
    ' ' ∉ text := by
  intro hmem
  have hspace := h ' ' hmem
  revert hspace
  decide

-- Of a line that has no space in front, trim takes only what stands at the end.
theorem exists_trim_of_head (h : ∀ c ∈ line.head?, Prefs.isWhitespace c = false) :
    ∃ back, line = Prefs.trim line ++ back := by
  obtain ⟨front, back, hline, hfront, _⟩ := Prefs.exists_trim line
  cases front with
  | nil => exact ⟨back, hline⟩
  | cons c front =>
      have hhead := h c (by rw [hline]; rfl)
      rw [hfront c List.mem_cons_self] at hhead
      cases hhead

-- A space in front of a text without spaces is the only one when the texts go on alike.
theorem singleton_of_append {blank address more other : List Char}
    (hblank : blank ≠ []) (hspace : ∀ c ∈ blank, classes.space c = true)
    (haddress : ∀ c ∈ address, Solid classes c) (hne : address ≠ [])
    (h : blank ++ (address ++ more) = ' ' :: (address ++ other)) : blank = [' '] ∧ more = other := by
  obtain ⟨c, blank, rfl⟩ := List.exists_cons_of_ne_nil hblank
  obtain ⟨d, address, rfl⟩ := List.exists_cons_of_ne_nil hne
  obtain ⟨rfl, htail⟩ := List.cons.inj h
  cases blank with
  | nil => exact ⟨rfl, List.append_cancel_left htail⟩
  | cons x blank =>
      obtain ⟨rfl, _⟩ := List.cons.inj htail
      have hnot := (haddress x List.mem_cons_self).2
      rw [hspace x (List.mem_cons_of_mem _ List.mem_cons_self)] at hnot
      cases hnot

theorem isHex_of_digitVal {c : Char} (h : (digitVal c).isSome = true) : isHex classes c = true := by
  rw [isHex, decide_eq_true_eq]
  unfold digitVal at h
  split at h
  · rename_i hdigit
    have hc : c.isDigit = true := by simpa [Char.isDigit, Char.le_def] using hdigit
    have hrange : c.toNat < 128 := by
      have hhi : c.toNat ≤ 57 := by
        simpa [Char.le_def, UInt32.le_iff_toNat_le] using hdigit.2
      omega
    exact .inl ((classes.digit_ascii c hrange).trans hc)
  · split at h
    · rename_i hlower
      exact .inr (.inl hlower)
    · split at h
      · rename_i hupper
        exact .inr (.inr hupper)
      · cases h

theorem eq_of_filter_isFingerprint {fingerprint : Option (List Char)} {piece : List Char}
    (h : (some piece).filter Bridge.isFingerprint = fingerprint) :
    ∀ text ∈ fingerprint, Bridge.isFingerprint text = true ∧ piece = text := by
  rintro text htext
  rw [Option.mem_def.mp htext, Option.filter_eq_some_iff] at h
  obtain ⟨hsame, hyes⟩ := h
  exact ⟨hyes, Option.some.inj hsame⟩

theorem filter_isFingerprint {fingerprint : Option (List Char)} {piece : List Char}
    (hsome : ∀ text ∈ fingerprint, Bridge.isFingerprint text = true ∧ piece = text)
    (hnone : fingerprint = none → Bridge.isFingerprint piece = false) :
    (some piece).filter Bridge.isFingerprint = fingerprint := by
  cases fingerprint with
  | some text =>
      obtain ⟨hyes, rfl⟩ := hsome text rfl
      rw [Option.filter_some, if_pos hyes]
  | none => rw [Option.filter_some, hnone rfl, if_neg Bool.false_ne_true]

namespace Parted

variable (h : Parted classes captured line front gap rest)
include h

theorem head_line : ∀ c ∈ line.head?, Prefs.isWhitespace c = false := by
  intro c hc
  rw [h.line_eq] at hc
  obtain ⟨_, rfl⟩ | ⟨name, hname, blank, _, rfl, _⟩ := h.front_eq
  · rw [List.nil_append, List.head?_append_of_ne_nil _ h.address.1] at hc
    exact (h.address.2 c (List.mem_of_head? hc)).1
  · obtain ⟨hne, hchars⟩ := name_of_mem hname
    rw [List.append_assoc, List.head?_append_of_ne_nil _ hne] at hc
    exact hchars c (List.mem_of_head? hc)

theorem space_notMem_address : ' ' ∉ captured.address :=
  space_notMem_of_isWhitespace fun c hc => (h.address.2 c hc).1

-- Forty digits behind a single space have been captured.
theorem not_isFingerprint (hnone : captured.fingerprint = none) {more back : List Char}
    (hrest : gap ++ rest = ' ' :: (more ++ back)) : Bridge.isFingerprint (more.takeWhile (· ≠ ' ')) = false := by
  rw [← Bool.not_eq_true, Bridge.isFingerprint_iff]
  rintro ⟨hlength, hdigits⟩
  have hhex : ∀ c ∈ more.takeWhile (· ≠ ' '), isHex classes c = true := fun c hc => isHex_of_digitVal (hdigits c hc)
  have hmore : more.takeWhile (· ≠ ' ') ++ more.dropWhile (· ≠ ' ') = more := List.takeWhile_append_dropWhile
  obtain ⟨hne, hspace⟩ := h.gap
  obtain ⟨c, gap, rfl⟩ := List.exists_cons_of_ne_nil hne
  obtain ⟨_, htail⟩ := List.cons.inj hrest
  rw [← hmore, List.append_assoc] at htail
  cases gap with
  | nil => exact h.fingerprint hnone _ _ htail hlength hhex
  | cons x gap =>
      obtain ⟨d, text, htext⟩ := List.exists_cons_of_ne_nil (List.ne_nil_of_length_pos (by rw [hlength]; decide))
      rw [htext] at htail hhex
      obtain ⟨rfl, _⟩ := List.cons.inj htail
      have hyes := hspace x (List.mem_cons_of_mem _ List.mem_cons_self)
      rw [(solid_of_isHex (hhex x List.mem_cons_self)).2] at hyes
      cases hyes

theorem port_iff {bridge : Bridge} (haddress : bridge.address = some captured.address) :
    (captured.port.isSome = true → bridge.port ≠ none) ↔ PortRead captured := by
  unfold PortRead
  cases hport : captured.port with
  | none => exact iff_of_true nofun nofun
  | some port =>
      obtain ⟨host, digits, haddress', rfl, hne, hlength, hdigits⟩ := h.port port hport
      have hascii : ∀ c : Char, c.toNat < 128 → c.isDigit = false → c ∉ digits := by
        intro c hc hnot hmem
        have hyes := hdigits c hmem
        rw [classes.digit_ascii c hc, hnot] at hyes
        cases hyes
      have hread : bridge.port = (Prefs.parseInt digits).map some := by
        simp only [Bridge.port, haddress, haddress', lastPart_append_cons,
          lastPart_eq_self (hascii ':' (by decide) (by decide))]
      have hsign : ∀ c ∈ digits, c ≠ '-' ∧ c ≠ '+' := fun c hc =>
        ⟨fun hminus => hascii '-' (by decide) (by decide) (hminus ▸ hc),
          fun hplus => hascii '+' (by decide) (by decide) (hplus ▸ hc)⟩
      rw [hread, Ne, Option.map_eq_none_iff, ← Ne, Option.ne_none_iff_isSome,
        Prefs.isSome_parseInt_iff hne (by omega) hsign]
      simp

-- Where the pieces stand, they decide.
theorem consistent_iff_pieces {bridge : Bridge} {first second : List Char} {pieces : List (List Char)}
    (hpieces : bridge.rawPieces = first :: second :: pieces) :
    Consistent captured bridge ↔
      ((if first = [] then none else some first) = captured.transport ∧ second = captured.address ∧
        pieces.head?.filter Bridge.isFingerprint = captured.fingerprint) ∧ PortRead captured := by
  rw [← Bridge.transport_of_rawPieces hpieces, ← Bridge.fingerprint1_of_rawPieces hpieces]
  have hread := Bridge.address_of_rawPieces hpieces
  constructor
  · intro hc
    have hsame := Option.some.inj (hread.symm.trans hc.address)
    exact ⟨⟨hc.transport, hsame, hc.fingerprint1⟩, (h.port_iff hc.address).mp hc.port⟩
  · rintro ⟨⟨htransport, rfl, hfingerprint⟩, hport⟩
    exact ⟨htransport, hread, (h.port_iff hread).mpr hport, hfingerprint⟩

theorem consistent_typed_iff {name : List Char} (htransport : captured.transport = some name) :
    Consistent captured ⟨Prefs.trim line⟩ ↔ Spaced captured (Prefs.trim line) ∧ PortRead captured := by
  obtain ⟨back, hline⟩ := exists_trim_of_head h.head_line
  obtain ⟨hnone, _⟩ | ⟨other, hmem, blank, hother, hfront, hne, hspace⟩ := h.front_eq
  · cases htransport.symm.trans hnone
  obtain rfl := Option.some.inj (hother.symm.trans htransport)
  obtain ⟨hname, hchars⟩ := name_of_mem hmem
  rw [Spaced, htransport]
  constructor
  · intro hc
    obtain ⟨first, second, third, pieces, hsplit, hpieces⟩ | ⟨first, _, hpieces⟩ | ⟨first, second, _, hpieces⟩ :=
      Bridge.rawPieces_cases ⟨Prefs.trim line⟩
    · obtain ⟨⟨hfirst, rfl, hthird⟩, hport⟩ := (h.consistent_iff_pieces hpieces).mp hc
      obtain ⟨more, hraw, rfl⟩ := Bridge.splitOn_three hsplit
      rw [htransport] at hfirst
      split at hfirst
      · cases hfirst
      · obtain rfl := Option.some.inj hfirst
        exact ⟨⟨more, hraw, eq_of_filter_isFingerprint hthird⟩, hport⟩
    · cases ((h.consistent_iff_pieces hpieces).mp hc).1.1.trans htransport
    · cases ((h.consistent_iff_pieces hpieces).mp hc).1.1.trans htransport
  · rintro ⟨⟨more, hraw, htext⟩, hport⟩
    have hpieces := @Bridge.rawPieces_of_raw ⟨Prefs.trim line⟩ _ _ _ hraw (space_notMem_of_isWhitespace hchars)
      h.space_notMem_address
    refine (h.consistent_iff_pieces hpieces).mpr ⟨⟨?_, rfl, ?_⟩, hport⟩
    · rw [if_neg hname, htransport]
    · rw [head?_splitOn]
      refine filter_isFingerprint htext fun hnone => ?_
      rw [hraw, h.line_eq, hfront, List.append_assoc, List.append_assoc, List.append_cancel_left_eq, List.cons_append,
        List.append_assoc] at hline
      exact h.not_isFingerprint hnone (singleton_of_append hne hspace h.address.2 h.address.1 hline).2

theorem consistent_vanilla_iff (htransport : captured.transport = none) :
    Consistent captured ⟨Prefs.trim line⟩ ↔ Spaced captured (Prefs.trim line) ∧ PortRead captured := by
  obtain ⟨back, hline⟩ := exists_trim_of_head h.head_line
  have haddress := h.space_notMem_address
  have hjoin := join_splitOn ' ' (Prefs.trim line)
  rw [Spaced, htransport]
  constructor
  · intro hc
    obtain ⟨first, second, third, pieces, hsplit, hpieces⟩ | ⟨first, hsplit, hpieces⟩ |
      ⟨first, second, hsplit, hpieces⟩ :=
      Bridge.rawPieces_cases ⟨Prefs.trim line⟩
    · -- with three pieces the first one is the transport, unless the line starts with a space
      obtain ⟨⟨hfirst, _⟩, _⟩ := (h.consistent_iff_pieces hpieces).mp hc
      obtain ⟨more, hraw, _⟩ := Bridge.splitOn_three hsplit
      rw [htransport] at hfirst
      split at hfirst
      · rename_i hnil
        rw [hnil, List.nil_append] at hraw
        have hhead := h.head_line ' ' (by rw [hline]; exact congrArg (fun text => (text ++ back).head?) hraw)
        cases hhead
      · cases hfirst
    · obtain ⟨⟨_, rfl, hnone⟩, hport⟩ := (h.consistent_iff_pieces hpieces).mp hc
      rw [hsplit, List.intercalate_singleton] at hjoin
      exact ⟨.inl ⟨hjoin.symm, hnone.symm⟩, hport⟩
    · obtain ⟨⟨_, rfl, hsecond⟩, hport⟩ := (h.consistent_iff_pieces hpieces).mp hc
      have hspace : ' ' ∉ second := notMem_of_mem_splitOn
        (show second ∈ (Prefs.trim line).splitOn ' ' by rw [hsplit]; exact List.mem_cons_of_mem _ List.mem_cons_self)
      rw [hsplit, List.intercalate_cons_cons, List.intercalate_singleton, List.append_assoc] at hjoin
      exact ⟨.inr ⟨second, hjoin.symm, hspace, eq_of_filter_isFingerprint hsecond⟩, hport⟩
  · rintro ⟨⟨hraw, hfingerprint⟩ | ⟨more, hraw, hmore, htext⟩, hport⟩
    · have hpieces : Bridge.rawPieces ⟨Prefs.trim line⟩ = [[], captured.address] := by
        rw [Bridge.rawPieces, hraw, List.splitOn_eq_singleton haddress]
        rfl
      exact (h.consistent_iff_pieces hpieces).mpr ⟨⟨htransport.symm, rfl, hfingerprint.symm⟩, hport⟩
    · have hpieces : Bridge.rawPieces ⟨Prefs.trim line⟩ = [[], captured.address, more] := by
        rw [Bridge.rawPieces, hraw, List.splitOn_append_cons_self_of_not_mem haddress, List.splitOn_eq_singleton hmore]
        rfl
      refine (h.consistent_iff_pieces hpieces).mpr ⟨⟨htransport.symm, rfl, ?_⟩, hport⟩
      refine filter_isFingerprint htext fun hnone => ?_
      obtain ⟨_, hfront⟩ | ⟨_, _, _, hsome, _⟩ := h.front_eq
      · rw [hraw, h.line_eq, hfront, List.nil_append, List.append_assoc, List.append_cancel_left_eq,
          List.cons_append] at hline
        have hnot := h.not_isFingerprint hnone hline
        rwa [takeWhile_ne_self hmore] at hnot
      · cases htransport.symm.trans hsome

theorem consistent_iff :
    Consistent captured ⟨Prefs.trim line⟩ ↔ Spaced captured (Prefs.trim line) ∧ PortRead captured := by
  cases htransport : captured.transport with
  | some name => exact h.consistent_typed_iff htransport
  | none => exact h.consistent_vanilla_iff htransport

end Parted

end ToInet.Circumvention.CustomBridgeBottomSheet
