import ToInet.Lib.IpLiteral
import ToInet.Lib.Split
import ToInet.Util.Prefs

-- Numbers and mappings that are written and read back.
namespace ToInet.Util.Prefs

open ToInet.Lib

theorem digit_of_isDigit {c : Char} (hc : c.isDigit) : digit c = some (c.toNat - '0'.toNat) := by
  have hrange := toNat_of_isDigit hc
  have hfirst : digitZeros.find? (fun start => start ≤ c.toNat ∧ c.toNat < start + 10) = some 0x30 := by
    refine List.find?_cons_of_pos ?_
    rw [decide_eq_true_eq]
    omega
  rw [digit, hfirst]
  rfl

theorem digits_of_isDigit {text : List Char} (htext : ∀ c ∈ text, c.isDigit) (acc : Nat) :
    digits acc text = some (Nat.ofDigitChars 10 text acc) := by
  induction text generalizing acc with
  | nil => rfl
  | cons c text ih =>
      rw [digits, digit_of_isDigit (htext c List.mem_cons_self), Option.bind_some,
        ih fun d hd => htext d (List.mem_cons_of_mem c hd), Nat.ofDigitChars_cons]

theorem parseInt_minus {text : List Char} (h : text ≠ []) :
    parseInt ('-' :: text) =
      (digits 0 text).bind fun n => if FitsInt32 (-1 * n) then some (-1 * n : Int) else none := by
  cases text with
  | nil => exact absurd rfl h
  | cons c text => rfl

theorem parseInt_toDigits (n : Nat) :
    parseInt (Nat.toDigits 10 n) =
      (digits 0 (Nat.toDigits 10 n)).bind fun n => if FitsInt32 (1 * n) then some (1 * n : Int) else none := by
  cases htext : Nat.toDigits 10 n with
  | nil => exact absurd htext Nat.toDigits_ne_nil
  | cons c text =>
      have hc : c.isDigit := isDigit_of_mem_toDigits (n := n) (by simp [htext])
      unfold parseInt
      split
      · next heq => exact absurd hc (by rw [(List.cons.inj heq).1]; decide)
      · next heq => exact absurd hc (by rw [(List.cons.inj heq).1]; decide)
      · rfl

-- Int.toString() is read as it is meant.
theorem parseInt_decimal {n : Int} (h : FitsInt32 n) : parseInt (decimal n) = some n := by
  have hdigits : digits 0 (Nat.toDigits 10 n.natAbs) = some n.natAbs := by
    rw [digits_of_isDigit fun c hc => isDigit_of_mem_toDigits hc, Nat.ofDigitChars_ten_toDigits]
  unfold decimal
  split
  · next hneg =>
      have hvalue : -1 * (n.natAbs : Int) = n := by omega
      rw [parseInt_minus Nat.toDigits_ne_nil, hdigits, Option.bind_some, hvalue, if_pos h]
  · next hneg =>
      have hvalue : 1 * (n.natAbs : Int) = n := by omega
      rw [parseInt_toDigits, hdigits, Option.bind_some, hvalue, if_pos h]

theorem isSome_digit_of_digits {text : List Char} {acc n : Nat} (h : digits acc text = some n) :
    ∀ c ∈ text, (digit c).isSome := by
  induction text generalizing acc with
  | nil => nofun
  | cons c text ih =>
      obtain ⟨d, hdigit, hrest⟩ := Option.bind_eq_some_iff.mp h
      exact List.forall_mem_cons.mpr ⟨Option.isSome_of_eq_some hdigit, ih hrest⟩

-- A number that is read is an Int, and its text has a sign and digits.
theorem parseInt_eq_some {text : List Char} {n : Int} (h : parseInt text = some n) :
    FitsInt32 n ∧ ∀ c ∈ text, c = '-' ∨ c = '+' ∨ (digit c).isSome := by
  have hsigned : ∀ {sign : Int} {cs : List Char},
      ((digits 0 cs).bind fun n => if FitsInt32 (sign * n) then some (sign * n) else none) = some n →
        FitsInt32 n ∧ ∀ c ∈ cs, (digit c).isSome := by
    intro sign cs h
    obtain ⟨m, hdigits, h⟩ := Option.bind_eq_some_iff.mp h
    split at h
    · rename_i hfits
      exact ⟨Option.some.inj h ▸ hfits, isSome_digit_of_digits hdigits⟩
    · cases h
  unfold parseInt at h
  split at h <;> dsimp only at h <;> split at h
  · cases h
  · obtain ⟨hfits, hdigits⟩ := hsigned h
    exact ⟨hfits, List.forall_mem_cons.mpr ⟨.inl rfl, fun c hc => .inr (.inr (hdigits c hc))⟩⟩
  · cases h
  · obtain ⟨hfits, hdigits⟩ := hsigned h
    exact ⟨hfits, List.forall_mem_cons.mpr ⟨.inr (.inl rfl), fun c hc => .inr (.inr (hdigits c hc))⟩⟩
  · cases h
  · obtain ⟨hfits, hdigits⟩ := hsigned h
    exact ⟨hfits, fun c hc => .inr (.inr (hdigits c hc))⟩

theorem digit_lt {c : Char} {d : Nat} (h : digit c = some d) : d < 10 := by
  obtain ⟨start, hfind, rfl⟩ := Option.map_eq_some_iff.mp h
  have hrange : start ≤ c.toNat ∧ c.toNat < start + 10 := by simpa using List.find?_some hfind
  omega

theorem isSome_digits {text : List Char} (h : ∀ c ∈ text, (digit c).isSome = true) (acc : Nat) :
    ∃ n, digits acc text = some n ∧ n < (acc + 1) * 10 ^ text.length := by
  induction text generalizing acc with
  | nil => exact ⟨acc, rfl, by simp⟩
  | cons c text ih =>
      obtain ⟨d, hd⟩ := Option.isSome_iff_exists.mp (h c List.mem_cons_self)
      obtain ⟨n, hn, hlt⟩ := ih (fun x hx => h x (List.mem_cons_of_mem c hx)) (10 * acc + d)
      have hd10 := digit_lt hd
      refine ⟨n, by rw [digits, hd, Option.bind_some, hn], ?_⟩
      calc n < (10 * acc + d + 1) * 10 ^ text.length := hlt
        _ ≤ (10 * (acc + 1)) * 10 ^ text.length := Nat.mul_le_mul_right _ (by omega)
        _ = (acc + 1) * 10 ^ (c :: text).length := by rw [List.length_cons, Nat.pow_succ]; ac_rfl

-- Up to nine digits are an Int.
theorem isSome_parseInt_iff {text : List Char} (hne : text ≠ []) (hlength : text.length ≤ 9)
    (hsign : ∀ c ∈ text, c ≠ '-' ∧ c ≠ '+') :
    (parseInt text).isSome = true ↔ ∀ c ∈ text, (digit c).isSome = true := by
  constructor
  · intro h c hc
    obtain ⟨n, hn⟩ := Option.isSome_iff_exists.mp h
    obtain rfl | rfl | hdigit := (parseInt_eq_some hn).2 c hc
    · exact absurd rfl (hsign _ hc).1
    · exact absurd rfl (hsign _ hc).2
    · exact hdigit
  · intro h
    obtain ⟨n, hn, hlt⟩ := isSome_digits h 0
    have hbound : 10 ^ text.length ≤ 10 ^ 9 := Nat.pow_le_pow_right (by decide) hlength
    have hfits : FitsInt32 (1 * n) := by
      unfold FitsInt32
      omega
    cases text with
    | nil => exact absurd rfl hne
    | cons c text =>
        obtain ⟨hminus, hplus⟩ := hsign c List.mem_cons_self
        have hread : ((digits 0 (c :: text)).bind fun n => if FitsInt32 (1 * n) then some (1 * n : Int) else none) =
            some (1 * n : Int) := by rw [hn, Option.bind_some, if_pos hfits]
        unfold parseInt
        split
        · next heq => exact absurd (List.cons.inj heq).1 hminus
        · next heq => exact absurd (List.cons.inj heq).1 hplus
        · exact Option.isSome_of_eq_some hread

theorem notMem_of_parseInt {text : List Char} {n : Int} {c : Char} (h : parseInt text = some n)
    (hsign : c ≠ '-' ∧ c ≠ '+') (hdigit : digit c = none) : c ∉ text := by
  intro hc
  obtain rfl | rfl | hsome := (parseInt_eq_some h).2 c hc
  · exact hsign.1 rfl
  · exact hsign.2 rfl
  · rw [hdigit] at hsome
    cases hsome

theorem trim_of_ends {text : List Char} (hfirst : ∀ c ∈ text.head?, isWhitespace c = false)
    (hlast : ∀ c ∈ text.getLast?, isWhitespace c = false) : trim text = text := by
  have hkeep : ∀ {text : List Char}, (∀ c ∈ text.head?, isWhitespace c = false) →
      text.dropWhile isWhitespace = text := by
    intro text htext
    cases text with
    | nil => rfl
    | cons c text => rw [List.dropWhile_cons_of_neg (by rw [htext c rfl]; decide)]
  rw [← List.head?_reverse] at hlast
  rw [trim, hkeep hfirst, hkeep hlast, List.reverse_reverse]

theorem trim_eq_self {text : List Char} (h : ∀ c ∈ text, isWhitespace c = false) : trim text = text :=
  trim_of_ends (fun c hc => h c (List.mem_of_head? hc)) fun c hc => h c (List.mem_of_getLast? hc)

-- What trim takes off both ends, and that it leaves no more to take off.
theorem exists_trim (text : List Char) :
    ∃ front back, text = front ++ (trim text ++ back) ∧ (∀ c ∈ front, isWhitespace c = true) ∧
      (∀ c ∈ back, isWhitespace c = true) ∧ (∀ c ∈ (trim text).head?, isWhitespace c = false) ∧
      ∀ c ∈ (trim text).getLast?, isWhitespace c = false := by
  have hall : ∀ {text : List Char}, ∀ c ∈ text.takeWhile isWhitespace, isWhitespace c = true :=
    fun c hc => List.all_eq_true.mp List.all_takeWhile c hc
  have hfirst : ∀ {text : List Char}, ∀ c ∈ (text.dropWhile isWhitespace).head?, isWhitespace c = false := by
    intro text c hc
    have hnot := List.head?_dropWhile_not isWhitespace text
    rw [Option.mem_def.mp hc] at hnot
    simpa using hnot
  have hkeep : text.dropWhile isWhitespace =
      trim text ++ ((text.dropWhile isWhitespace).reverse.takeWhile isWhitespace).reverse := by
    rw [trim, ← List.reverse_append, List.takeWhile_append_dropWhile, List.reverse_reverse]
  refine ⟨text.takeWhile isWhitespace, ((text.dropWhile isWhitespace).reverse.takeWhile isWhitespace).reverse, ?_, hall,
    fun c hc => hall c (List.mem_reverse.mp hc), fun c hc => ?_, ?_⟩
  · rw [← hkeep, List.takeWhile_append_dropWhile]
  · refine @hfirst text c ?_
    rw [hkeep, List.head?_append, Option.mem_def.mp hc]
    rfl
  · rw [trim, List.getLast?_reverse]
    exact hfirst

theorem trim_trim (text : List Char) : trim (trim text) = trim text := by
  obtain ⟨_, _, _, _, _, hfirst, hlast⟩ := exists_trim text
  exact trim_of_ends hfirst hlast

theorem isWhitespace_of_le {c : Char} (hlo : 0x20 < c.toNat) (hhi : c.toNat < 0x80) : isWhitespace c = false := by
  have hne : c.toNat ∉ [0xA0, 0x1680, 0x2028, 0x2029, 0x202F, 0x205F, 0x3000] := by
    simp only [List.mem_cons, List.not_mem_nil, or_false]
    omega
  simp only [isWhitespace, hne, or_false, decide_eq_false_iff_not]
  omega

theorem isWhitespace_of_isDigit {c : Char} (hc : c.isDigit) : isWhitespace c = false := by
  have hrange := toNat_of_isDigit hc
  exact isWhitespace_of_le (by omega) (by omega)

theorem isWhitespace_of_mem_decimal {n : Int} {c : Char} (hc : c ∈ decimal n) : isWhitespace c = false := by
  obtain rfl | hdigit := mem_decimal hc
  · decide
  · exact isWhitespace_of_isDigit hdigit

theorem notMem_decimal {n : Int} {c : Char} (hminus : c ≠ '-') (hdigit : c.isDigit = false) : c ∉ decimal n := by
  intro hc
  obtain rfl | hyes := mem_decimal hc
  · exact hminus rfl
  · rw [hdigit] at hyes
    cases hyes

-- The parts of a line in front of its first colon and behind it.
theorem splitOn_line (key : Int) (value : List Char) :
    (decimal key ++ ':' :: value).splitOn ':' = decimal key :: value.splitOn ':' :=
  List.splitOn_append_cons_self_of_not_mem (notMem_decimal (by decide) (by decide)) value

theorem isSome_tgwsDcMappings (texts : FloatTexts) (prefs : SharedPreferences) :
    (tgwsDcMappings texts prefs).isSome = tgwsDcMappingsParse texts prefs := by
  simp only [tgwsDcMappings, tgwsDcMappingsParse, LinkedMap.isSome_associate, getD_splitOn]
  congr
  funext line
  cases parseInt (trim (line.takeWhile (· ≠ ':'))) <;> rfl

-- The lines of a mapping, and what is left of their values behind the first colon of the line.
theorem tgwsDcMappings_set (texts : FloatTexts) (prefs : SharedPreferences) {mapping : LinkedMap Int String}
    (h : ∀ entry ∈ mapping.entries, FitsInt32 entry.1 ∧ '\n' ∉ entry.2.toList) :
    ∃ result, tgwsDcMappings texts (setTgwsDcMappings prefs mapping) = some result ∧
      result.entries = mapping.entries.map fun entry =>
        (entry.1, String.ofList (trim (entry.2.toList.takeWhile (· ≠ ':')))) := by
  let write (entry : Int × String) : List Char := (toString entry.1).toList ++ ':' :: entry.2.toList
  have hlines : (((['\n'].intercalate (mapping.entries.map write)).splitOn '\n').filter fun line => ':' ∈ line) =
      mapping.entries.map write := by
    by_cases hempty : mapping.entries = []
    · rw [hempty]
      rfl
    · rw [List.splitOn_intercalate]
      · refine List.filter_eq_self.mpr fun line hline => ?_
        obtain ⟨entry, _, rfl⟩ := List.mem_map.mp hline
        simp [write]
      · intro line hline
        obtain ⟨entry, hentry, rfl⟩ := List.mem_map.mp hline
        simp only [write, toList_toString, List.mem_append, List.mem_cons, not_or]
        exact ⟨notMem_decimal (by decide) (by decide), by decide, (h entry hentry).2⟩
      · simpa using hempty
  have hstored : (getPrefString texts (setTgwsDcMappings prefs mapping) "tgws_dc_mappings"
      defaultDcMappings).toList = ['\n'].intercalate (mapping.entries.map write) := by
    rw [getPrefString, setTgwsDcMappings, AList.lookup_insert]
    exact String.toList_ofList
  simp only [tgwsDcMappings, hstored, hlines]
  refine LinkedMap.associate_map (fun value : String => String.ofList (trim (value.toList.takeWhile (· ≠ ':'))))
    fun entry hentry => ?_
  have hkey : trim (decimal entry.1) = decimal entry.1 := trim_eq_self fun c hc => isWhitespace_of_mem_decimal hc
  simp only [write, toList_toString, splitOn_line, List.getD_cons_zero, List.getD_cons_succ, getD_splitOn, hkey,
    parseInt_decimal (h entry hentry).1]
  rfl

end ToInet.Util.Prefs
