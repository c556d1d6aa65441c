import ToInet.Lib.Hex
import ToInet.Lib.Split

-- IP addresses as text.
namespace ToInet.Lib.IpLiteral

-- A number below 256, without a zero in front of another digit.
def octet (text : List Char) : Option UInt8 :=
  let n := Nat.ofDigitChars 10 text 0
  if n < 256 ∧ text = Nat.toDigits 10 n then some (UInt8.ofNat n) else none

def ipv4 (text : List Char) : Option Bytes :=
  match text.splitOn '.' with
  | [a, b, c, d] => do
      let a ← octet a
      let b ← octet b
      let c ← octet c
      let d ← octet d
      return [a, b, c, d]
  | _ => none

def dotted (bytes : Bytes) : List Char := ['.'].intercalate (bytes.map fun b => Nat.toDigits 10 b.toNat)

-- One group of an IPv6 address.
def hextet (text : List Char) : Option Bytes :=
  if 1 ≤ text.length ∧ text.length ≤ 4 ∧ text.all fun c => (digitVal c).isSome then
    let n := ofDigits 16 (text.filterMap digitVal)
    some [UInt8.ofNat (n / 256), UInt8.ofNat n]
  else none

-- The last two groups may be written as an IPv4 address.
def hextets (mayEndDotted : Bool) : List (List Char) → Option Bytes
  | [] => some []
  | [last] => if mayEndDotted then (ipv4 last).or (hextet last) else hextet last
  | part :: parts => do
      let first ← hextet part
      let rest ← hextets mayEndDotted parts
      return first ++ rest

def groups (mayEndDotted : Bool) (text : List Char) : Option Bytes :=
  if text = [] then some [] else hextets mayEndDotted (text.splitOn ':')

-- The text in front of the first two colons and behind them.
def cutDouble : List Char → Option (List Char × List Char)
  | ':' :: ':' :: text => some ([], text)
  | c :: text => (cutDouble text).map fun cut => (c :: cut.1, cut.2)
  | [] => none

-- Two colons stand for at least one group of zeros.
def ipv6 (text : List Char) : Option Bytes :=
  match cutDouble text with
  | some (front, back) => do
      let front ← groups false front
      let back ← groups true back
      if front.length + back.length ≤ 14 then
        some (front ++ List.replicate (16 - (front.length + back.length)) 0 ++ back)
      else none
  | none => do
      let bytes ← groups true text
      if bytes.length = 16 then some bytes else none

theorem octet_eq_some_iff {text : List Char} {b : UInt8} :
    octet text = some b ↔ text = Nat.toDigits 10 b.toNat := by
  simp only [octet]
  constructor
  · intro h
    split at h
    · rename_i hn
      rw [← Option.some.inj h, UInt8.toNat_ofNat', Nat.mod_eq_of_lt hn.1]
      exact hn.2
    · cases h
  · rintro rfl
    have hb := b.toNat_lt
    rw [Nat.ofDigitChars_ten_toDigits, if_pos ⟨hb, rfl⟩, UInt8.ofNat_toNat]

theorem dot_notMem_toDigits (n : Nat) : '.' ∉ Nat.toDigits 10 n := by
  intro h
  exact absurd (isDigit_of_mem_toDigits h) (by decide)

theorem splitOn_dotted {bytes : Bytes} (hne : bytes ≠ []) :
    (dotted bytes).splitOn '.' = bytes.map fun b => Nat.toDigits 10 b.toNat := by
  refine List.splitOn_intercalate '.' (fun part hpart => ?_) (by simpa using hne)
  obtain ⟨b, _, rfl⟩ := List.mem_map.mp hpart
  exact dot_notMem_toDigits b.toNat

-- An IPv4 address has one text.
theorem ipv4_eq_some_iff {text : List Char} {bytes : Bytes} :
    ipv4 text = some bytes ↔ bytes.length = 4 ∧ text = dotted bytes := by
  unfold ipv4
  constructor
  · intro h
    split at h
    · rename_i a b c d hsplit
      simp only [Option.bind_eq_bind, Option.bind_eq_some_iff, octet_eq_some_iff, Option.pure_def,
        Option.some.injEq] at h
      obtain ⟨a', rfl, b', rfl, c', rfl, d', rfl, rfl⟩ := h
      refine ⟨rfl, ?_⟩
      rw [← join_splitOn '.' text, hsplit]
      rfl
    · cases h
  · rintro ⟨hlength, rfl⟩
    match bytes, hlength with
    | [a, b, c, d], _ =>
        rw [splitOn_dotted (List.cons_ne_nil _ _)]
        simp only [List.map_cons, List.map_nil, octet_eq_some_iff.mpr rfl]
        rfl

theorem mem_dotted {bytes : Bytes} {c : Char} (hc : c ∈ dotted bytes) : c = '.' ∨ c.isDigit := by
  induction bytes with
  | nil => simp [dotted] at hc
  | cons b bytes ih =>
      cases bytes with
      | nil =>
          rw [dotted, List.map_cons, List.map_nil, List.intercalate_singleton] at hc
          exact .inr (isDigit_of_mem_toDigits hc)
      | cons other bytes =>
          rw [dotted, List.map_cons, List.map_cons, List.intercalate_cons_cons, List.mem_append, List.mem_append] at hc
          obtain (hb | hdot) | hrest := hc
          · exact .inr (isDigit_of_mem_toDigits hb)
          · exact .inl (List.mem_singleton.mp hdot)
          · exact ih hrest

-- The characters of a text that stands for an address of either kind.
def IsAddressChar (c : Char) : Prop := c = ':' ∨ c = '.' ∨ (digitVal c).isSome

theorem digitVal_range {c : Char} (h : (digitVal c).isSome) : 0x30 ≤ c.toNat ∧ c.toNat ≤ 0x66 := by
  simp only [digitVal, Char.le_def, UInt32.le_iff_toNat_le] at h
  split at h
  · next hc => exact ⟨hc.1, hc.2.trans (by decide)⟩
  · split at h
    · next hc => exact ⟨le_trans (by decide) hc.1, hc.2⟩
    · split at h
      · next hc => exact ⟨le_trans (by decide) hc.1, hc.2.trans (by decide)⟩
      · cases h

theorem IsAddressChar.range {c : Char} (h : IsAddressChar c) : 0x2E ≤ c.toNat ∧ c.toNat ≤ 0x66 := by
  obtain rfl | rfl | hdigit := h
  · decide
  · decide
  · exact ⟨le_trans (by decide) (digitVal_range hdigit).1, (digitVal_range hdigit).2⟩

theorem isAddressChar_of_ipv4 {text : List Char} {bytes : Bytes} (h : ipv4 text = some bytes) :
    ∀ c ∈ text, IsAddressChar c := by
  rw [(ipv4_eq_some_iff.mp h).2]
  intro c hc
  obtain hdot | hdigit := mem_dotted hc
  · exact .inr (.inl hdot)
  · rw [IsAddressChar, digitVal_of_isDigit hdigit]
    exact .inr (.inr rfl)

theorem colon_notMem_of_ipv4 {text : List Char} {bytes : Bytes} (h : ipv4 text = some bytes) : ':' ∉ text := by
  rw [(ipv4_eq_some_iff.mp h).2]
  intro hcolon
  obtain hdot | hdigit := mem_dotted hcolon
  · cases hdot
  · exact absurd hdigit (by decide)

theorem isAddressChar_of_hextet {text : List Char} {bytes : Bytes} (h : hextet text = some bytes) :
    ∀ c ∈ text, IsAddressChar c := by
  unfold hextet at h
  split at h
  · rename_i hall
    exact fun c hc => .inr (.inr (List.all_eq_true.mp hall.2.2 c hc))
  · cases h

theorem length_hextet {text : List Char} {bytes : Bytes} (h : hextet text = some bytes) : bytes.length = 2 := by
  unfold hextet at h
  split at h
  · rw [← Option.some.inj h]
    rfl
  · cases h

theorem isAddressChar_of_hextets {mayEndDotted : Bool} {parts : List (List Char)} {bytes : Bytes}
    (h : hextets mayEndDotted parts = some bytes) : ∀ part ∈ parts, ∀ c ∈ part, IsAddressChar c := by
  induction parts generalizing bytes with
  | nil => nofun
  | cons part parts ih =>
      cases parts with
      | nil =>
          rw [List.forall_mem_singleton]
          unfold hextets at h
          split at h
          · obtain hfour | ⟨_, hgroup⟩ := Option.or_eq_some_iff.mp h
            · exact isAddressChar_of_ipv4 hfour
            · exact isAddressChar_of_hextet hgroup
          · exact isAddressChar_of_hextet h
      | cons other parts =>
          rw [hextets] at h
          · obtain ⟨first, hfirst, h⟩ := Option.bind_eq_some_iff.mp h
            obtain ⟨rest, hrest, _⟩ := Option.bind_eq_some_iff.mp h
            exact List.forall_mem_cons.mpr ⟨isAddressChar_of_hextet hfirst, ih hrest⟩
          · exact List.cons_ne_nil other parts

theorem isAddressChar_of_groups {mayEndDotted : Bool} {text : List Char} {bytes : Bytes}
    (h : groups mayEndDotted text = some bytes) : ∀ c ∈ text, IsAddressChar c := by
  unfold groups at h
  split at h
  · rename_i hempty
    rw [hempty]
    nofun
  · intro c hc
    obtain rfl | ⟨part, hpart, hmem⟩ := mem_splitOn ':' hc
    · exact .inl rfl
    · exact isAddressChar_of_hextets h part hpart c hmem

theorem cutDouble_eq_some {text front back : List Char} (h : cutDouble text = some (front, back)) :
    text = front ++ ':' :: ':' :: back := by
  induction text using cutDouble.induct generalizing front with
  | case1 text =>
      obtain ⟨rfl, rfl⟩ := Prod.mk.inj (Option.some.inj h)
      rfl
  | case2 c text hne ih =>
      rw [cutDouble.eq_2 _ _ hne] at h
      obtain ⟨⟨inner, rest⟩, hcut, hsame⟩ := Option.map_eq_some_iff.mp h
      obtain ⟨rfl, rfl⟩ := Prod.mk.inj hsame
      rw [ih hcut]
      rfl
  | case3 => cases h

theorem isAddressChar_of_ipv6 {text : List Char} {bytes : Bytes} (h : ipv6 text = some bytes) :
    ∀ c ∈ text, IsAddressChar c := by
  unfold ipv6 at h
  split at h
  · rename_i front back hcut
    obtain ⟨_, hfront, h⟩ := Option.bind_eq_some_iff.mp h
    obtain ⟨_, hback, _⟩ := Option.bind_eq_some_iff.mp h
    rw [cutDouble_eq_some hcut, List.forall_mem_append, List.forall_mem_cons, List.forall_mem_cons]
    exact ⟨isAddressChar_of_groups hfront, .inl rfl, .inl rfl, isAddressChar_of_groups hback⟩
  · obtain ⟨_, hall, _⟩ := Option.bind_eq_some_iff.mp h
    exact isAddressChar_of_groups hall

-- The one group of a text without a colon is too short for an address.
theorem colon_mem_of_ipv6 {text : List Char} {bytes : Bytes} (h : ipv6 text = some bytes) : ':' ∈ text := by
  unfold ipv6 at h
  split at h
  · rename_i front back hcut
    rw [cutDouble_eq_some hcut]
    exact List.mem_append_right _ List.mem_cons_self
  · obtain ⟨all, hall, hlength⟩ := Option.bind_eq_some_iff.mp h
    by_contra hcolon
    split at hlength
    · rename_i hsixteen
      unfold groups at hall
      split at hall
      · rw [← Option.some.inj hall] at hsixteen
        cases hsixteen
      · rw [List.splitOn_eq_singleton hcolon, hextets, if_pos rfl] at hall
        obtain hfour | ⟨_, hgroup⟩ := Option.or_eq_some_iff.mp hall
        · rw [(ipv4_eq_some_iff.mp hfour).1] at hsixteen
          cases hsixteen
        · rw [length_hextet hgroup] at hsixteen
          cases hsixteen
    · cases hlength

end ToInet.Lib.IpLiteral
