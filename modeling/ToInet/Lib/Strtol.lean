import Mathlib.Data.List.Basic
import Mathlib.Tactic.NormNum

-- Numbers as text: strtol of C on a decimal notation.
namespace ToInet.Lib

-- isspace of C in its own locale.
def isSpace (c : Char) : Bool := c = ' ' ∨ 9 ≤ c.toNat ∧ c.toNat ≤ 13

def digitVal (c : Char) : Option Nat :=
  if '0' ≤ c ∧ c ≤ '9' then some (c.toNat - '0'.toNat)
  else if 'a' ≤ c ∧ c ≤ 'f' then some (c.toNat - 'a'.toNat + 10)
  else if 'A' ≤ c ∧ c ≤ 'F' then some (c.toNat - 'A'.toNat + 10)
  else none

-- The longest run of digits, and what stands behind it.
def takeDigits (base : Nat) : List Char → List Nat × List Char
  | [] => ([], [])
  | c :: text =>
      match digitVal c with
      | some digit =>
          if digit < base then (digit :: (takeDigits base text).1, (takeDigits base text).2) else ([], c :: text)
      | none => ([], c :: text)

def ofDigits (base : Nat) (digits : List Nat) : Nat := digits.foldl (fun n digit => base * n + digit) 0

def takeSign : List Char → Bool × List Char
  | '-' :: text => (true, text)
  | '+' :: text => (false, text)
  | text => (false, text)

-- The base that a prefix chooses; the zero of an octal number is one of its digits.
def takeBase : List Char → Nat × List Char
  | '0' :: x :: c :: text =>
      if (x = 'x' ∨ x = 'X') ∧ (digitVal c).isSome then (16, c :: text) else (8, '0' :: x :: c :: text)
  | '0' :: text => (8, '0' :: text)
  | text => (10, text)

-- A long has 64 bits.
def toLong (n : Int) : Int := max (-2 ^ 63) (min n (2 ^ 63 - 1))

-- strtol in base 0: the value and the end. Without a digit the end is the start.
def strtol (text : List Char) : Int × List Char :=
  let signed := takeSign (text.dropWhile isSpace)
  let based := takeBase signed.2
  let digits := takeDigits based.1 based.2
  if digits.1 = [] then (0, text)
  else (toLong (if signed.1 then -(ofDigits based.1 digits.1 : Int) else ofDigits based.1 digits.1), digits.2)

-- An integer in decimal notation.
def decimal (n : Int) : List Char :=
  if n < 0 then '-' :: Nat.toDigits 10 n.natAbs else Nat.toDigits 10 n.natAbs

theorem toNat_of_isDigit {c : Char} (hc : c.isDigit) : 48 ≤ c.toNat ∧ c.toNat ≤ 57 := by
  simpa [Char.isDigit, Char.le_def, UInt32.le_iff_toNat_le] using hc

theorem digitVal_of_isDigit {c : Char} (hc : c.isDigit) : digitVal c = some (c.toNat - '0'.toNat) := by
  have hrange : '0' ≤ c ∧ c ≤ '9' := by simpa [Char.isDigit, Char.le_def] using hc
  simp [digitVal, hrange]

theorem takeDigits_of_isDigit {text : List Char} (htext : ∀ c ∈ text, c.isDigit) :
    takeDigits 10 text = (text.map fun c => c.toNat - '0'.toNat, []) := by
  induction text with
  | nil => rfl
  | cons c text ih =>
      have hc : c.isDigit := htext c List.mem_cons_self
      have hlt : c.toNat - '0'.toNat < 10 := by
        have hle := (toNat_of_isDigit hc).2
        have hzero : '0'.toNat = 48 := rfl
        omega
      have hrest := ih fun d hd => htext d (List.mem_cons_of_mem c hd)
      simp only [takeDigits, digitVal_of_isDigit hc, hlt, hrest, if_true, List.map_cons]

theorem ofDigits_map (text : List Char) :
    ofDigits 10 (text.map fun c => c.toNat - '0'.toNat) = Nat.ofDigitChars 10 text 0 := by
  rw [ofDigits, List.foldl_map, Nat.ofDigitChars_eq_foldl]

theorem isDigit_of_mem_toDigits {n : Nat} {c : Char} (hc : c ∈ Nat.toDigits 10 n) : c.isDigit :=
  Nat.isDigit_of_mem_toDigits (by decide) (by decide) hc

-- Only zero itself begins with a zero.
theorem head_toDigits {n : Nat} (hn : 0 < n) : (Nat.toDigits 10 n).head? ≠ some '0' := by
  induction n using Nat.strongRecOn with
  | ind n ih =>
      rw [Nat.toDigits_eq_if (by decide)]
      split
      · next hlt =>
          have hall : ∀ m < 10, 0 < m → m.digitChar ≠ '0' := by decide
          simpa using hall n hlt hn
      · next hge =>
          have hdiv := ih (n / 10) (by omega) (by omega)
          cases hdigits : Nat.toDigits 10 (n / 10) with
          | nil => exact absurd hdigits Nat.toDigits_ne_nil
          | cons c text => simpa [hdigits] using hdiv

-- The digits behind a sign: zero is read as an octal number.
theorem takeDigits_toDigits (n : Nat) :
    ∃ digits, takeDigits (takeBase (Nat.toDigits 10 n)).1 (takeBase (Nat.toDigits 10 n)).2 = (digits, []) ∧
      digits ≠ [] ∧ ofDigits (takeBase (Nat.toDigits 10 n)).1 digits = n := by
  obtain rfl | hn := Nat.eq_zero_or_pos n
  · exact ⟨[0], by decide, by decide, by decide⟩
  · have hbase : takeBase (Nat.toDigits 10 n) = (10, Nat.toDigits 10 n) := by
      have hhead := head_toDigits hn
      generalize Nat.toDigits 10 n = text at hhead
      unfold takeBase
      split <;> first | rfl | exact absurd rfl hhead
    rw [hbase]
    refine ⟨_, takeDigits_of_isDigit fun c hc => isDigit_of_mem_toDigits hc, ?_, ?_⟩
    · simp [Nat.toDigits_ne_nil]
    · rw [ofDigits_map, Nat.ofDigitChars_ten_toDigits]

theorem dropWhile_isSpace_toDigits (n : Nat) : (Nat.toDigits 10 n).dropWhile isSpace = Nat.toDigits 10 n := by
  cases htext : Nat.toDigits 10 n with
  | nil => rfl
  | cons c text =>
      have hc : c.isDigit := isDigit_of_mem_toDigits (n := n) (by simp [htext])
      have hspace : isSpace c = false := by
        have hle := (toNat_of_isDigit hc).1
        have hne : c ≠ ' ' := by rintro rfl; exact absurd hle (by decide)
        simp only [isSpace, hne, false_or, decide_eq_false_iff_not]
        omega
      simp [hspace]

theorem takeSign_toDigits (n : Nat) : takeSign (Nat.toDigits 10 n) = (false, Nat.toDigits 10 n) := by
  cases htext : Nat.toDigits 10 n with
  | nil => rfl
  | cons c text =>
      have hc : c.isDigit := isDigit_of_mem_toDigits (n := n) (by simp [htext])
      unfold takeSign
      split
      · next heq => exact absurd hc (by rw [(List.cons.inj heq).1]; decide)
      · next heq => exact absurd hc (by rw [(List.cons.inj heq).1]; decide)
      · rfl

-- strtol reads a decimal notation as it is meant.
theorem strtol_decimal {n : Int} (hlo : -2 ^ 63 ≤ n) (hhi : n < 2 ^ 63) : strtol (decimal n) = (n, []) := by
  have hlong : toLong n = n := by unfold toLong; omega
  obtain ⟨digits, htake, hne, hval⟩ := takeDigits_toDigits n.natAbs
  unfold decimal strtol
  split
  · next hneg =>
      have hspace : ('-' :: Nat.toDigits 10 n.natAbs).dropWhile isSpace = '-' :: Nat.toDigits 10 n.natAbs :=
        List.dropWhile_cons_of_neg (by decide)
      have hvalue : -(n.natAbs : Int) = n := by omega
      simp only [hspace, takeSign, htake, hne, hval, hvalue, hlong, if_false, if_true]
  · next hneg =>
      have hvalue : (n.natAbs : Int) = n := by omega
      simp only [dropWhile_isSpace_toDigits, takeSign_toDigits, htake, hne, hval, hvalue, hlong, if_false,
        Bool.false_eq_true]

theorem mem_decimal {n : Int} {c : Char} (hc : c ∈ decimal n) : c = '-' ∨ c.isDigit := by
  unfold decimal at hc
  split at hc
  · rcases List.mem_cons.mp hc with hminus | hdigit
    · exact .inl hminus
    · exact .inr (isDigit_of_mem_toDigits hdigit)
  · exact .inr (isDigit_of_mem_toDigits hc)

theorem toDigits_injective : Function.Injective (Nat.toDigits 10) := by
  intro m n h
  rw [← Nat.ofDigitChars_ten_toDigits (n := m), h, Nat.ofDigitChars_ten_toDigits]

theorem decimal_injective : Function.Injective decimal := by
  -- A sign is no digit.
  have hsign (m n : Nat) : '-' :: Nat.toDigits 10 m ≠ Nat.toDigits 10 n := by
    intro h
    have hdigit : '-'.isDigit := isDigit_of_mem_toDigits (h ▸ List.mem_cons_self)
    exact absurd hdigit (by decide)
  intro m n h
  unfold decimal at h
  split at h <;> split at h
  · have habs := toDigits_injective (List.cons.inj h).2
    omega
  · exact absurd h (hsign _ _)
  · exact absurd h.symm (hsign _ _)
  · have habs := toDigits_injective h
    omega

theorem toList_toString (n : Int) : (toString n).toList = decimal n := by
  rw [Int.toString_eq_repr, Int.repr_eq_if, decimal]
  by_cases hn : n < 0
  · have hnot : ¬0 ≤ n := by omega
    have habs : (-n).toNat = n.natAbs := by omega
    simp [hn, hnot, habs]
  · have hnonneg : 0 ≤ n := by omega
    have habs : n.toNat = n.natAbs := by omega
    simp [hn, hnonneg, habs]

theorem toString_inj {m n : Int} : toString m = toString n ↔ m = n := by
  rw [← String.toList_inj, toList_toString, toList_toString]
  exact decimal_injective.eq_iff

end ToInet.Lib
