import Mathlib.Data.List.Basic
import Mathlib.Tactic.Ring
import Mathlib.Tactic.NormNum
import Mathlib.Tactic.Positivity
import Mathlib.Tactic.Lift

namespace ToInet.Lib

abbrev Bytes := List UInt8

-- Conversion of an integer to a byte keeps its low eight bits, also below zero.
def toByte (n : Int) : UInt8 := UInt8.ofInt n

def toByteArray (text : String) : Bytes := text.toUTF8.data.toList

-- Decided for one element after the other, and not for every byte or character there is.
theorem forall_mem_of_all {α : Type} {p : α → Prop} [DecidablePred p] {l : List α}
    (h : l.all (fun a => decide (p a)) = true) : ∀ a ∈ l, p a :=
  fun a ha => of_decide_eq_true (List.all_eq_true.mp h a ha)

-- The unsigned value of a field, most significant byte first.
def beNat : Bytes → Nat
  | [] => 0
  | b :: rest => b.toNat * 256 ^ rest.length + beNat rest

def beBytes : Nat → Int → Bytes
  | 0, _ => []
  | width + 1, n => toByte (n >>> (8 * width)) :: beBytes width n

def leBytes : Nat → Nat → Bytes
  | 0, _ => []
  | width + 1, n => toByte n :: leBytes width (n / 256)

@[simp] theorem length_leBytes (width n : Nat) : (leBytes width n).length = width := by
  induction width generalizing n with
  | zero => rfl
  | succ width ih => simp [leBytes, ih]

@[simp] theorem length_beBytes (width : Nat) (n : Int) : (beBytes width n).length = width := by
  induction width with
  | zero => rfl
  | succ width ih => simp [beBytes, ih]

theorem toNat_toByte (n : Int) : ((toByte n).toNat : Int) = n % 256 := by
  have hn : 0 ≤ n % 256 := Int.emod_nonneg n (by decide)
  have hlt : n % 256 < 256 := Int.emod_lt_of_pos n (by decide)
  simp only [toByte, UInt8.ofInt, UInt8.toNat_ofNat']
  norm_num
  omega

theorem toNat_toByte_nat (n : Nat) : (toByte n).toNat = n % 256 := by
  exact_mod_cast toNat_toByte n

theorem toByte_toNat (b : UInt8) : toByte (b.toNat : Int) = b := by
  apply UInt8.toNat_inj.mp
  have h := toNat_toByte (b.toNat : Int)
  have hb := b.toNat_lt
  omega

-- A byte from 128 on is negative where it has a sign.
theorem toInt8_toByte (n : Nat) (h : n < 256) :
    (toByte n).toInt8.toInt = if n < 128 then (n : Int) else (n : Int) - 256 := by
  have htoNat : (toByte n).toNat = n := by
    rw [toNat_toByte_nat]
    omega
  have hcond : (toByte n).toInt8.toInt = _ := BitVec.toInt_eq_toNat_cond (toByte n).toBitVec
  rw [hcond, UInt8.toNat_toBitVec, htoNat]
  split <;> split <;> omega

theorem toByte_add_mul (n k : Int) : toByte (n + k * 256) = toByte n := by
  apply UInt8.toNat_inj.mp
  have h := toNat_toByte (n + k * 256)
  have h' := toNat_toByte n
  rw [Int.add_mul_emod_self_right] at h
  omega

theorem shift_bytes (n : Int) (width : Nat) : n >>> (8 * width) = n / 256 ^ width := by
  rw [Int.shiftRight_eq_div_pow, pow_mul]
  norm_num

theorem beNat_lt (field : Bytes) : beNat field < 256 ^ field.length := by
  induction field with
  | nil => simp [beNat]
  | cons b rest ih =>
      rw [beNat, List.length_cons, pow_succ]
      have hm := Nat.mul_le_mul_right (256 ^ rest.length) (show b.toNat + 1 ≤ 256 from b.toNat_lt)
      rw [Nat.add_mul, Nat.one_mul] at hm
      omega

theorem beNat_beBytes_mod (width n : Nat) : beNat (beBytes width n) = n % 256 ^ width := by
  induction width with
  | zero => simp [beBytes, beNat, Nat.mod_one]
  | succ width ih =>
      have hb : (toByte ((n : Int) >>> (8 * width))).toNat = n / 256 ^ width % 256 := by
        have ht := toNat_toByte ((n : Int) >>> (8 * width))
        rw [shift_bytes] at ht ⊢
        exact_mod_cast ht
      rw [beBytes, beNat, hb, length_beBytes, ih, pow_succ, Nat.mod_mul]
      ring

-- A field that is wide enough holds its number exactly.
theorem beNat_beBytes (width n : Nat) (h : n < 256 ^ width) : beNat (beBytes width n) = n := by
  rw [beNat_beBytes_mod, Nat.mod_eq_of_lt h]

theorem beBytes_add_mul (width : Nat) (n k : Int) :
    beBytes width (n + k * 256 ^ width) = beBytes width n := by
  induction width generalizing k with
  | zero => rfl
  | succ width ih =>
      have hd : (n + k * 256 ^ (width + 1)) / 256 ^ width = n / 256 ^ width + k * 256 := by
        rw [pow_succ', ← mul_assoc, Int.add_mul_ediv_right _ _ (by positivity)]
      have ht : n + k * 256 ^ (width + 1) = n + k * 256 * 256 ^ width := by ring
      rw [beBytes, beBytes, shift_bytes, shift_bytes, hd, toByte_add_mul, ht, ih]

-- A field keeps its number up to whole rounds of its width.
theorem beBytes_emod_add (width : Nat) (n k : Int) :
    beBytes width (n % 256 ^ width + k) = beBytes width (n + k) := by
  conv_rhs => rw [← Int.emod_add_mul_ediv n (256 ^ width), mul_comm, add_right_comm, beBytes_add_mul]

theorem beBytes_emod (width : Nat) (n : Int) : beBytes width (n % 256 ^ width) = beBytes width n := by
  have hmod := beBytes_emod_add width n 0
  rwa [add_zero, add_zero] at hmod

theorem beBytes_beNat (field : Bytes) : beBytes field.length (beNat field) = field := by
  induction field with
  | nil => rfl
  | cons b rest ih =>
      have hlt : (beNat rest : Int) < 256 ^ rest.length := by exact_mod_cast beNat_lt rest
      have hd : ((beNat (b :: rest) : Nat) : Int) / 256 ^ rest.length = b.toNat := by
        rw [beNat, Nat.cast_add, Nat.cast_mul, Nat.cast_pow, add_comm,
          Nat.cast_ofNat, Int.add_mul_ediv_right _ _ (by positivity),
          Int.ediv_eq_zero_of_lt (by positivity) hlt, zero_add]
      have ht : ((beNat (b :: rest) : Nat) : Int) = beNat rest + b.toNat * 256 ^ rest.length := by
        rw [beNat]
        push_cast
        ring
      rw [List.length_cons, beBytes, shift_bytes, hd, toByte_toNat, ht, beBytes_add_mul, ih]

-- Reading outside an array throws; the model's readers return none there.
def byteAt (a : Bytes) (i : Nat) : Option Nat := a[i]?.map UInt8.toNat

def u16At (a : Bytes) (i : Nat) : Option Nat := do
  let high ← byteAt a i
  let low ← byteAt a (i + 1)
  return high <<< 8 ||| low

def u24At (a : Bytes) (i : Nat) : Option Nat := do
  let high ← byteAt a i
  let middle ← byteAt a (i + 1)
  let low ← byteAt a (i + 2)
  return high <<< 16 ||| middle <<< 8 ||| low

def fieldAt (a : Bytes) (i width : Nat) : Option Nat :=
  if i + width ≤ a.length then some (beNat ((a.drop i).take width)) else none

-- Writing outside an array throws as well.
def overwrite (a : Bytes) (i : Nat) (field : Bytes) : Option Bytes :=
  if i + field.length ≤ a.length then
    some (a.take i ++ field ++ a.drop (i + field.length))
  else none

def arraycopy (src : Bytes) (srcPos : Nat) (dest : Bytes) (destPos : Nat) (count : Int) :
    Option Bytes :=
  if 0 ≤ count ∧ srcPos + count ≤ src.length ∧ destPos + count ≤ dest.length then
    overwrite dest destPos ((src.drop srcPos).take count.toNat)
  else none

theorem byteAt_of_lt (a : Bytes) (i : Nat) (h : i < a.length) : byteAt a i = some a[i].toNat := by
  simp [byteAt, h]

theorem byteAt_of_ge (a : Bytes) (i : Nat) (h : a.length ≤ i) : byteAt a i = none := by
  simp [byteAt, h]

theorem take_two (a : Bytes) (i : Nat) (h : i + 2 ≤ a.length) :
    (a.drop i).take 2 = [a[i], a[i + 1]] := by
  rw [List.drop_eq_getElem_cons (by omega), List.drop_eq_getElem_cons (by omega)]
  rfl

theorem shiftLeft_or (high low bits : Nat) (h : low < 2 ^ bits) :
    high <<< bits ||| low = high * 2 ^ bits + low := by
  rw [← Nat.shiftLeft_add_eq_or_of_lt h, Nat.shiftLeft_eq]

theorem u16At_eq_fieldAt (a : Bytes) (i : Nat) : u16At a i = fieldAt a i 2 := by
  by_cases h : i + 2 ≤ a.length
  · rw [u16At, byteAt_of_lt a i (by omega), byteAt_of_lt a (i + 1) (by omega), fieldAt, if_pos h,
      take_two a i h]
    simp [beNat, shiftLeft_or _ _ 8 (a[i + 1]).toNat_lt]
  · rw [fieldAt, if_neg h, u16At, byteAt_of_ge a (i + 1) (by omega)]
    cases byteAt a i <;> rfl

theorem u24At_eq_fieldAt (a : Bytes) (i : Nat) : u24At a i = fieldAt a i 3 := by
  by_cases h : i + 3 ≤ a.length
  · have ht : (a.drop i).take 3 = [a[i], a[i + 1], a[i + 2]] := by
      rw [List.drop_eq_getElem_cons (by omega), List.take_succ_cons, take_two a (i + 1) (by omega)]
    have hm := (a[i + 1]).toNat_lt
    have hl := (a[i + 2]).toNat_lt
    have hml := shiftLeft_or a[i + 1].toNat a[i + 2].toNat 8 hl
    have hh := shiftLeft_or a[i].toNat (a[i + 1].toNat * 2 ^ 8 + a[i + 2].toNat) 16 (by omega)
    rw [u24At, byteAt_of_lt a i (by omega), byteAt_of_lt a (i + 1) (by omega),
      byteAt_of_lt a (i + 2) (by omega), fieldAt, if_pos h, ht]
    simpa [beNat, Nat.or_assoc, hml] using hh
  · rw [fieldAt, if_neg h, u24At, byteAt_of_ge a (i + 2) (by omega)]
    cases byteAt a i <;> cases byteAt a (i + 1) <;> rfl

@[simp] theorem byteAt_append (before : Bytes) (b : UInt8) (after : Bytes) :
    byteAt (before ++ b :: after) before.length = some b.toNat := by
  simp [byteAt]

theorem fieldAt_append (before field after : Bytes) :
    fieldAt (before ++ field ++ after) before.length field.length = some (beNat field) := by
  simp [fieldAt]

-- These forms take the position of the field from a splitting of the array.
theorem byteAt_of_eq {a after : Bytes} {b : UInt8} {i : Nat} (before : Bytes)
    (ha : a = before ++ b :: after) (hi : i = before.length) : byteAt a i = some b.toNat := by
  rw [ha, hi, byteAt_append]

theorem byteAt_toByte_of_eq {a after : Bytes} {i n : Nat} (before : Bytes)
    (ha : a = before ++ toByte n :: after) (hi : i = before.length) (hn : n < 256) :
    byteAt a i = some n := by
  have ht := toNat_toByte n
  rw [byteAt_of_eq before ha hi]
  congr 1
  omega

theorem fieldAt_of_eq {a after : Bytes} {i width n : Nat} (before : Bytes)
    (ha : a = before ++ beBytes width n ++ after) (hi : i = before.length) (hn : n < 256 ^ width) :
    fieldAt a i width = some n := by
  have h := fieldAt_append before (beBytes width n) after
  rwa [length_beBytes, beNat_beBytes width n hn, ← ha, ← hi] at h

-- A byte of a part is found at its place within the part.
theorem byteAt_part {a part after : Bytes} {i : Nat} (before : Bytes) (ha : a = before ++ part ++ after)
    (hlow : before.length ≤ i) (hhigh : i < before.length + part.length) :
    byteAt a i = byteAt part (i - before.length) := by
  rw [byteAt, byteAt, ha, List.append_assoc, List.getElem?_append_right hlow, List.getElem?_append_left (by omega)]

theorem byteAt_mono {a : Bytes} {i v : Nat} (more : Bytes) (h : byteAt a i = some v) :
    byteAt (a ++ more) i = some v := by
  obtain ⟨b, hb, rfl⟩ := Option.map_eq_some_iff.mp h
  obtain ⟨hi, _⟩ := List.getElem?_eq_some_iff.mp hb
  rw [byteAt, List.getElem?_append_left hi, hb]
  rfl

theorem fieldAt_bound {a : Bytes} {i width v : Nat} (h : fieldAt a i width = some v) :
    i + width ≤ a.length := by
  by_contra hn
  simp [fieldAt, hn] at h

theorem slice_append_drop (a : Bytes) (i n : Nat) : (a.drop i).take n ++ a.drop (i + n) = a.drop i := by
  rw [← List.drop_drop, List.take_append_drop]

theorem beBytes_slice {a : Bytes} {i width : Nat} (h : i + width ≤ a.length) :
    beBytes width (beNat ((a.drop i).take width)) = (a.drop i).take width := by
  have hlength : ((a.drop i).take width).length = width := by
    rw [List.length_take, List.length_drop]
    omega
  have hbytes := beBytes_beNat ((a.drop i).take width)
  rwa [hlength] at hbytes

theorem fieldAt_exists (a : Bytes) (i width : Nat) (h : i + width ≤ a.length) :
    ∃ v, fieldAt a i width = some v := ⟨_, if_pos h⟩

theorem fieldAt_mono {a : Bytes} {i width v : Nat} (more : Bytes) (h : fieldAt a i width = some v) :
    fieldAt (a ++ more) i width = some v := by
  have hb := fieldAt_bound h
  rw [fieldAt, if_pos hb] at h
  rw [fieldAt, if_pos (by rw [List.length_append]; omega), List.drop_append_of_le_length (by omega),
    List.take_append_of_le_length (by rw [List.length_drop]; omega), h]

theorem overwrite_append (before old new after : Bytes) (h : old.length = new.length) :
    overwrite (before ++ old ++ after) before.length new = some (before ++ new ++ after) := by
  have hd : (before ++ old ++ after).drop (before.length + new.length) = after := by
    rw [← h, ← List.length_append, List.drop_left]
  rw [overwrite, if_pos (by simp only [List.length_append]; omega), hd, List.append_assoc before,
    List.take_left]

theorem overwrite_of_eq {a before after : Bytes} {i width : Nat} {old : Int} (new : Int)
    (ha : a = before ++ beBytes width old ++ after) (hi : i = before.length) :
    overwrite a i (beBytes width new) = some (before ++ beBytes width new ++ after) := by
  rw [ha, hi]
  exact overwrite_append before _ _ after (by simp)

theorem arraycopy_append (s₁ s₂ s₃ d₁ d₂ d₃ : Bytes) (h : d₂.length = s₂.length) :
    arraycopy (s₁ ++ s₂ ++ s₃) s₁.length (d₁ ++ d₂ ++ d₃) d₁.length s₂.length =
      some (d₁ ++ s₂ ++ d₃) := by
  have hs : ((s₁ ++ s₂ ++ s₃).drop s₁.length).take (s₂.length : Int).toNat = s₂ := by simp
  have hc : (0 : Int) ≤ s₂.length ∧ s₁.length + (s₂.length : Int) ≤ (s₁ ++ s₂ ++ s₃).length ∧
      d₁.length + (s₂.length : Int) ≤ (d₁ ++ d₂ ++ d₃).length := by
    simp only [List.length_append]
    omega
  rw [arraycopy, if_pos hc, hs, overwrite_append d₁ d₂ s₂ d₃ h]

theorem arraycopy_negative (src dest : Bytes) (srcPos destPos : Nat) (count : Int) (h : count < 0) :
    arraycopy src srcPos dest destPos count = none := by
  rw [arraycopy, if_neg (by omega)]

theorem overwrite_bound {a out field : Bytes} {i : Nat} (h : overwrite a i field = some out) :
    i + field.length ≤ a.length := by
  by_contra hn
  simp [overwrite, hn] at h

theorem length_overwrite {a out field : Bytes} {i : Nat} (h : overwrite a i field = some out) :
    out.length = a.length := by
  have hb := overwrite_bound h
  rw [overwrite, if_pos hb] at h
  obtain rfl := Option.some.inj h
  simp only [List.length_append, List.length_take, List.length_drop]
  omega

theorem overwrite_exists (a : Bytes) (i : Nat) (field : Bytes) (h : i + field.length ≤ a.length) :
    ∃ out, overwrite a i field = some out := ⟨_, if_pos h⟩

theorem drop_overwrite {a out field : Bytes} {i k : Nat} (h : overwrite a i field = some out)
    (hk : i + field.length ≤ k) : out.drop k = a.drop k := by
  have hb := overwrite_bound h
  rw [overwrite, if_pos hb] at h
  obtain rfl := Option.some.inj h
  have hl : (a.take i ++ field).length = i + field.length := by
    rw [List.length_append, List.length_take]
    omega
  rw [List.drop_append, List.drop_eq_nil_of_le (by omega), hl, List.drop_drop, List.nil_append]
  congr 1
  omega

theorem overwrite_mono {a out field : Bytes} {i : Nat} (more : Bytes)
    (h : overwrite a i field = some out) : overwrite (a ++ more) i field = some (out ++ more) := by
  have hb := overwrite_bound h
  rw [overwrite, if_pos hb] at h
  obtain rfl := Option.some.inj h
  rw [overwrite, if_pos (by rw [List.length_append]; omega), List.take_append_of_le_length (by omega),
    List.drop_append_of_le_length (by omega), ← List.append_assoc]

-- The array depends on its number only through one fixed-width field.
def StoresAt (array : Int → Bytes) (offset width : Nat) : Prop :=
  ∃ before after, before.length = offset ∧
    ∀ n, array n = before ++ beBytes width n ++ after

theorem StoresAt.read {array : Int → Bytes} {offset width : Nat} (h : StoresAt array offset width)
    (n : Int) (h0 : 0 ≤ n) (hn : n < 256 ^ width) :
    fieldAt (array n) offset width = some n.toNat := by
  obtain ⟨before, after, hl, ha⟩ := h
  lift n to Nat using h0
  exact fieldAt_of_eq before (ha n) hl.symm (by exact_mod_cast hn)

theorem StoresAt.write {array : Int → Bytes} {offset width : Nat} (h : StoresAt array offset width)
    (old new : Int) : overwrite (array old) offset (beBytes width new) = some (array new) := by
  obtain ⟨before, after, hl, ha⟩ := h
  rw [overwrite_of_eq new (ha old) hl.symm, ha new]

-- Writing back the number a field holds changes nothing.
theorem overwrite_fieldAt {a : Bytes} {i width v : Nat} (h : fieldAt a i width = some v) :
    overwrite a i (beBytes width v) = some a := by
  have hb := fieldAt_bound h
  rw [fieldAt, if_pos hb] at h
  have hw := beBytes_slice hb
  rw [Option.some.inj h] at hw
  rw [overwrite, if_pos (by simpa using hb), hw, ← hw, length_beBytes, hw, List.append_assoc, slice_append_drop,
    List.take_append_drop]

theorem toLower_cases (c : Char) : c.toLower = c ∨ 65 ≤ c.toNat ∧ c.toNat ≤ 90 := by
  unfold Char.toLower
  split
  · rename_i hupper
    obtain ⟨hlow, hhigh⟩ := hupper
    rw [ge_iff_le, UInt32.le_iff_toNat_le] at hlow
    rw [UInt32.le_iff_toNat_le] at hhigh
    exact .inr ⟨hlow, hhigh⟩
  · exact .inl rfl

end ToInet.Lib
