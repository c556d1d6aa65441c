import ToInet.Lib.Bytes
import ToInet.Lib.Strtol

-- Bytes in hexadecimal notation.
namespace ToInet.Lib.Hex

-- Two small digits for each byte.
def text (bytes : Bytes) : List Char :=
  bytes.flatMap fun b => [Nat.digitChar (b.toNat / 16), Nat.digitChar (b.toNat % 16)]

-- Two digits of either case for each byte.
inductive Spells : List Char → Bytes → Prop
  | nil : Spells [] []
  | cons {high low : Char} {b : UInt8} {text : List Char} {bytes : Bytes}
      (hhigh : digitVal high = some (b.toNat / 16)) (hlow : digitVal low = some (b.toNat % 16))
      (h : Spells text bytes) : Spells (high :: low :: text) (b :: bytes)

theorem digitVal_digitChar {n : Nat} (h : n < 16) : digitVal (Nat.digitChar n) = some n := by
  revert n
  decide

@[simp] theorem length_text (bytes : Bytes) : (text bytes).length = 2 * bytes.length := by
  induction bytes with
  | nil => rfl
  | cons b bytes ih =>
      rw [text, List.flatMap_cons, List.length_append, ← text, ih, List.length_cons, List.length_cons, List.length_cons,
        List.length_nil]
      omega

theorem spells_text (bytes : Bytes) : Spells (text bytes) bytes := by
  induction bytes with
  | nil => exact .nil
  | cons b bytes ih =>
      have hb := b.toNat_lt
      exact .cons (digitVal_digitChar (by omega)) (digitVal_digitChar (by omega)) ih

theorem Spells.length {text : List Char} {bytes : Bytes} (h : Spells text bytes) : text.length = 2 * bytes.length := by
  induction h with
  | nil => rfl
  | cons _ _ _ ih =>
      rw [List.length_cons, List.length_cons, ih, List.length_cons]
      omega

end ToInet.Lib.Hex
