import ToInet.Lib.Hex
import ToInet.Tgws.TgwsCore.FakeTls

-- The texts of a secret, and what becomes of them.
namespace ToInet.Tgws.TgwsCore

open ToInet.Lib

-- btnGenerateSecret of TgwsBottomSheet
def generateSecret (randomBytes : Bytes) (fakeTls : String) : String :=
  let randomHex := String.ofList (Hex.text randomBytes)
  if fakeTls ≠ "" then "ee" ++ randomHex ++ String.ofList (Hex.text (toByteArray fakeTls)) else "dd" ++ randomHex

-- 32 digits, or the texts that are generated.
inductive Accepted (secret : Bytes) (domain : String) : List Char → Prop
  | plain {text : List Char} (h : Hex.Spells text secret) : Accepted secret domain text
  | dd : Accepted secret domain (['d', 'd'] ++ Hex.text secret)
  | ee : Accepted secret domain (['e', 'e'] ++ (Hex.text secret ++ Hex.text (toByteArray domain)))

-- Character.digit for the digits of hexadecimal notation.
def HexDigits (platform : Platform) : Prop := ∀ c n, digitVal c = some n → platform.digit c = some n

def Prefixed (text : List Char) : Prop := ['d', 'd'] <+: text ∨ ['e', 'e'] <+: text

instance : DecidablePred Prefixed := fun text => inferInstanceAs (Decidable (['d', 'd'] <+: text ∨ ['e', 'e'] <+: text))

variable {platform : Platform} {secret : Bytes} {domain : String} {text : List Char}

theorem accepted_generateSecret (secret : Bytes) (domain : String) :
    Accepted secret domain (generateSecret secret domain).toList := by
  unfold generateSecret
  split
  · have htext := @Accepted.ee secret domain
    simpa using htext
  · have htext := @Accepted.dd secret domain
    simpa using htext

theorem toInt16_spells (hdigits : HexDigits platform) {high low : Char} {b : UInt8}
    (hhigh : digitVal high = some (b.toNat / 16)) (hlow : digitVal low = some (b.toNat % 16)) :
    toInt16 platform [high, low] = some (b.toNat : Int) := by
  have hplus : high ≠ '+' := by
    rintro rfl
    cases hhigh
  have hminus : high ≠ '-' := by
    rintro rfl
    cases hhigh
  have hsum : b.toNat / 16 * 16 + b.toNat % 16 = b.toNat := by omega
  unfold toInt16
  split
  · rename_i heq
    exact absurd (List.cons.inj heq).1 hplus
  · rename_i heq
    exact absurd (List.cons.inj heq).1 hminus
  · rename_i heq
    obtain ⟨hhead, htail⟩ := List.cons.inj heq
    rw [← hhead, ← (List.cons.inj htail).1, hdigits _ _ hhigh, hdigits _ _ hlow]
    exact congrArg (fun n : Nat => some (n : Int)) hsum
  · rename_i hother
    exact absurd rfl (hother high low)

theorem hexBytes_spells (hdigits : HexDigits platform) (h : Hex.Spells text secret) :
    hexBytes platform text = some secret := by
  induction h with
  | nil => rfl
  | cons hhigh hlow _ ih =>
      simp [hexBytes, toInt16_spells hdigits hhigh hlow, ih, toByte_toNat]

theorem secretBytes_eq (platform : Platform) (core : TgwsCore) (text : List Char) :
    { core with secret := String.ofList text }.secretBytes platform =
      let hex := if Prefixed text then (text.drop 2).take 32 else text.take 32
      if hex.length = 32 then (hexBytes platform hex).getD [] else [] := by
  simp only [secretBytes, String.toList_ofList]
  rfl

-- A text is decoded to its secret, unless its digits are taken for a prefix.
theorem secretBytes_iff (hdigits : HexDigits platform) (core : TgwsCore) (hlength : secret.length = 16)
    (h : Accepted secret domain text) :
    { core with secret := String.ofList text }.secretBytes platform = secret ↔
      ¬(Hex.Spells text secret ∧ Prefixed text) := by
  have hhex : (Hex.text secret).length = 32 := by rw [Hex.length_text, hlength]
  have hdecoded := hexBytes_spells hdigits (Hex.spells_text secret)
  have hshort (front back : List Char) (hfront : front ≠ []) :
      ¬Hex.Spells (front ++ (Hex.text secret ++ back)) secret := by
    intro hspells
    have hlong := hspells.length
    have hpos := List.length_pos_iff.mpr hfront
    rw [List.length_append, List.length_append, hhex] at hlong
    omega
  rw [secretBytes_eq]
  dsimp only
  cases h with
  | plain hspells =>
      have htext : text.length = 32 := by rw [hspells.length, hlength]
      by_cases hfront : Prefixed text
      · have hcut : ((text.drop 2).take 32).length ≠ 32 := by
          rw [List.length_take, List.length_drop]
          omega
        have hne : [] ≠ secret := by
          rintro rfl
          cases hlength
        rw [if_pos hfront, if_neg hcut]
        exact iff_of_false hne fun hnot => hnot ⟨hspells, hfront⟩
      · have hwhole : text.take 32 = text := List.take_of_length_le (by omega)
        simp [hfront, hwhole, htext, hexBytes_spells hdigits hspells]
  | dd =>
      have hfront : Prefixed (['d', 'd'] ++ Hex.text secret) := .inl (List.prefix_append _ _)
      have hwhole : (Hex.text secret).take 32 = Hex.text secret := List.take_of_length_le (by omega)
      have hplain := hshort ['d', 'd'] [] (by simp)
      rw [List.append_nil] at hplain
      simp only [if_pos hfront, List.drop_left' (show ['d', 'd'].length = 2 from rfl), hwhole, hhex, if_true, hdecoded,
        Option.getD_some, hplain, false_and, not_false_eq_true]
  | ee =>
      have hfront : Prefixed (['e', 'e'] ++ (Hex.text secret ++ Hex.text (toByteArray domain))) :=
        .inr (List.prefix_append _ _)
      have hwhole : (Hex.text secret ++ Hex.text (toByteArray domain)).take 32 = Hex.text secret := List.take_left' hhex
      have hplain := hshort ['e', 'e'] (Hex.text (toByteArray domain)) (by simp)
      simp only [if_pos hfront, List.drop_left' (show ['e', 'e'].length = 2 from rfl), hwhole, hhex, if_true, hdecoded,
        Option.getD_some, hplain, false_and, not_false_eq_true]

def hexPlatform : Platform := { samplePlatform with digit := digitVal }

def ddSecret : Bytes := [0xdd, 1, 2, 3, 4, 5, 6, 7, 8, 9, 10, 11, 12, 13, 14, 15]

theorem secretBytes_ddSecret :
    { sampleCore with secret := String.ofList (Hex.text ddSecret) }.secretBytes hexPlatform = ddSecret ↔
      ¬(Hex.Spells (Hex.text ddSecret) ddSecret ∧ Prefixed (Hex.text ddSecret)) :=
  secretBytes_iff (fun _ _ h => h) sampleCore rfl (Accepted.plain (Hex.spells_text ddSecret) : Accepted ddSecret "" _)

-- A secret of 32 digits that begins with dd is dropped.
theorem not_secretBytes_ddSecret :
    ¬∀ (platform : Platform) (core : TgwsCore) (secret : Bytes) (domain : String) (text : List Char),
      HexDigits platform → secret.length = 16 → Accepted secret domain text →
        { core with secret := String.ofList text }.secretBytes platform = secret := by
  intro h
  have hsame := h hexPlatform sampleCore ddSecret "" (Hex.text ddSecret) (fun _ _ h => h) rfl
    (.plain (Hex.spells_text ddSecret))
  exact absurd hsame (by decide)

end ToInet.Tgws.TgwsCore
