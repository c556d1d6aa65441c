import ToInet.Util.Snapshot

namespace ToInet.Util.PresetManager

open ToInet.Lib

-- What the way through the text and back writes for one value.
def restored (value : PrefValue) : Option PrefValue :=
  value.checked.bind fun checked => edited checked.token.read

theorem lookup_applySnapshot (s t : SharedPreferences) (key : String) :
    (applySnapshot t (createSnapshot s)).lookup key =
      if isPresetKey key then t.lookup key
      else ((s.lookup key).bind restored).or (t.lookup key) := by
  rw [applySnapshot, parse, createSnapshot, toText, Store.lookup_putAll, Store.lookup_putAll,
    Store.lookup_putAll, Store.lookup_putAll]
  simp only [AList.lookup_empty, Option.or_none]
  cases isPresetKey key with
  | true => cases s.lookup key <;> rfl
  | false =>
      cases s.lookup key with
      | none => rfl
      | some value =>
          simp only [Option.bind_some, Bool.false_eq_true, if_false, restored]
          cases value.checked <;> rfl

-- A Float that is not written, or only as a number that has no branch in when.
def LeftOut (bits : BitVec 32) : Prop :=
  (floatParts bits).finite = false ∨ floatToString bits = .real bits

theorem restored_float_leftOut (bits : BitVec 32) (h : LeftOut bits) :
    restored (.float bits) = none := by
  cases hfinite : (floatParts bits).finite with
  | false => simp [restored, PrefValue.checked, hfinite]
  | true =>
      have hreal := h.resolve_left (by rw [hfinite]; decide)
      simp [restored, PrefValue.checked, hfinite, PrefValue.token, hreal, Token.read, edited]

-- Any other Float comes back as an integral value.
theorem restored_float_whole (bits : BitVec 32) (h : ¬LeftOut bits) :
    ∃ value, restored (.float bits) = some value ∧ value ≠ .float bits := by
  obtain ⟨hfinite, hreal⟩ := not_or.mp h
  rw [Bool.not_eq_false] at hfinite
  obtain ⟨n, hn⟩ : ∃ n, floatToString bits = .integral n := by
    unfold floatToString at hreal ⊢
    split
    · rename_i n hwhole
      rw [hwhole] at hreal
      dsimp only at hreal ⊢
      split
      · exact ⟨_, rfl⟩
      · rename_i hout
        rw [if_neg hout] at hreal
        exact absurd rfl hreal
    · rename_i hwhole
      rw [hwhole] at hreal
      exact absurd rfl hreal
  simp only [restored, PrefValue.checked, hfinite, if_true, Option.bind_some, PrefValue.token, hn,
    Token.read]
  split
  · exact ⟨_, rfl, by simp⟩
  · exact ⟨_, rfl, by simp⟩

theorem restored_int (value : Int32) : restored (.int value) = some (.int value) := by
  have hfits : FitsInt32 value.toInt := ⟨value.le_toInt, value.toInt_lt⟩
  simp [restored, PrefValue.checked, PrefValue.token, Token.read, hfits, edited]

theorem restored_long (value : Int64) :
    restored (.long value) =
      if FitsInt32 value.toInt then some (.int (.ofInt value.toInt)) else some (.long value) := by
  by_cases hfits : FitsInt32 value.toInt <;>
    simp [restored, PrefValue.checked, PrefValue.token, Token.read, hfits, edited]

-- When a value of the snapshot survives, over the value that is there.
def Survives (saved current : Option PrefValue) : Prop :=
  match saved with
  | none => current = none
  | some (.boolean _) | some (.int _) | some (.string _) => True
  | some (.long value) => ¬FitsInt32 value.toInt
  | some (.float bits) => LeftOut bits ∧ current = some (.float bits)
  | some (.stringSet _) => False

theorem restored_or_eq (saved current : Option PrefValue) :
    (saved.bind restored).or current = saved ↔ Survives saved current := by
  cases saved with
  | none => rfl
  | some value =>
      rw [Option.bind_some]
      cases value with
      | boolean value => simp [Survives, restored, PrefValue.checked, PrefValue.token, Token.read, edited]
      | string value => simp [Survives, restored, PrefValue.checked, PrefValue.token, Token.read, edited]
      | stringSet values =>
          simp [Survives, restored, PrefValue.checked, PrefValue.token, Token.read, edited]
      | int value => simp [Survives, restored_int]
      | long value =>
          rw [restored_long]
          by_cases hfits : FitsInt32 value.toInt <;> simp [Survives, hfits]
      | float bits =>
          by_cases hleft : LeftOut bits
          · simp [Survives, restored_float_leftOut bits hleft, hleft]
          · obtain ⟨value, hvalue, hne⟩ := restored_float_whole bits hleft
            simp [Survives, hvalue, hleft, hne]

-- A snapshot restores the preferences it was taken of exactly when each of its
-- values survives.
theorem applySnapshot_restores (s t : SharedPreferences) :
    (∀ key, (applySnapshot t (createSnapshot s)).lookup key =
        if isPresetKey key then t.lookup key else s.lookup key) ↔
      ∀ key, isPresetKey key = false → Survives (s.lookup key) (t.lookup key) := by
  apply forall_congr'
  intro key
  rw [lookup_applySnapshot]
  cases isPresetKey key with
  | true => simp
  | false => simpa using restored_or_eq (s.lookup key) (t.lookup key)

-- A number that was stored as a Long comes back as an Int, and a key that the
-- snapshot does not have stays.
theorem applySnapshot_not_restores :
    let s := (∅ : SharedPreferences).insert "first_install_time" (.long 5)
    let t := (∅ : SharedPreferences).insert "tor_enabled" (.boolean false)
    (applySnapshot t (createSnapshot s)).lookup "first_install_time" ≠ s.lookup "first_install_time" ∧
      (applySnapshot t (createSnapshot s)).lookup "tor_enabled" ≠ s.lookup "tor_enabled" := by
  decide

end ToInet.Util.PresetManager
