import ToInet.Lib.Bytes

namespace ToInet.Lib

variable {α β : Type}

-- A decoder takes its value off the front of the input, or needs more of it.
abbrev Decoder := StateT Bytes Option

namespace Decoder

def byte : Decoder UInt8
  | [] => none
  | b :: rest => some (b, rest)

def takeExact (n : Nat) : Decoder Bytes := fun data =>
  if n ≤ data.length then some (data.take n, data.drop n) else none

def require (condition : Prop) [Decidable condition] : Decoder Unit := fun data =>
  if condition then some ((), data) else none

theorem bind_of_eq {decoder : Decoder α} {next : α → Decoder β} {data rest : Bytes} {a : α}
    (h : decoder data = some (a, rest)) : (decoder >>= next) data = next a rest := by
  change (decoder data).bind _ = _
  rw [h]
  rfl

theorem require_of {condition : Prop} [Decidable condition] {data : Bytes} (h : condition) :
    require condition data = some ((), data) := if_pos h

-- What was decoded stays the same when more input arrives.
def Stable (decoder : Decoder α) : Prop :=
  ∀ data a rest, decoder data = some (a, rest) → ∀ more, decoder (data ++ more) = some (a, rest ++ more)

theorem stable_pure (a : α) : Stable (pure a) := by
  intro data b rest h more
  obtain ⟨rfl, rfl⟩ := Prod.mk.inj (Option.some.inj h)
  rfl

theorem stable_bind {decoder : Decoder α} {next : α → Decoder β} (hp : Stable decoder)
    (hn : ∀ a, Stable (next a)) : Stable (decoder >>= next) := by
  intro data b rest h more
  obtain ⟨⟨a, middle⟩, ha, hb⟩ := Option.bind_eq_some_iff.mp h
  exact Option.bind_eq_some_iff.mpr ⟨(a, middle ++ more), hp data a middle ha more,
    hn a middle b rest hb more⟩

theorem stable_byte : Stable byte := by
  intro data a rest h more
  cases data with
  | nil => cases h
  | cons b data =>
      obtain ⟨rfl, rfl⟩ := Prod.mk.inj (Option.some.inj h)
      rfl

theorem stable_takeExact (n : Nat) : Stable (takeExact n) := by
  intro data a rest h more
  unfold takeExact at h ⊢
  split at h
  · rename_i hle
    obtain ⟨rfl, rfl⟩ := Prod.mk.inj (Option.some.inj h)
    rw [if_pos (by rw [List.length_append]; omega), List.take_append_of_le_length hle,
      List.drop_append_of_le_length hle]
  · cases h

theorem stable_require (condition : Prop) [Decidable condition] : Stable (require condition) := by
  intro data a rest h more
  unfold require at h ⊢
  split at h
  · rename_i hc
    obtain ⟨rfl, rfl⟩ := Prod.mk.inj (Option.some.inj h)
    rw [if_pos hc]
  · cases h

theorem takeExact_append (front rest : Bytes) :
    takeExact front.length (front ++ rest) = some (front, rest) := by
  simp [takeExact]

-- A proper part of an encoding needs more.
theorem Stable.part {decoder : Decoder α} (hp : Stable decoder) {a : α} {part more : Bytes}
    (h : decoder (part ++ more) = some (a, [])) (hmore : more ≠ []) : decoder part = none := by
  cases hpart : decoder part with
  | none => rfl
  | some result =>
      obtain ⟨b, rest⟩ := result
      rw [hp part b rest hpart more] at h
      obtain ⟨_, hnil⟩ := Prod.mk.inj (Option.some.inj h)
      exact absurd (List.append_eq_nil_iff.mp hnil).2 hmore

-- Decodes as many values as there are, and returns what is left.
def many (decoder : Decoder α) : Nat → Bytes → List α × Bytes
  | 0, data => ([], data)
  | fuel + 1, data =>
      match decoder data with
      | none => ([], data)
      | some (a, rest) =>
          let (values, last) := many decoder fuel rest
          (a :: values, last)

theorem many_encode (decoder : Decoder α) (encode : α → Bytes) (values : List α) (last : Bytes)
    (fuel : Nat) (hvalues : ∀ a ∈ values, ∀ rest, decoder (encode a ++ rest) = some (a, rest))
    (hlast : decoder last = none) (hfuel : values.length ≤ fuel) :
    many decoder fuel ((values.map encode).flatten ++ last) = (values, last) := by
  induction values generalizing fuel with
  | nil => cases fuel <;> simp [many, hlast]
  | cons a values ih =>
      obtain ⟨fuel, rfl⟩ : ∃ k, fuel = k + 1 := ⟨fuel - 1, by rw [List.length_cons] at hfuel; omega⟩
      have hrest := ih fuel (fun b hb => hvalues b (List.mem_cons_of_mem _ hb))
        (by rw [List.length_cons] at hfuel; omega)
      rw [List.map_cons, List.flatten_cons, List.append_assoc, many,
        hvalues a List.mem_cons_self]
      simp only [hrest]

end Decoder

end ToInet.Lib
