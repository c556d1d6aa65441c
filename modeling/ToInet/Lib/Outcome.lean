import Mathlib.Tactic.TypeStar

-- Programs that end with a value or with an error.
namespace ToInet.Lib

universe u

variable {ε : Type*} {α β : Type u}

-- The error is one of E, or the value has the property P.
def Sat (E : ε → Prop) (P : α → Prop) : Except ε α → Prop
  | .error e => E e
  | .ok a => P a

namespace Sat

variable {E : ε → Prop} {P Q : α → Prop} {x : Except ε α}

theorem imp (h : Sat E P x) (hPQ : ∀ a, P a → Q a) : Sat E Q x := by
  cases x with
  | error e => exact h
  | ok a => exact hPQ a h

theorem weaken {E' : ε → Prop} (h : Sat E P x) (hE : ∀ e, E e → E' e) : Sat E' P x := by
  cases x with
  | error e => exact hE e h
  | ok a => exact h

theorem bind {R : β → Prop} {f : α → Except ε β} (h : Sat E P x) (hf : ∀ a, P a → Sat E R (f a)) :
    Sat E R (x >>= f) := by
  cases x with
  | error e => exact h
  | ok a => exact hf a h

theorem ite {c : Prop} [Decidable c] {y : Except ε α} (hx : c → Sat E P x) (hy : ¬c → Sat E P y) :
    Sat E P (if c then x else y) := by
  by_cases hc : c
  · rw [if_pos hc]
    exact hx hc
  · rw [if_neg hc]
    exact hy hc

instance decidable [DecidablePred E] [DecidablePred P] : (x : Except ε α) → Decidable (Sat E P x)
  | .error e => inferInstanceAs (Decidable (E e))
  | .ok a => inferInstanceAs (Decidable (P a))

theorem eq_error {e : ε} (h : Sat (· = e) (fun _ => False) x) : x = .error e := by
  cases x with
  | error e' => exact congrArg Except.error h
  | ok a => exact h.elim

theorem exists_ok (h : Sat (fun _ => False) P x) : ∃ a, x = .ok a ∧ P a := by
  cases x with
  | error e => exact h.elim
  | ok a => exact ⟨a, rfl, h⟩

theorem of_eq_ok {a : α} (h : Sat E P x) (hx : x = .ok a) : P a := by
  rw [hx] at h
  exact h

theorem of_eq_error {e : ε} (h : Sat E P x) (hx : x = .error e) : E e := by
  rw [hx] at h
  exact h

-- A program that goes through a list keeps what each of its steps keeps.
theorem foldlM {I : α → Prop} {f : α → β → Except ε α} {l : List β} (hf : ∀ a, ∀ b ∈ l, I a → Sat E I (f a b)) {a : α}
    (ha : I a) : Sat E I (l.foldlM f a) := by
  induction l generalizing a with
  | nil => exact ha
  | cons b l ih =>
      rw [List.foldlM_cons]
      exact bind (hf a b List.mem_cons_self ha) fun a' ha' =>
        ih (fun a b hb => hf a b (List.mem_cons_of_mem _ hb)) ha'

end Sat

end ToInet.Lib
