import Mathlib.Data.List.Basic

-- Machines that answer calls.
namespace ToInet.Lib

variable {σ τ ε ρ : Type*}

-- The state after the calls, and the answers to them.
def calls (step : σ → ε → σ × ρ) : σ → List ε → σ × List ρ
  | s, [] => (s, [])
  | s, e :: es => ((calls step (step s e).1 es).1, (step s e).2 :: (calls step (step s e).1 es).2)

variable {step : σ → ε → σ × ρ}

theorem calls_append (s : σ) (es fs : List ε) : calls step s (es ++ fs) =
    ((calls step (calls step s es).1 fs).1, (calls step s es).2 ++ (calls step (calls step s es).1 fs).2) := by
  induction es generalizing s with
  | nil => rfl
  | cons e es ih => simp [calls, ih]

theorem calls_concat (s : σ) (es : List ε) (e : ε) : calls step s (es ++ [e]) =
    ((step (calls step s es).1 e).1, (calls step s es).2 ++ [(step (calls step s es).1 e).2]) :=
  calls_append s es [e]

-- The same for a machine with calls that are undefined, which no other call follows.
def definedCalls (step : σ → ε → Option (σ × ρ)) : σ → List ε → Option (σ × List ρ)
  | s, [] => some (s, [])
  | s, e :: es =>
      (step s e).bind fun next => (definedCalls step next.1 es).map fun last => (last.1, next.2 :: last.2)

-- Both are undefined, or related with one answer.
def Alike {ρ' : Type*} (R : σ → τ → Prop) : Option (σ × ρ') → Option (τ × ρ') → Prop :=
  Option.Rel fun x y => R x.1 y.1 ∧ x.2 = y.2

-- Two machines answer the same calls alike where one call keeps them related and gets one answer.
theorem definedCalls_simulation {step : σ → ε → Option (σ × ρ)} {step' : τ → ε → Option (τ × ρ)} (R : σ → τ → Prop)
    (hstep : ∀ s t e, R s t → Alike R (step s e) (step' t e)) {s : σ} {t : τ} (hst : R s t) (es : List ε) :
    Alike R (definedCalls step s es) (definedCalls step' t es) := by
  induction es generalizing s t with
  | nil => exact .some ⟨hst, rfl⟩
  | cons e es ih =>
      have hfirst := hstep s t e hst
      rw [definedCalls, definedCalls]
      generalize step s e = x at hfirst ⊢
      generalize step' t e = y at hfirst ⊢
      cases hfirst with
      | none => exact .none
      | @some next next' hnext =>
          have hrest := ih hnext.1
          rw [Option.bind_some, Option.bind_some]
          generalize definedCalls step next.1 es = z at hrest ⊢
          generalize definedCalls step' next'.1 es = z' at hrest ⊢
          cases hrest with
          | none => exact .none
          | some hlast => exact .some ⟨hlast.1, List.cons_eq_cons.mpr ⟨hnext.2, hlast.2⟩⟩

end ToInet.Lib
