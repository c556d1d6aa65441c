import Mathlib.Data.Option.Basic

namespace ToInet.Lib

variable {σ ε : Type*}

-- A system that takes one event after another; an event may be impossible.
def run (step : σ → ε → Option σ) : σ → List ε → Option σ
  | s, [] => some s
  | s, e :: es => (step s e).bind fun t => run step t es

-- Every event of the run is allowed in the state it meets.
def Allowed (step : σ → ε → Option σ) (allowed : σ → ε → Prop) : σ → List ε → Prop
  | _, [] => True
  | s, e :: es => allowed s e ∧ ∀ t, step s e = some t → Allowed step allowed t es

-- Every state that the run passes has the property.
def Always (step : σ → ε → Option σ) (P : σ → Prop) : σ → List ε → Prop
  | s, [] => P s
  | s, e :: es => P s ∧ ∀ t, step s e = some t → Always step P t es

variable {step : σ → ε → Option σ}

theorem run_cons_eq_some {s u : σ} {e : ε} {es : List ε} :
    run step s (e :: es) = some u ↔ ∃ t, step s e = some t ∧ run step t es = some u :=
  Option.bind_eq_some_iff

theorem run_append_eq_some {s u : σ} {es fs : List ε} :
    run step s (es ++ fs) = some u ↔ ∃ t, run step s es = some t ∧ run step t fs = some u := by
  induction es generalizing s with
  | nil => simp [run]
  | cons e es ih =>
      rw [List.cons_append, run_cons_eq_some]
      constructor
      · rintro ⟨v, hv, hrest⟩
        obtain ⟨t, ht, hu⟩ := ih.mp hrest
        exact ⟨t, run_cons_eq_some.mpr ⟨v, hv, ht⟩, hu⟩
      · rintro ⟨t, ht, hu⟩
        obtain ⟨v, hv, hrest⟩ := run_cons_eq_some.mp ht
        exact ⟨v, hv, ih.mpr ⟨t, hrest, hu⟩⟩

theorem Allowed.append {allowed : σ → ε → Prop} {s t : σ} {es fs : List ε}
    (h : Allowed step allowed s (es ++ fs)) (hrun : run step s es = some t) :
    Allowed step allowed s es ∧ Allowed step allowed t fs := by
  induction es generalizing s with
  | nil => exact ⟨trivial, Option.some.inj hrun ▸ h⟩
  | cons e es ih =>
      obtain ⟨u, hu, hrest⟩ := run_cons_eq_some.mp hrun
      refine ⟨⟨h.1, fun v hv => ?_⟩, (ih (h.2 u hu) hrest).2⟩
      obtain rfl := Option.some.inj (hu.symm.trans hv)
      exact (ih (h.2 u hu) hrest).1

-- What every allowed step keeps, an allowed run keeps.
theorem run_induction_allowed (Inv : σ → Prop) (allowed : σ → ε → Prop)
    (hstep : ∀ s e t, Inv s → allowed s e → step s e = some t → Inv t) {s t : σ} {es : List ε}
    (hs : Inv s) (hes : Allowed step allowed s es) (hrun : run step s es = some t) : Inv t := by
  induction es generalizing s with
  | nil => exact Option.some.inj hrun ▸ hs
  | cons e es ih =>
      obtain ⟨u, hu, hrest⟩ := run_cons_eq_some.mp hrun
      exact ih (hstep s e u hs hes.1 hu) (hes.2 u hu) hrest

theorem allowed_of_forall {allowed : σ → ε → Prop} {s : σ} {es : List ε}
    (h : ∀ e ∈ es, ∀ t, allowed t e) : Allowed step allowed s es := by
  induction es generalizing s with
  | nil => trivial
  | cons e es ih =>
      exact ⟨h e List.mem_cons_self s,
        fun t _ => ih fun e' he' => h e' (List.mem_cons_of_mem _ he')⟩

theorem Allowed.cons {allowed : σ → ε → Prop} {s t : σ} {e : ε} {es : List ε} (he : allowed s e)
    (hstep : step s e = some t) (hes : Allowed step allowed t es) : Allowed step allowed s (e :: es) :=
  ⟨he, fun _ hsame => Option.some.inj (hstep.symm.trans hsame) ▸ hes⟩

-- What every event of the run has may be added to what allows it.
theorem Allowed.and_mem {allowed : σ → ε → Prop} {P : ε → Prop} {s : σ} {es : List ε}
    (h : Allowed step allowed s es) (hes : ∀ e ∈ es, P e) :
    Allowed step (fun s e => P e ∧ allowed s e) s es := by
  induction es generalizing s with
  | nil => trivial
  | cons e es ih =>
      exact ⟨⟨hes e List.mem_cons_self, h.1⟩,
        fun t ht => ih (h.2 t ht) fun e' he' => hes e' (List.mem_cons_of_mem _ he')⟩

-- What allows the steps may be replaced where an invariant makes it the same.
theorem allowed_congr_of_inv (Inv : σ → Prop) {allowed other : σ → ε → Prop}
    (hinv : ∀ s e t, Inv s → step s e = some t → Inv t) (hsame : ∀ s e, Inv s → (allowed s e ↔ other s e))
    {s : σ} {es : List ε} (hs : Inv s) : Allowed step allowed s es ↔ Allowed step other s es := by
  induction es generalizing s with
  | nil => exact Iff.rfl
  | cons e es ih =>
      exact and_congr (hsame s e hs) (forall_congr' fun t => forall_congr' fun ht => ih (hinv s e t hs ht))

theorem run_induction (Inv : σ → Prop) (hstep : ∀ s e t, Inv s → step s e = some t → Inv t)
    {s t : σ} {es : List ε} (hs : Inv s) (hrun : run step s es = some t) : Inv t :=
  run_induction_allowed Inv (fun _ _ => True) (fun s e t hs _ h => hstep s e t hs h) hs
    (allowed_of_forall fun _ _ _ => trivial) hrun

theorem Always.head {P : σ → Prop} {s : σ} {es : List ε} (h : Always step P s es) : P s := by
  cases es with
  | nil => exact h
  | cons e es => exact h.1

-- Where exactly the allowed steps keep a property, as long as an invariant of all steps holds, the
-- allowed runs are those that always have it.
theorem always_iff_allowed_of_inv (Inv P : σ → Prop) (allowed : σ → ε → Prop)
    (hinv : ∀ s e t, Inv s → step s e = some t → Inv t)
    (hstep : ∀ s e t, Inv s → P s → step s e = some t → (P t ↔ allowed s e))
    (hnone : ∀ s e, P s → step s e = none → allowed s e) {s : σ} {es : List ε} (hs : Inv s) (hP : P s) :
    Always step P s es ↔ Allowed step allowed s es := by
  induction es generalizing s with
  | nil => exact iff_of_true hP trivial
  | cons e es ih =>
      cases hnext : step s e with
      | none =>
          have hvacuous (Q : σ → Prop) : ∀ t, step s e = some t → Q t := by
            intro t ht
            rw [hnext] at ht
            cases ht
          exact iff_of_true ⟨hP, hvacuous _⟩ ⟨hnone s e hP hnext, hvacuous _⟩
      | some t =>
          have ht := hinv s e t hs hnext
          constructor
          · rintro ⟨_, hrest⟩
            have hPt := (hrest t hnext).head
            refine ⟨(hstep s e t hs hP hnext).mp hPt, fun u hu => ?_⟩
            obtain rfl := Option.some.inj (hnext.symm.trans hu)
            exact (ih ht hPt).mp (hrest t hnext)
          · rintro ⟨hallowed, hrest⟩
            refine ⟨hP, fun u hu => ?_⟩
            obtain rfl := Option.some.inj (hnext.symm.trans hu)
            exact (ih ht ((hstep s e t hs hP hnext).mpr hallowed)).mpr (hrest t hnext)

theorem always_iff_allowed (P : σ → Prop) (allowed : σ → ε → Prop)
    (hstep : ∀ s e t, P s → step s e = some t → (P t ↔ allowed s e))
    (hnone : ∀ s e, P s → step s e = none → allowed s e) {s : σ} {es : List ε} (hs : P s) :
    Always step P s es ↔ Allowed step allowed s es :=
  always_iff_allowed_of_inv (fun _ => True) P allowed (fun _ _ _ _ _ => trivial)
    (fun s e t _ hP h => hstep s e t hP h) hnone trivial hs

section

variable {τ : Type*} {step' : τ → ε → Option τ} {f : σ → τ}

-- A run may be judged by what it shows, where the steps are steps of what is shown.
theorem allowed_map (hstep : ∀ s e, step' (f s) e = (step s e).map f) (allowed : τ → ε → Prop) {s : σ}
    {es : List ε} : Allowed step (fun s => allowed (f s)) s es ↔ Allowed step' allowed (f s) es := by
  induction es generalizing s with
  | nil => exact Iff.rfl
  | cons e es ih => simp [Allowed, hstep, ih]

theorem always_map (hstep : ∀ s e, step' (f s) e = (step s e).map f) (P : τ → Prop) {s : σ} {es : List ε} :
    Always step (fun s => P (f s)) s es ↔ Always step' P (f s) es := by
  induction es generalizing s with
  | nil => exact Iff.rfl
  | cons e es ih => simp [Always, hstep, ih]

end

end ToInet.Lib
