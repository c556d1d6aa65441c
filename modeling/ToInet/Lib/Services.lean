import Mathlib.Logic.Function.Basic
import Mathlib.Data.List.Basic

-- Services that are started and stopped by name. What runs is known by the
-- configuration it was launched with.
namespace ToInet.Lib.Services

variable {ι κ : Type*}

-- A start of a service that runs already is ignored, or launches it anew.
def start (restarts : Bool) (launched running : Option κ) : Option κ :=
  if restarts then launched else running.or launched

theorem start_start (restarts : Bool) (launched running : Option κ) :
    start restarts launched (start restarts launched running) = start restarts launched running := by
  cases restarts with
  | true => rfl
  | false => cases running <;> cases launched <;> rfl

-- A start hides what ran before it exactly when it launches anew, or launches the same.
theorem start_none_eq_iff (restarts : Bool) (launched : Option κ) (c : κ) :
    start restarts launched none = start restarts launched (some c) ↔
      restarts = true ∨ launched = some c := by
  cases restarts with
  | true => simp [start]
  | false => simp [start]

def stopAll (stops : ι → Bool) (running : ι → Option κ) : ι → Option κ :=
  fun x => if stops x then none else running x

theorem stopAll_stopAll (first second : ι → Bool) (running : ι → Option κ) :
    stopAll second (stopAll first running) = stopAll (fun x => first x || second x) running := by
  funext x
  cases hfirst : first x <;> simp [stopAll, hfirst]

variable [DecidableEq ι] {restarts : ι → Bool} {launched running : ι → Option κ}

def startAll (restarts : ι → Bool) (launched : ι → Option κ) (starts : List ι)
    (running : ι → Option κ) : ι → Option κ :=
  fun x => if x ∈ starts then start (restarts x) (launched x) (running x) else running x

theorem startAll_nil : startAll restarts launched [] running = running := by
  funext x
  rw [startAll, if_neg List.not_mem_nil]

-- A service that is started again runs as after its first start.
theorem startAll_cons (x : ι) (starts : List ι) :
    startAll restarts launched starts
        (Function.update running x (start (restarts x) (launched x) (running x))) =
      startAll restarts launched (x :: starts) running := by
  funext y
  simp only [startAll, List.mem_cons]
  by_cases hxy : y = x
  · subst hxy
    rw [Function.update_self, start_start]
    simp
  · simp [hxy]

-- Two ways to stop differ, once the same services were started, by what only one of
-- them stopped and no start has made good.
theorem startAll_stopAll_eq_iff (starts : List ι) (stops stops' : ι → Bool) :
    startAll restarts launched starts (stopAll stops running) =
        startAll restarts launched starts (stopAll stops' running) ↔
      ∀ x c, running x = some c → stops x = stops' x ∨
        x ∈ starts ∧ (restarts x = true ∨ launched x = some c) := by
  rw [funext_iff]
  apply forall_congr'
  intro x
  simp only [startAll, stopAll]
  cases hrunning : running x with
  | none => simp
  | some c =>
      by_cases hmem : x ∈ starts
      · have hiff := start_none_eq_iff (restarts x) (launched x) c
        cases stops x <;> cases stops' x <;> simp [hmem, hiff, eq_comm (b := start _ _ none)]
      · cases stops x <;> cases stops' x <;> simp [hmem]

end ToInet.Lib.Services
