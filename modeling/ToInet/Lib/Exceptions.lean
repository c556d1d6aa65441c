import Mathlib.Logic.Basic

-- Programs that change a state and may end in an exception, with the state that is left then.
namespace ToInet.Lib

variable {ε σ α β : Type}

-- The state behind a program, however it has ended.
def finalState : EStateM.Result ε σ α → σ
  | .ok _ s => s
  | .error _ s => s

-- What a program returns or throws.
def outcome : EStateM.Result ε σ α → Except ε α
  | .ok a _ => .ok a
  | .error e _ => .error e

variable {x : EStateM ε σ α} {f : α → EStateM ε σ β} {s t : σ}

theorem bind_ok {a : α} (h : x s = .ok a t) : (x >>= f) s = f a t := by
  simp [bind, EStateM.bind, h]

theorem bind_error {e : ε} (h : x s = .error e t) : (x >>= f) s = .error e t := by
  simp [bind, EStateM.bind, h]

end ToInet.Lib
