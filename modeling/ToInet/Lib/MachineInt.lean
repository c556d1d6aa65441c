import Mathlib.Tactic.NormNum
import Mathlib.Tactic.Ring

namespace ToInet.Lib

-- Two's complement: the value left after an overflow of a signed machine integer.
def wrap (bits : Nat) (n : Int) : Int := n.bmod (2 ^ bits)

def toInt32 (n : Int) : Int := wrap 32 n

def FitsInt32 (n : Int) : Prop := -2 ^ 31 ≤ n ∧ n < 2 ^ 31

instance (n : Int) : Decidable (FitsInt32 n) := inferInstanceAs (Decidable (_ ∧ _))

theorem toInt32_of_fits (n : Int) (h : FitsInt32 n) : toInt32 n = n := by
  obtain ⟨hlo, hhi⟩ := h
  rw [toInt32, wrap, Int.bmod_eq_of_le] <;> norm_num <;> omega

end ToInet.Lib
