import Mathlib.Algebra.Group.Nat.Defs
import Mathlib.Data.Nat.Basic

/-!
# Arithmetic of an unsigned 64-bit size type

Sums and differences are taken modulo `2 ^ 64`; the lemmas give the conditions
under which nothing wraps.
-/

namespace Ki
namespace Foundation
namespace SizeT

/-- The number of values of the type. -/
def modulus : Nat := 2 ^ 64

def add (a b : Nat) : Nat :=
  (a + b) % modulus

def sub (a b : Nat) : Nat :=
  (a + (modulus - b)) % modulus

theorem add_eq {a b : Nat} (h : a + b < modulus) : add a b = a + b :=
  Nat.mod_eq_of_lt h

theorem sub_eq {a b : Nat} (hba : b ≤ a) (ha : a < modulus) :
    sub a b = a - b := by
  unfold sub
  have hsum : a + (modulus - b) = (a - b) + modulus := by
    omega
  rw [hsum, Nat.add_mod_right]
  exact Nat.mod_eq_of_lt (by omega)

theorem lt_modulus_of_lt_half {a : Nat} (h : a < 2 ^ 63) : a < modulus := by
  unfold modulus
  omega

end SizeT
end Foundation
end Ki
