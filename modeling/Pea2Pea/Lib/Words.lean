/-
Machine words: arithmetic that either checks for overflow or wraps, and the
two steps of a multiplicative mixer, each a permutation of the words.

A permutation of the words reaches every residue below half their number at
least twice (`exists_mod_eq_ne`), so also without any one word.
-/
import Mathlib.Data.Fintype.EquivFin
import Mathlib.Data.BitVec

namespace Words

variable {w : Nat}

/-- The result `x` of an arithmetic operation on `w`-bit words: nothing if it
overflows and overflow is checked, and reduced if it is not. -/
def fit (w : Nat) (checks : Bool) (x : Nat) : Option Nat :=
  if x < 2 ^ w then some x else if checks then none else some (x % 2 ^ w)

theorem fit_of_lt {checks : Bool} {x : Nat} (h : x < 2 ^ w) : fit w checks x = some x := if_pos h

/-! ## Mixing -/

/-- `x ^= x >> s`. -/
def xorShift (s : Nat) (x : BitVec w) : BitVec w := x ^^^ (x >>> s)

/-- A shift by half the word or more undoes itself. -/
theorem xorShift_xorShift {s : Nat} (h : w ≤ s + s) (x : BitVec w) : xorShift s (xorShift s x) = x := by
  have hz : x >>> s >>> s = 0#w := by
    rw [← BitVec.shiftRight_add, BitVec.ushiftRight_eq_zero h]
  rw [xorShift, xorShift, BitVec.ushiftRight_xor_distrib, hz, BitVec.xor_zero, BitVec.xor_assoc,
    BitVec.xor_self, BitVec.xor_zero]

theorem xorShift_injective {s : Nat} (h : w ≤ s + s) : Function.Injective (xorShift (w := w) s) :=
  Function.LeftInverse.injective (xorShift_xorShift h)

/-- A multiplier with an inverse loses nothing. -/
theorem mul_right_injective {c c' : BitVec w} (h : c * c' = 1#w) : Function.Injective (· * c) := by
  intro x y hxy
  have hx (z : BitVec w) : z * c * c' = z := by rw [BitVec.mul_assoc, h, BitVec.mul_one]
  rw [← hx x, ← hx y]
  exact congrArg (· * c') hxy

/-! ## Residues -/

/-- A permutation of the words takes two of them to each residue below half
their number: to the residue itself and to the next word above it. -/
theorem exists_mod_eq_ne {f : BitVec w → BitVec w} (hf : Function.Injective f) {count r : Nat}
    (hr : r < count) (hc : count + count ≤ 2 ^ w) (z : BitVec w) : ∃ x, x ≠ z ∧ (f x).toNat % count = r := by
  have : Finite (BitVec w) := Finite.of_equiv _ BitVec.equivFin.symm.toEquiv
  have hs : Function.Surjective f := Finite.injective_iff_surjective.1 hf
  obtain ⟨x, hx⟩ := hs (BitVec.ofNat w r)
  obtain ⟨y, hy⟩ := hs (BitVec.ofNat w (r + count))
  have hxn : (f x).toNat = r := by rw [hx, BitVec.toNat_ofNat, Nat.mod_eq_of_lt (by omega)]
  have hyn : (f y).toNat = r + count := by rw [hy, BitVec.toNat_ofNat, Nat.mod_eq_of_lt (by omega)]
  by_cases hz : x = z
  · refine ⟨y, fun he => ?_, ?_⟩
    · rw [he, ← hz, hxn] at hyn
      omega
    · rw [hyn, Nat.add_mod_right, Nat.mod_eq_of_lt hr]
  · exact ⟨x, hz, by rw [hxn, Nat.mod_eq_of_lt hr]⟩

end Words
