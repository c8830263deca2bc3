import Mathlib.Algebra.CharP.Two
import Mathlib.Algebra.Field.ZMod
import Mathlib.Algebra.Polynomial.FieldDivision
import Mathlib.Tactic.LinearCombination
import FluxMarks.Proofs.Check.Engines
import FluxMarks.Proofs.Check.Serial

/-!
# Remainders of polynomials

What the checks compute is the remainder of a division of polynomials over
GF(2). The bits of a register are the coefficients of a polynomial
(`registerPoly`), and so are the bits of a message (`bitsPoly`). In these
terms a step of a division register multiplies by `x` and takes away the
divisor at most once (`Divisor.registerPoly_step`), so a register that takes
in bits stays, up to multiples of the divisor, what the bits so far amount
to (`Divisor.dvd_registerPoly_takeBits`); and being of lower degree than the
divisor it is the remainder itself.
-/

namespace FluxMarks

open Polynomial

/-! ## Bits as coefficients -/

/-- A bit as an element of GF(2). -/
def coefficient (bit : Bool) : ZMod 2 := if bit then 1 else 0

/-- The polynomial of a register: bit `i` is the coefficient of `x^i`. -/
noncomputable def registerPoly {w : Nat} (r : BitVec w) : (ZMod 2)[X] :=
  ∑ i ∈ Finset.range w, C (coefficient (r.getLsbD i)) * X ^ i

/-- The polynomial of some bits, of which the last is the constant term. -/
noncomputable def bitsPoly : List Bool → (ZMod 2)[X]
  | [] => 0
  | bit :: bits => C (coefficient bit) * X ^ bits.length + bitsPoly bits

theorem coefficient_xor (a b : Bool) : coefficient (a ^^ b) = coefficient a + coefficient b := by
  cases a <;> cases b <;> decide

section Register

variable {w : Nat}

theorem coeff_registerPoly (r : BitVec w) (i : Nat) :
    (registerPoly r).coeff i = coefficient (r.getLsbD i) := by
  simp only [registerPoly, finsetSum_coeff, coeff_C_mul, coeff_X_pow, mul_ite, mul_one,
    mul_zero, Finset.sum_ite_eq, Finset.mem_range]
  split
  · rfl
  · next hi => rw [BitVec.getLsbD_of_ge r i (Nat.le_of_not_lt hi)]; rfl

theorem degree_registerPoly_lt (r : BitVec w) : (registerPoly r).degree < w := by
  refine (degree_lt_iff_coeff_zero _ _).mpr fun i hi => ?_
  rw [coeff_registerPoly, BitVec.getLsbD_of_ge r i hi]
  rfl

theorem registerPoly_xor (r s : BitVec w) :
    registerPoly (r ^^^ s) = registerPoly r + registerPoly s := by
  simp only [registerPoly, BitVec.getLsbD_xor, coefficient_xor, C_add, add_mul,
    Finset.sum_add_distrib]

theorem registerPoly_setWidth {v : Nat} (h : w ≤ v) (r : BitVec w) :
    registerPoly (r.setWidth v) = registerPoly r := by
  ext i
  rw [coeff_registerPoly, coeff_registerPoly, BitVec.getLsbD_setWidth]
  rcases Nat.lt_or_ge i v with hlt | hge
  · rw [decide_eq_true hlt, Bool.true_and]
  · rw [BitVec.getLsbD_of_ge r i (Nat.le_trans h hge), Bool.and_false]

theorem registerPoly_twoPow {i : Nat} (h : i < w) :
    registerPoly (BitVec.twoPow w i) = X ^ i := by
  ext j
  rw [coeff_registerPoly, BitVec.getLsbD_twoPow, coeff_X_pow, decide_eq_true h, Bool.true_and]
  by_cases hj : j = i
  · rw [if_pos hj, hj, decide_eq_true rfl]; rfl
  · rw [if_neg hj, decide_eq_false (Ne.symm hj)]; rfl

/-- Moving up by a place multiplies by `x`, but for the term that leaves. -/
theorem X_mul_registerPoly (r : BitVec w) :
    X * registerPoly r = registerPoly (r <<< 1) + C (coefficient r.msb) * X ^ w := by
  cases w with
  | zero => simp [registerPoly, BitVec.eq_nil r, coefficient]
  | succ n =>
      have hnext : ∀ i ∈ Finset.range n, C (coefficient ((r <<< 1).getLsbD (i + 1))) * X ^ (i + 1)
          = X * (C (coefficient (r.getLsbD i)) * X ^ i) := by
        intro i hi
        have hfits : i + 1 < n + 1 := Nat.succ_lt_succ (Finset.mem_range.mp hi)
        have hbit : (r <<< 1).getLsbD (i + 1) = r.getLsbD i := by
          rw [BitVec.getLsbD_shiftLeft, decide_eq_true hfits]
          simp
        rw [hbit]
        ring
      have hlow : coefficient ((r <<< 1).getLsbD 0) = 0 := by
        rw [BitVec.getLsbD_shiftLeft]
        simp [coefficient]
      rw [registerPoly, registerPoly, Finset.sum_range_succ, Finset.sum_range_succ', hlow,
        Finset.sum_congr rfl hnext, mul_add, Finset.mul_sum, BitVec.msb_eq_getLsbD_last, C_0,
        zero_mul, add_zero, Nat.add_sub_cancel]
      ring

end Register

/-! ## Division -/

namespace Divisor

variable {w : Nat} (d : Divisor w)

/-- The divisor, leading term included. -/
noncomputable def poly : (ZMod 2)[X] := X ^ w + registerPoly d.taps

theorem degree_poly : d.poly.degree = w := by
  have hlow := degree_registerPoly_lt d.taps
  rw [poly, degree_add_eq_left_of_degree_lt (by rwa [degree_X_pow]), degree_X_pow]

/-- A step multiplies by `x` and takes the divisor away if a term has reached
its degree. -/
theorem registerPoly_step (r : BitVec w) :
    registerPoly (d.step r) = X * registerPoly r + C (coefficient r.msb) * d.poly := by
  rw [X_mul_registerPoly, step, poly]
  -- the term that leaves the register is the leading one of the divisor
  have hgone : (X ^ w + X ^ w : (ZMod 2)[X]) = 0 := CharTwo.add_self_eq_zero _
  cases r.msb
  · simp [coefficient]
  · simp only [coefficient, if_true, registerPoly_xor, C_1, one_mul]
    linear_combination -hgone

theorem X_mul_registerPoly_top (hw : 0 < w) (bit : Bool) :
    X * registerPoly (top bit : BitVec w) = C (coefficient bit) * X ^ w := by
  obtain ⟨n, rfl⟩ : ∃ n, w = n + 1 := ⟨w - 1, by omega⟩
  have htop : registerPoly (top bit : BitVec (n + 1)) = C (coefficient bit) * X ^ n := by
    ext i
    rw [coeff_registerPoly, getLsbD_top, coeff_C_mul, coeff_X_pow]
    by_cases hi : i = n
    · rw [if_pos hi, hi, decide_eq_true rfl, Bool.true_and, mul_one]
    · rw [if_neg hi, decide_eq_false (fun h => hi (Nat.succ_inj.mp h)), mul_zero]
      rfl
  rw [htop]
  ring

/-- Taking in a bit multiplies by `x`, adds the bit ahead of the register and
takes away the divisor if it fits. -/
theorem registerPoly_takeBit (r : BitVec w) (bit : Bool) :
    registerPoly (d.takeBit r bit)
      = X * registerPoly r + C (coefficient bit) * X ^ w
        + C (coefficient (r ^^^ top bit).msb) * d.poly := by
  have hw : 0 < w := BitVec.lt_of_getLsbD d.odd
  rw [takeBit, registerPoly_step, registerPoly_xor, mul_add, X_mul_registerPoly_top hw]

/-- What a register holds and what it was given differ by a multiple of the
divisor. -/
theorem dvd_registerPoly_takeBits (r : BitVec w) (bits : List Bool) :
    d.poly ∣ registerPoly (d.takeBits r bits)
      - (registerPoly r * X ^ bits.length + bitsPoly bits * X ^ w) := by
  induction bits generalizing r with
  | nil => simp [takeBits, bitsPoly]
  | cons bit bits ih =>
      -- what the first step takes away is moved up by all the others
      obtain ⟨quotient, hquotient⟩ := ih (d.takeBit r bit)
      refine ⟨quotient + C (coefficient (r ^^^ top bit).msb) * X ^ bits.length, ?_⟩
      have hrest : d.takeBits r (bit :: bits) = d.takeBits (d.takeBit r bit) bits := rfl
      rw [registerPoly_takeBit] at hquotient
      rw [hrest, bitsPoly, List.length_cons]
      linear_combination hquotient

/-- A register that takes in bits holds the remainder of all that it was
given. -/
theorem registerPoly_takeBits (r : BitVec w) (bits : List Bool) :
    registerPoly (d.takeBits r bits)
      = (registerPoly r * X ^ bits.length + bitsPoly bits * X ^ w) % d.poly := by
  have hne : d.poly ≠ 0 := by
    intro hzero
    have hdegree := d.degree_poly
    rw [hzero, degree_zero] at hdegree
    cases hdegree
  have hlow : (registerPoly (d.takeBits r bits)).degree < d.poly.degree := by
    rw [degree_poly]
    exact degree_registerPoly_lt _
  rw [← mod_eq_of_dvd_sub (d.dvd_registerPoly_takeBits r bits), (mod_eq_self_iff hne).mpr hlow]

theorem registerPoly_update (hw : 8 ≤ w) (r : BitVec w) (bytes : List UInt8) :
    registerPoly (d.update r bytes)
      = (registerPoly r * X ^ (8 * bytes.length) + bitsPoly (messageBits bytes) * X ^ w)
        % d.poly := by
  rw [d.update_eq_takeBits hw, registerPoly_takeBits, length_messageBits]

end Divisor

/-! ## The two polynomials -/

theorem Crc16.poly_divisor : Crc16.divisor.poly = X ^ 16 + X ^ 12 + X ^ 5 + 1 := by
  have htaps : Crc16.divisor.taps
      = BitVec.twoPow 16 12 ^^^ BitVec.twoPow 16 5 ^^^ BitVec.twoPow 16 0 := by decide
  rw [Divisor.poly, htaps]
  simp only [registerPoly_xor]
  rw [registerPoly_twoPow (by decide), registerPoly_twoPow (by decide),
    registerPoly_twoPow (by decide)]
  ring

theorem Ecc56.poly_divisor :
    Ecc56.divisor.poly = X ^ 56 + X ^ 52 + X ^ 50 + X ^ 43 + X ^ 41 + X ^ 34 + X ^ 30 + X ^ 26
      + X ^ 24 + X ^ 8 + 1 := by
  have htaps : Ecc56.divisor.taps
      = BitVec.twoPow 56 52 ^^^ BitVec.twoPow 56 50 ^^^ BitVec.twoPow 56 43
        ^^^ BitVec.twoPow 56 41 ^^^ BitVec.twoPow 56 34 ^^^ BitVec.twoPow 56 30
        ^^^ BitVec.twoPow 56 26 ^^^ BitVec.twoPow 56 24 ^^^ BitVec.twoPow 56 8
        ^^^ BitVec.twoPow 56 0 := by decide
  rw [Divisor.poly, htaps]
  simp (disch := decide) only [registerPoly_xor, registerPoly_twoPow]
  ring

/-- **Both checks are remainders of polynomials.** A CRC that goes on from
any register over any message leaves what the register and the message
amount to, each in its place, modulo `x^16 + x^12 + x^5 + 1`, and so it is
what a division bit by bit would leave. The sector check leaves the
remainder modulo its own polynomial, from any register within its window. -/
theorem update_eq_remainder :
    (∀ (r : BitVec 16) (bytes : List UInt8),
      registerPoly (Crc16.update r bytes)
        = (registerPoly r * X ^ (8 * bytes.length) + bitsPoly (messageBits bytes) * X ^ 16)
          % (X ^ 16 + X ^ 12 + X ^ 5 + 1)
      ∧ Crc16.update r bytes = Crc16.divisor.takeBits r (messageBits bytes))
    ∧ ∀ (r : BitVec 64) (bytes : List UInt8), r.toNat < 2 ^ 56 →
      registerPoly (Ecc56.update r bytes)
        = (registerPoly r * X ^ (8 * bytes.length) + bitsPoly (messageBits bytes) * X ^ 56)
          % (X ^ 56 + X ^ 52 + X ^ 50 + X ^ 43 + X ^ 41 + X ^ 34 + X ^ 30 + X ^ 26 + X ^ 24
            + X ^ 8 + 1) := by
  refine ⟨fun r bytes => ⟨?_, ?_⟩, fun r bytes h => ?_⟩
  · rw [← Crc16.poly_divisor, Crc16.update_eq, Divisor.registerPoly_update _ (by decide)]
  · rw [Crc16.update_eq, Divisor.update_eq_takeBits _ (by decide)]
  · have hlow : registerPoly (r.setWidth 56) = registerPoly r := by
      rw [← registerPoly_setWidth (by decide : 56 ≤ 64), Ecc56.setWidth_setWidth_of_lt h]
    rw [← Ecc56.poly_divisor, Ecc56.update_eq_of_lt h, registerPoly_setWidth (by decide),
      Divisor.registerPoly_update _ (by decide), hlow]

/-- `x^48` before a byte of zeros becomes `x^56`, of which the sector check
leaves the lower terms of its polynomial; and nine bytes in the table-driven
engine and bit by bit. -/
theorem update_eq_remainder_lower_terms :
    let digits : List UInt8 := [0x31, 0x32, 0x33, 0x34, 0x35, 0x36, 0x37, 0x38, 0x39]
    (BitVec.twoPow 64 48).toNat < 2 ^ 56
      ∧ Ecc56.update (BitVec.twoPow 64 48) [0] = 0x00140a0445000101
      ∧ (X ^ 56 : (ZMod 2)[X])
          % (X ^ 56 + X ^ 52 + X ^ 50 + X ^ 43 + X ^ 41 + X ^ 34 + X ^ 30 + X ^ 26 + X ^ 24
            + X ^ 8 + 1)
        = registerPoly (0x00140a0445000101 : BitVec 64)
      ∧ Crc16.divisor.takeBits 0xffff (messageBits digits) = 0x29b1 := by
  intro digits
  obtain ⟨hcrc, hecc⟩ := update_eq_remainder
  have hlt : (BitVec.twoPow 64 48).toNat < 2 ^ 56 := by decide
  have hupdate : Ecc56.update (BitVec.twoPow 64 48) [0] = 0x00140a0445000101 := by decide +kernel
  have hdigits : Crc16.update 0xffff digits = 0x29b1 := by decide +kernel
  have hremainder := hecc (BitVec.twoPow 64 48) [0] hlt
  have hzeros : bitsPoly (messageBits [0]) = 0 := by
    simp [messageBits, byteBits, lowBits, bitsPoly, coefficient]
  rw [hupdate, registerPoly_twoPow (by decide), hzeros, zero_mul, add_zero, ← pow_add]
    at hremainder
  exact ⟨hlt, hupdate, hremainder.symm, (hcrc 0xffff digits).2.symm.trans hdigits⟩

end FluxMarks
