import FluxMarks.Proofs.Layout

/-!
# Division registers

Both checks are the remainder of a long division by a fixed polynomial, a
bit at a time in a register as wide as the polynomial's degree. This file
runs that division for any width and any polynomial with a constant term
(`Divisor`), so that what is proved of it holds of either check once that is
shown to be an instance.

- The division is linear in exclusive or (`steps_xor`), and since the
  divisor is odd a step never turns a register that is not zero into zero
  (`step_eq_zero`). So registers that differ stay different over any
  message (`update_injective`).
- A register is emptied by its own bytes (`update_bigEndian`), and by
  injectivity by no others: `update_eq_zero_iff`.
-/

namespace FluxMarks

/-- A polynomial of degree `w` with a constant term, given by its terms
below the leading one. -/
structure Divisor (w : Nat) where
  taps : BitVec w
  odd : taps.getLsbD 0 = true

namespace Divisor

variable {w : Nat} (d : Divisor w)

/-- One step: multiplies by `x` and subtracts the divisor if it fits. -/
def step (r : BitVec w) : BitVec w :=
  if r.msb then (r <<< 1) ^^^ d.taps else r <<< 1

def steps : Nat → BitVec w → BitVec w
  | 0, r => r
  | n + 1, r => steps n (d.step r)

def feed (r : BitVec w) (byte : UInt8) : BitVec w :=
  d.steps 8 (r ^^^ (byte.toBitVec.setWidth w <<< (w - 8)))

def update (r : BitVec w) (bytes : List UInt8) : BitVec w :=
  bytes.foldl d.feed r

theorem update_append (r : BitVec w) (xs ys : List UInt8) :
    d.update r (xs ++ ys) = d.update (d.update r xs) ys :=
  List.foldl_append

/-- The remainder of a message, from a register of ones. -/
def checksum (bytes : List UInt8) : BitVec w :=
  d.update (BitVec.allOnes w) bytes

/-! ## Linearity and injectivity -/

theorem step_xor (r s : BitVec w) : d.step (r ^^^ s) = d.step r ^^^ d.step s := by
  simp only [step, BitVec.msb_xor, BitVec.shiftLeft_xor_distrib]
  cases hr : r.msb <;> cases hs : s.msb
  · rfl
  · exact BitVec.xor_assoc ..
  · simp only [Bool.xor_false, if_true, Bool.false_eq_true, if_false]
    ac_rfl
  · have hcancel : d.taps ^^^ d.taps = 0#w := BitVec.xor_self
    calc r <<< 1 ^^^ s <<< 1
        = r <<< 1 ^^^ s <<< 1 ^^^ (d.taps ^^^ d.taps) := by rw [hcancel, BitVec.xor_zero]
      _ = (r <<< 1 ^^^ d.taps) ^^^ (s <<< 1 ^^^ d.taps) := by ac_rfl

theorem steps_xor (n : Nat) (r s : BitVec w) :
    d.steps n (r ^^^ s) = d.steps n r ^^^ d.steps n s := by
  induction n generalizing r s with
  | zero => rfl
  | succ n ih => rw [steps, steps, steps, step_xor, ih]

/-- The constant term of the divisor stays behind where the leading one was
taken away, so no step loses a term for good. -/
theorem step_eq_zero {r : BitVec w} (h : d.step r = 0#w) : r = 0#w := by
  have hw : 0 < w := BitVec.lt_of_getLsbD d.odd
  by_cases hmsb : r.msb = true
  · -- subtracting leaves the constant term in a place the shift has cleared
    rw [step, if_pos hmsb] at h
    have hlow := congrArg (BitVec.getLsbD · 0) h
    simp [d.odd] at hlow
  · rw [step, if_neg hmsb] at h
    refine BitVec.eq_of_getLsbD_eq fun i hi => ?_
    rw [BitVec.getLsbD_zero]
    by_cases hlast : i = w - 1
    · rw [hlast, ← BitVec.msb_eq_getLsbD_last]
      exact eq_false_of_ne_true hmsb
    · have hnext : (r <<< 1).getLsbD (i + 1) = false := by rw [h, BitVec.getLsbD_zero]
      have hfits : i + 1 < w := by omega
      simpa only [BitVec.getLsbD_shiftLeft, hfits, decide_true, Bool.true_and,
        Nat.not_lt.mpr (Nat.le_add_left 1 i), decide_false, Bool.not_false,
        Nat.add_sub_cancel] using hnext

theorem steps_eq_zero {n : Nat} {r : BitVec w} (h : d.steps n r = 0#w) : r = 0#w := by
  induction n generalizing r with
  | zero => exact h
  | succ n ih => exact d.step_eq_zero (ih h)

theorem steps_injective {n : Nat} {r s : BitVec w} (h : d.steps n r = d.steps n s) : r = s := by
  rw [← BitVec.xor_eq_zero_iff, ← steps_xor] at h
  exact BitVec.xor_eq_zero_iff.mp (d.steps_eq_zero h)

theorem feed_injective {r s : BitVec w} {byte : UInt8}
    (h : d.feed r byte = d.feed s byte) : r = s :=
  (BitVec.xor_left_inj _).mp (d.steps_injective h)

theorem update_injective {r s : BitVec w} {bytes : List UInt8}
    (h : d.update r bytes = d.update s bytes) : r = s := by
  induction bytes generalizing r s with
  | nil => exact h
  | cons byte bytes ih => exact d.feed_injective (ih h)

/-! ## Emptying the register -/

theorem steps_of_clear {n : Nat} {r : BitVec w}
    (h : ∀ i, w - n ≤ i → r.getLsbD i = false) : d.steps n r = r <<< n := by
  induction n generalizing r with
  | zero => rw [BitVec.shiftLeft_zero, steps]
  | succ n ih =>
      have hmsb : r.msb = false := by
        rw [BitVec.msb_eq_getLsbD_last]
        exact h _ (by omega)
      have hstep : d.step r = r <<< 1 := by
        rw [step, hmsb, if_neg Bool.false_ne_true]
      rw [steps, hstep, ih, ← BitVec.shiftLeft_add, Nat.add_comm]
      intro i hi
      rw [BitVec.getLsbD_shiftLeft]
      by_cases hpos : i < 1
      · simp [hpos]
      · rw [h (i - 1) (by omega), Bool.and_false]

/-- A byte that equals the leading one of the register is subtracted from
it, and the rest moves up. -/
theorem feed_leading (n : Nat) {count : Nat} (h : 8 * (count + 1) ≤ w) :
    d.feed (BitVec.ofNat w (n <<< (w - 8 * (count + 1)))) (UInt8.ofNat (n >>> (8 * count)))
      = BitVec.ofNat w (n <<< (w - 8 * count)) := by
  rw [feed, steps_of_clear]
  · refine BitVec.eq_of_getLsbD_eq fun i hi => ?_
    simp only [BitVec.getLsbD_shiftLeft, BitVec.getLsbD_xor, BitVec.getLsbD_ofNat,
      Nat.testBit_shiftLeft, BitVec.getLsbD_setWidth]
    grind
  · intro i hi
    simp only [BitVec.getLsbD_shiftLeft, BitVec.getLsbD_xor, BitVec.getLsbD_ofNat,
      Nat.testBit_shiftLeft, BitVec.getLsbD_setWidth, UInt8.toBitVec_ofNat',
      Nat.testBit_shiftRight]
    grind

theorem update_bigEndian (n : Nat) {count : Nat} (h : 8 * count ≤ w) :
    d.update (BitVec.ofNat w (n <<< (w - 8 * count))) (bigEndian n count) = 0#w := by
  induction count with
  | zero =>
      refine BitVec.eq_of_getLsbD_eq fun i hi => ?_
      simp [bigEndian, update, BitVec.getLsbD_ofNat, Nat.testBit_shiftLeft, Nat.not_le.mpr hi]
  | succ count ih =>
      have hfeed := d.feed_leading n h
      rw [bigEndian, update, List.foldl_cons, hfeed]
      exact ih (by omega)

/-- As many bytes as the register is wide empty it if and only if they are
its own. -/
theorem update_eq_zero_iff {r : BitVec w} {stored : List UInt8}
    (hw : w = 8 * stored.length) :
    d.update r stored = 0#w ↔ stored = bigEndian r.toNat stored.length := by
  have hown : ∀ n, d.update (BitVec.ofNat w n) (bigEndian n stored.length) = 0#w := by
    intro n
    have hempty := d.update_bigEndian n (Nat.le_of_eq hw.symm)
    rwa [← hw, Nat.sub_self, Nat.shiftLeft_zero] at hempty
  constructor
  · intro h
    obtain ⟨n, hn, -⟩ := exists_bigEndian_eq stored
    have hr : r = BitVec.ofNat w n := by
      refine d.update_injective (h.trans ?_)
      rw [← hown n, hn]
    refine hn.symm.trans (bigEndian_congr fun i hi => ?_)
    rw [hr, BitVec.testBit_toNat, BitVec.getLsbD_ofNat, hw, decide_eq_true hi, Bool.true_and]
  · intro h
    rw [h]
    have hempty := hown r.toNat
    rwa [BitVec.ofNat_toNat, BitVec.setWidth_eq] at hempty

/-- **A remainder is zero exactly over its own message.** As many bytes as
the register is wide, at the end of a message, leave no remainder if and
only if they are the remainder of what precedes them. -/
theorem checksum_append_eq_zero_iff (covered : List UInt8) {stored : List UInt8}
    (hw : w = 8 * stored.length) :
    d.checksum (covered ++ stored) = 0#w
      ↔ stored = bigEndian (d.checksum covered).toNat stored.length := by
  rw [checksum, update_append]
  exact d.update_eq_zero_iff hw

end Divisor

end FluxMarks
