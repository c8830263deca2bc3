import FluxMarks.Check.Crc16
import FluxMarks.Check.Ecc56
import FluxMarks.Proofs.Check.Divisor

/-!
# The two check engines are division registers

The CRC-16 answers for a whole byte from a table, and the 56-bit check runs
in a register of 64 bits. Neither makes a difference: `Crc16.update_eq` and
`Ecc56.update_eq` show each of them to run the division by its own
`Divisor`. The table entry of a byte is what becomes of it in eight steps,
and the rest of the register only moves up in them. The eight spare bits of
the wider register are never read, and one byte pushes them out.
-/

namespace FluxMarks

/-! ## CRC-16 -/

namespace Crc16

def divisor : Divisor 16 := ⟨BitVec.ofNat 16 polynomial, by decide⟩

theorem shifts_eq (n : Nat) (r : Register) : shifts n r = divisor.steps n r := by
  induction n generalizing r with
  | zero => rfl
  | succ n ih => exact ih (shift r)

theorem table_get (index : Fin 256) :
    table.get index = divisor.steps 8 (BitVec.ofNat 16 index.val <<< 8) := by
  rw [← shifts_eq]
  exact Vector.getElem_ofFn index.isLt

/-- The register after a byte was added: the low byte as it was, and the
byte that leaves. -/
theorem xor_byte_eq (r : Register) (byte : UInt8) :
    r ^^^ (byte.toBitVec.setWidth 16 <<< 8)
      = (r.setWidth 8).setWidth 16
        ^^^ (((r >>> 8).setWidth 8 ^^^ byte.toBitVec).setWidth 16 <<< 8) := by
  refine BitVec.eq_of_getLsbD_eq fun i hi => ?_
  simp only [BitVec.getLsbD_xor, BitVec.getLsbD_shiftLeft, BitVec.getLsbD_setWidth,
    BitVec.getLsbD_ushiftRight]
  grind

theorem feed_eq (r : Register) (byte : UInt8) : feed r byte = divisor.feed r byte := by
  have hlow : divisor.steps 8 ((r.setWidth 8).setWidth 16) = r <<< 8 := by
    rw [Divisor.steps_of_clear]
    · refine BitVec.eq_of_getLsbD_eq fun i hi => ?_
      simp only [BitVec.getLsbD_shiftLeft, BitVec.getLsbD_setWidth]
      grind
    · intro i hi
      simp only [BitVec.getLsbD_setWidth]
      grind
  rw [Divisor.feed, xor_byte_eq, Divisor.steps_xor, hlow, feed, table_get,
    BitVec.ofNat_toNat]

theorem update_eq (r : Register) (bytes : List UInt8) :
    update r bytes = divisor.update r bytes := by
  induction bytes generalizing r with
  | nil => rfl
  | cons byte bytes ih =>
      rw [update, List.foldl_cons, feed_eq]
      exact ih (divisor.feed r byte)

theorem checksum_eq (bytes : List UInt8) : checksum bytes = divisor.checksum bytes :=
  update_eq initial bytes

end Crc16

/-! ## The 56-bit check -/

namespace Ecc56

def divisor : Divisor 56 := ⟨polynomial.setWidth 56, by decide⟩

/-- A step divides the 56-bit window, and what lies above it moves up. -/
theorem shift_eq {low : BitVec 56} {high : Register}
    (h : ∀ i < 56, high.getLsbD i = false) :
    shift (low.setWidth 64 ^^^ high) = (divisor.step low).setWidth 64 ^^^ (high <<< 1) := by
  have hpoly : polynomial = divisor.taps.setWidth 64 ^^^ (1#64 <<< 56) := by decide
  have htop : ((low.setWidth 64 ^^^ high) <<< 1).getLsbD width = low.msb := by
    rw [BitVec.msb_eq_getLsbD_last]
    simp only [BitVec.getLsbD_shiftLeft, BitVec.getLsbD_xor, BitVec.getLsbD_setWidth, width]
    simp only [h 55 (by decide), Bool.xor_false]
    rfl
  rw [shift]
  simp only [htop, Divisor.step]
  cases hmsb : low.msb
  · simp only [Bool.false_eq_true, if_false]
    refine BitVec.eq_of_getLsbD_eq fun i hi => ?_
    rw [BitVec.msb_eq_getLsbD_last] at hmsb
    simp only [BitVec.getLsbD_shiftLeft, BitVec.getLsbD_xor, BitVec.getLsbD_setWidth]
    grind
  · simp only [if_true]
    refine BitVec.eq_of_getLsbD_eq fun i hi => ?_
    rw [BitVec.msb_eq_getLsbD_last] at hmsb
    rw [hpoly]
    simp only [BitVec.getLsbD_shiftLeft, BitVec.getLsbD_xor, BitVec.getLsbD_setWidth,
      BitVec.getLsbD_one]
    grind

theorem shifts_eq (n : Nat) {low : BitVec 56} {high : Register}
    (h : ∀ i < 56, high.getLsbD i = false) :
    shifts n (low.setWidth 64 ^^^ high)
      = (divisor.steps n low).setWidth 64 ^^^ (high <<< n) := by
  induction n generalizing low high with
  | zero => rw [BitVec.shiftLeft_zero]; rfl
  | succ n ih =>
      rw [shifts, shift_eq h, ih, Divisor.steps, ← BitVec.shiftLeft_add, Nat.add_comm 1 n]
      intro i hi
      rw [BitVec.getLsbD_shiftLeft, h (i - 1) (by omega), Bool.and_false]

/-- A byte is taken in by the window alone: whatever was above it is gone
after the byte. -/
theorem feed_eq (r : Register) (byte : UInt8) :
    feed r byte = (divisor.feed (r.setWidth 56) byte).setWidth 64 := by
  have hsplit : r ^^^ (byte.toBitVec.setWidth 64 <<< (width - 8))
      = (r.setWidth 56 ^^^ (byte.toBitVec.setWidth 56 <<< (56 - 8))).setWidth 64
        ^^^ ((r >>> 56) <<< 56) := by
    refine BitVec.eq_of_getLsbD_eq fun i hi => ?_
    simp only [BitVec.getLsbD_xor, BitVec.getLsbD_shiftLeft, BitVec.getLsbD_setWidth,
      BitVec.getLsbD_ushiftRight, width]
    grind
  have hgone : ((r >>> 56) <<< 56) <<< 8 = 0#64 := by
    rw [← BitVec.shiftLeft_add]
    exact BitVec.shiftLeft_eq_zero (by decide)
  rw [feed, hsplit, shifts_eq, hgone, BitVec.xor_zero, Divisor.feed]
  intro i hi
  simp [BitVec.getLsbD_shiftLeft, hi]

theorem update_eq (r : BitVec 56) (bytes : List UInt8) :
    update (r.setWidth 64) bytes = (divisor.update r bytes).setWidth 64 := by
  induction bytes generalizing r with
  | nil => rfl
  | cons byte bytes ih =>
      rw [update, List.foldl_cons, feed_eq, BitVec.setWidth_setWidth_of_le _ (by decide),
        BitVec.setWidth_eq]
      exact ih (divisor.feed r byte)

/-- From the first byte on, the window is all that counts. -/
theorem update_cons_eq (r : Register) (byte : UInt8) (bytes : List UInt8) :
    update r (byte :: bytes) = (divisor.update (r.setWidth 56) (byte :: bytes)).setWidth 64 := by
  rw [update, List.foldl_cons, feed_eq]
  exact update_eq (divisor.feed (r.setWidth 56) byte) bytes

theorem setWidth_setWidth_of_lt {r : Register} (h : r.toNat < 2 ^ 56) :
    (r.setWidth 56).setWidth 64 = r := by
  refine BitVec.eq_of_toNat_eq ?_
  rw [BitVec.toNat_setWidth, BitVec.toNat_setWidth, Nat.mod_eq_of_lt h, Nat.mod_eq_of_lt r.isLt]

theorem update_eq_of_lt {r : Register} (h : r.toNat < 2 ^ 56) (bytes : List UInt8) :
    update r bytes = (divisor.update (r.setWidth 56) bytes).setWidth 64 := by
  rw [← update_eq, setWidth_setWidth_of_lt h]

theorem toNat_checksum (bytes : List UInt8) :
    (checksum bytes).toNat = (divisor.checksum bytes).toNat := by
  have hinit : initial = (BitVec.allOnes 56).setWidth 64 := by decide
  rw [checksum, hinit, update_eq, BitVec.toNat_setWidth_of_le (by decide)]
  rfl

theorem checksum_inj {xs ys : List UInt8} :
    checksum xs = checksum ys ↔ divisor.checksum xs = divisor.checksum ys := by
  rw [← BitVec.toNat_inj, toNat_checksum, toNat_checksum, BitVec.toNat_inj]

end Ecc56

end FluxMarks
