import FluxMarks.Proofs.Check.Divisor

/-!
# Division a bit at a time

A register takes in a byte as it would take in the byte's bits one after
another (`feed_eq_takeBits`), so a message is divided bit by bit, wherever
its bytes begin and end. Bits that fit into the register could as well be
added to it all at once, from the top, before any step is made
(`takeBits_eq_steps`), and since steps lose nothing, neither do so many bits
(`takeBits_right_injective`).
-/

namespace FluxMarks

/-- The bits of a message, byte by byte, most significant first. -/
def messageBits (bytes : List UInt8) : List Bool :=
  bytes.flatMap byteBits

theorem length_messageBits (bytes : List UInt8) :
    (messageBits bytes).length = 8 * bytes.length := by
  have hrecord := length_recordBits false bytes
  rw [recordBits, List.length_cons] at hrecord
  exact Nat.succ_inj.mp (hrecord.trans (Nat.add_comm 1 _))

theorem getElem?_lowBits (value : UInt8) (width i : Nat) :
    (lowBits value width)[i]?
      = if i < width then some (value.toNat.testBit (width - 1 - i)) else none := by
  induction width generalizing i with
  | zero => rfl
  | succ width ih =>
      cases i with
      | zero => simp [lowBits]
      | succ i => simp [lowBits, ih, Nat.sub_sub, Nat.add_comm 1 i]

namespace Divisor

variable {w : Nat} (d : Divisor w)

/-- A bit in the place of the leading coefficient. -/
def top (bit : Bool) : BitVec w :=
  (BitVec.ofBool bit).setWidth w <<< (w - 1)

theorem getLsbD_top (bit : Bool) (i : Nat) :
    (top bit : BitVec w).getLsbD i = (decide (i + 1 = w) && bit) := by
  simp only [top, BitVec.getLsbD_shiftLeft, BitVec.getLsbD_setWidth, BitVec.getLsbD_ofBool]
  grind

/-- Takes in a bit: adds it to the top of the register and steps past it. -/
def takeBit (r : BitVec w) (bit : Bool) : BitVec w :=
  d.step (r ^^^ top bit)

def takeBits (r : BitVec w) (bits : List Bool) : BitVec w :=
  bits.foldl d.takeBit r

theorem takeBits_append (r : BitVec w) (xs ys : List Bool) :
    d.takeBits r (xs ++ ys) = d.takeBits (d.takeBits r xs) ys :=
  List.foldl_append

/-! ## All at once -/

/-- Bits from the top of a register downwards. -/
def leading : List Bool → BitVec w
  | [] => 0#w
  | bit :: bits => top bit ^^^ (leading bits >>> 1)

theorem getLsbD_leading (bits : List Bool) {i : Nat} (hi : i < w) :
    (leading bits : BitVec w).getLsbD i = (bits[w - 1 - i]?).getD false := by
  induction bits generalizing i with
  | nil => simp [leading]
  | cons bit bits ih =>
      rw [leading, BitVec.getLsbD_xor, getLsbD_top, BitVec.getLsbD_ushiftRight]
      by_cases hlast : i + 1 = w
      · obtain rfl : i = w - 1 := by omega
        rw [BitVec.getLsbD_of_ge _ _ (by omega)]
        simp [hlast]
      · obtain ⟨k, hk⟩ : ∃ k, w - 1 - i = k + 1 := ⟨w - 2 - i, by omega⟩
        rw [Nat.add_comm 1 i, ih (by omega), hk, List.getElem?_cons_succ,
          show w - 1 - (i + 1) = k by omega]
        simp [hlast]

/-- Bits that reach not quite down to the end of the register move up in one
step as they are. -/
theorem step_leading_shifted {bits : List Bool} (h : bits.length < w) :
    d.step (leading bits >>> 1) = leading bits := by
  have hmsb : (leading bits >>> 1 : BitVec w).msb = false := by
    rw [BitVec.msb_eq_getLsbD_last, BitVec.getLsbD_ushiftRight]
    exact BitVec.getLsbD_of_ge _ _ (by omega)
  rw [step, hmsb, if_neg Bool.false_ne_true]
  refine BitVec.eq_of_getLsbD_eq fun i hi => ?_
  rw [BitVec.getLsbD_shiftLeft, BitVec.getLsbD_ushiftRight]
  rcases Nat.eq_zero_or_pos i with rfl | hpos
  · -- the last place is free
    rw [getLsbD_leading _ hi, List.getElem?_eq_none (by omega)]
    simp
  · simp [hi, Nat.not_lt.mpr hpos, Nat.add_sub_cancel' hpos]

/-- Bits that fit into the register can be added to it all at once. -/
theorem takeBits_eq_steps {bits : List Bool} (h : bits.length ≤ w) (r : BitVec w) :
    d.takeBits r bits = d.steps bits.length (r ^^^ leading bits) := by
  induction bits generalizing r with
  | nil => rw [leading, BitVec.xor_zero]; rfl
  | cons bit bits ih =>
      have hfits : bits.length < w := h
      calc d.takeBits r (bit :: bits)
          = d.steps bits.length (d.step (r ^^^ top bit) ^^^ leading bits) :=
            ih (Nat.le_of_lt hfits) (d.takeBit r bit)
        _ = d.steps bits.length (d.step (r ^^^ leading (bit :: bits))) := by
            rw [leading, ← BitVec.xor_assoc, step_xor d (r ^^^ top bit),
              d.step_leading_shifted hfits]

theorem leading_injective {xs ys : List Bool} (hlen : xs.length = ys.length)
    (h : xs.length ≤ w) (heq : (leading xs : BitVec w) = leading ys) : xs = ys := by
  refine List.ext_getElem hlen fun i hx hy => ?_
  have hbit := congrArg (BitVec.getLsbD · (w - 1 - i)) heq
  simp only [getLsbD_leading _ (show w - 1 - i < w by omega)] at hbit
  rw [show w - 1 - (w - 1 - i) = i by omega, List.getElem?_eq_getElem hx,
    List.getElem?_eq_getElem hy] at hbit
  exact hbit

/-- A register that takes in no more bits than it has room for tells which
they were. -/
theorem takeBits_right_injective {r : BitVec w} {xs ys : List Bool}
    (hlen : xs.length = ys.length) (h : xs.length ≤ w)
    (heq : d.takeBits r xs = d.takeBits r ys) : xs = ys := by
  rw [d.takeBits_eq_steps h, d.takeBits_eq_steps (hlen ▸ h), hlen] at heq
  exact leading_injective hlen h ((BitVec.xor_right_inj _).mp (d.steps_injective heq))

theorem takeBits_left_injective {r s : BitVec w} {bits : List Bool}
    (h : d.takeBits r bits = d.takeBits s bits) : r = s := by
  induction bits generalizing r s with
  | nil => exact h
  | cons bit bits ih =>
      have hstep : d.steps 1 (r ^^^ top bit) = d.steps 1 (s ^^^ top bit) := ih h
      exact (BitVec.xor_left_inj _).mp (d.steps_injective hstep)

/-! ## Bytes -/

theorem leading_byteBits (byte : UInt8) (hw : 8 ≤ w) :
    (leading (byteBits byte) : BitVec w) = byte.toBitVec.setWidth w <<< (w - 8) := by
  refine BitVec.eq_of_getLsbD_eq fun i hi => ?_
  rw [getLsbD_leading _ hi, byteBits, getElem?_lowBits, BitVec.getLsbD_shiftLeft,
    BitVec.getLsbD_setWidth]
  by_cases hlow : i < w - 8
  · simp [hlow, show ¬w - 1 - i < 8 by omega]
  · have hbit : byte.toNat.testBit (8 - 1 - (w - 1 - i)) = byte.toBitVec.getLsbD (i - (w - 8)) := by
      rw [show 8 - 1 - (w - 1 - i) = i - (w - 8) by omega]
      rfl
    simp [hi, hlow, hbit, show w - 1 - i < 8 by omega, show i - (w - 8) < w by omega]

theorem feed_eq_takeBits (hw : 8 ≤ w) (r : BitVec w) (byte : UInt8) :
    d.feed r byte = d.takeBits r (byteBits byte) := by
  have hlen : (byteBits byte).length = 8 := length_lowBits byte 8
  rw [d.takeBits_eq_steps (hlen ▸ hw), hlen, leading_byteBits byte hw]
  rfl

theorem update_eq_takeBits (hw : 8 ≤ w) (r : BitVec w) (bytes : List UInt8) :
    d.update r bytes = d.takeBits r (messageBits bytes) := by
  induction bytes generalizing r with
  | nil => rfl
  | cons byte bytes ih =>
      rw [messageBits, List.flatMap_cons, takeBits_append, ← d.feed_eq_takeBits hw]
      exact ih (d.feed r byte)

end Divisor

end FluxMarks
