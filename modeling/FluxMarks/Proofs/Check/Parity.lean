import FluxMarks.Proofs.Check.Remainder
import FluxMarks.Proofs.Record

/-!
# Parity

A polynomial over GF(2) is zero at one exactly if it has an even number of
terms. That of the CRC has four, so all its multiples are zero there too,
and a register that takes in a message has as many ones afterwards as
register and message had before, but for an even number
(`Divisor.cpop_takeBits`). An odd number of bit errors, wherever they are,
therefore shows in the check. The polynomial of the sector check has eleven
terms, and nothing of the kind holds there.
-/

namespace FluxMarks

open Polynomial

/-! ## Values at one -/

theorem coefficient_eq_natCast (bit : Bool) : coefficient bit = (bit.toNat : ZMod 2) := by
  cases bit <;> rfl

theorem natCast_cpopNatRec {w : Nat} (r : BitVec w) (n : Nat) :
    (r.cpopNatRec n 0 : ZMod 2) = ∑ i ∈ Finset.range n, coefficient (r.getLsbD i) := by
  induction n with
  | zero => rfl
  | succ n ih =>
      rw [BitVec.cpopNatRec_succ, BitVec.cpopNatRec_eq, Nat.zero_add, Nat.cast_add, ih,
        Finset.sum_range_succ, coefficient_eq_natCast]

/-- At one, the polynomial of a register is the parity of its ones. -/
theorem eval_one_registerPoly {w : Nat} (r : BitVec w) :
    (registerPoly r).eval 1 = (r.cpop.toNat : ZMod 2) := by
  rw [BitVec.toNat_cpop, natCast_cpopNatRec, registerPoly, eval_finsetSum]
  simp only [eval_mul, eval_C, eval_pow, eval_X, one_pow, mul_one]

theorem eval_one_bitsPoly (bits : List Bool) :
    (bitsPoly bits).eval 1 = (bits.count true : ZMod 2) := by
  induction bits with
  | nil => simp [bitsPoly]
  | cons bit bits ih => cases bit <;> simp [bitsPoly, coefficient, ih, add_comm]

/-- A divisor that is zero at one takes away an even number of terms
whenever it fits. -/
theorem Divisor.cpop_takeBits {w : Nat} (d : Divisor w) (hd : d.poly.eval 1 = 0)
    (r : BitVec w) (bits : List Bool) :
    (d.takeBits r bits).cpop.toNat % 2 = (r.cpop.toNat + bits.count true) % 2 := by
  obtain ⟨quotient, hquotient⟩ := d.dvd_registerPoly_takeBits r bits
  -- at one all powers of `x` are one, and no multiple of the divisor is left
  have hone := congrArg (eval 1) hquotient
  simp only [eval_sub, eval_add, eval_mul, eval_pow, eval_X, one_pow, mul_one, hd, zero_mul,
    eval_one_registerPoly, eval_one_bitsPoly, sub_eq_zero] at hone
  rw [← Nat.cast_add] at hone
  exact (ZMod.natCast_eq_natCast_iff' _ _ 2).mp hone

theorem Crc16.cpop_update (r : Register) (bytes : List UInt8) :
    (update r bytes).cpop.toNat % 2
      = (r.cpop.toNat + (messageBits bytes).count true) % 2 := by
  have heven : divisor.poly.eval 1 = 0 := by
    rw [poly_divisor]
    simp only [eval_add, eval_pow, eval_X, one_pow, eval_one]
    decide
  rw [update_eq, Divisor.update_eq_takeBits _ (by decide)]
  exact divisor.cpop_takeBits heven r _

/-! ## Errors -/

/-- The number of bits in which two messages of one length differ. -/
def bitErrors (xs ys : List UInt8) : Nat :=
  (List.zipWith (· ^^ ·) (messageBits xs) (messageBits ys)).count true

theorem count_zipWith_xor {xs ys : List Bool} (h : xs.length = ys.length) :
    (List.zipWith (· ^^ ·) xs ys).count true % 2 = (xs.count true + ys.count true) % 2 := by
  induction xs generalizing ys with
  | nil =>
      obtain rfl := List.eq_nil_of_length_eq_zero h.symm
      rfl
  | cons x xs ih =>
      obtain ⟨y, ys, rfl⟩ := List.exists_cons_of_length_eq_add_one h.symm
      have hrest := ih (Nat.succ_inj.mp h)
      cases x <;> cases y <;> simp <;> omega

/-- An odd number of errors leaves an odd number of ones in the difference of
the remainders, and so never none. -/
theorem Crc16.update_ne_of_odd (r : Register) {xs ys : List UInt8}
    (hlen : xs.length = ys.length) (hodd : Odd (bitErrors xs ys)) :
    update r xs ≠ update r ys := by
  intro heq
  have hxs := cpop_update r xs
  have hys := cpop_update r ys
  have hbits := count_zipWith_xor
    (show (messageBits xs).length = (messageBits ys).length by
      rw [length_messageBits, length_messageBits, hlen])
  rw [heq] at hxs
  rw [Nat.odd_iff, bitErrors] at hodd
  omega

theorem Crc16.checksum_cons_ne_of_odd (first : UInt8) {xs ys : List UInt8}
    (hlen : xs.length = ys.length) (hodd : Odd (bitErrors xs ys)) :
    checksum (first :: xs) ≠ checksum (first :: ys) :=
  update_ne_of_odd (feed initial first) hlen hodd

theorem RecordKind.check?_addressMark_ne_of_odd {xs ys : List UInt8}
    (hlen : xs.length = ys.length) (hodd : Odd (bitErrors xs ys)) :
    addressMark.check? xs ≠ addressMark.check? ys := by
  intro heq
  exact Crc16.checksum_cons_ne_of_odd preamble hlen hodd
    (BitVec.toNat_inj.mp (Option.some.inj heq))

/-- **The CRC keeps parity, and so tells every odd number of errors.** Over
any message and from any register, the ones of the remainder are even in
number exactly if those of register and message together are. So where an
odd number of the bits that the check of an intact ID field covers are
flipped, wherever they are, the record is not intact, if it is an ID field
still. -/
theorem odd_errors_detected :
    (∀ (r : BitVec 16) (bytes : List UInt8),
      (Crc16.update r bytes).cpop.toNat % 2
        = (r.cpop.toNat + (messageBits bytes).count true) % 2)
    ∧ ∀ bytes r, Record.classify? bytes = some r → r.kind = .addressMark →
      r.isIntact = some true →
      r.payload.length = 6 ∧ bytes = r.payload ++ bytes.drop 6
      ∧ ∀ mark rest, (mark :: rest).length = 6 → 0xf8 < mark →
        Odd (bitErrors r.payload (mark :: rest)) →
        ∃ r', Record.classify? (mark :: rest ++ bytes.drop 6) = some r'
          ∧ r'.isIntact = some false := by
  refine ⟨Crc16.cpop_update, fun bytes r hr hkind hintact => ?_⟩
  obtain ⟨hfull, hbytes, hzero⟩ := Record.covered_of_isIntact hr hintact
  rw [hkind] at hfull hbytes hzero
  refine ⟨hfull, hbytes, fun mark rest hlen hmark hodd => ?_⟩
  have hstruck := RecordKind.check?_addressMark_ne_of_odd (hfull.trans hlen.symm) hodd
  rw [hzero] at hstruck
  exact Record.exists_not_isIntact (RecordKind.ofMark_eq_addressMark.mpr hmark) (by decide) hlen
    hstruck.symm _

/-- An ID field with three bits flipped far from each other, one of them in
the mark and one in the stored check; and nine digits, over which the
remainder has seven ones. -/
theorem odd_errors_detected_far_apart :
    let field : List UInt8 := [0xfe, 1, 2, 3, 0xcd, 0x1f]
    let struck : List UInt8 := [0xff, 1, 0x12, 3, 0xcd, 0x9f]
    let digits : List UInt8 := [0x31, 0x32, 0x33, 0x34, 0x35, 0x36, 0x37, 0x38, 0x39]
    bitErrors field struck = 3
      ∧ (∃ r, Record.classify? (field ++ [0x55]) = some r ∧ r.isIntact = some true)
      ∧ (∃ r', Record.classify? (struck ++ [0x55]) = some r' ∧ r'.isIntact = some false)
      ∧ (Crc16.update 0xffff digits).cpop.toNat = 7
      ∧ 7 % 2 = ((0xffff#16).cpop.toNat + (messageBits digits).count true) % 2 := by
  intro field struck digits
  have herrors : bitErrors field struck = 3 := by decide
  have hdigits : (Crc16.update 0xffff digits).cpop.toNat = 7 := by
    rw [Crc16.update_eq]
    decide +kernel
  let intact : Record := { kind := .addressMark, length := 7, check := some 0, payload := field }
  have hintact : Record.classify? (field ++ [0x55]) = some intact := by decide +kernel
  obtain ⟨hparity, hrecord⟩ := odd_errors_detected
  have hsame := hparity 0xffff digits
  rw [hdigits] at hsame
  obtain ⟨-, -, hstruck⟩ := hrecord _ intact hintact rfl rfl
  have hodd : Odd (bitErrors field struck) := herrors ▸ ⟨1, rfl⟩
  exact ⟨herrors, ⟨intact, hintact, rfl⟩,
    hstruck 0xff [1, 0x12, 3, 0xcd, 0x9f] rfl (by decide) hodd, hdigits, hsame⟩

end FluxMarks
