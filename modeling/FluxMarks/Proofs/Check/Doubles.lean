import FluxMarks.Proofs.Check.Remainder
import FluxMarks.Proofs.Record

/-!
# Double errors

A bit that is flipped changes the remainder by what its place leaves over: a
one at the top of an empty register, taken as many steps on as there are bits
from that place to the end (`Divisor.takeBits_modify_not`). No two places
leave the same unless the one at the top comes round to the top again on the
way between them, and whether it does is a matter of the divisor alone
(`Divisor.Separates`). Wherever a power of `x` is one modulo the divisor, it
does (`Divisor.steps_eq_of_X_pow_mod`).

In the register of the sector check it does not within the bits of a data
mark, which `Ecc56.separates` finds out by stepping through them all. So two
flipped bits never cancel there, however far from each other they are.
-/

namespace FluxMarks

open Polynomial

/-! ## Flipped bits -/

theorem getElem?_messageBits (bytes : List UInt8) (p : Nat) :
    (messageBits bytes)[p]?
      = bytes[p / 8]?.map fun byte => byte.toNat.testBit (7 - p % 8) := by
  induction bytes generalizing p with
  | nil => rfl
  | cons byte bytes ih =>
      have hlen : (byteBits byte).length = 8 := length_lowBits byte 8
      rw [messageBits, List.flatMap_cons]
      rcases Nat.lt_or_ge p 8 with hlt | hge
      · rw [List.getElem?_append_left (hlen ▸ hlt), byteBits, getElem?_lowBits, if_pos hlt,
          Nat.div_eq_of_lt hlt, Nat.mod_eq_of_lt hlt]
        rfl
      · obtain ⟨q, rfl⟩ := Nat.exists_eq_add_of_le hge
        rw [List.getElem?_append_right (hlen ▸ hge), hlen, Nat.add_sub_cancel_left,
          Nat.add_div_left _ (by decide), Nat.add_mod_left, List.getElem?_cons_succ]
        exact ih q

/-- Flips one bit of a message, counted from the most significant one of the
first byte. -/
def flipBit (bytes : List UInt8) (i : Nat) : List UInt8 :=
  bytes.modify (i / 8) (· ^^^ (0x80 >>> UInt8.ofNat (i % 8)))

theorem testBit_mask : ∀ i < 8, ∀ p < 8,
    (0x80 >>> UInt8.ofNat i).toNat.testBit (7 - p) = decide (i = p) := by
  decide

theorem messageBits_flipBit (bytes : List UInt8) (i : Nat) :
    messageBits (flipBit bytes i) = (messageBits bytes).modify i not := by
  refine List.ext_getElem? fun p => ?_
  have hmask := testBit_mask (i % 8) (Nat.mod_lt _ (by decide)) (p % 8) (Nat.mod_lt _ (by decide))
  have hplace : i = p ↔ i / 8 = p / 8 ∧ i % 8 = p % 8 := by omega
  rw [getElem?_messageBits, flipBit, List.getElem?_modify, List.getElem?_modify,
    getElem?_messageBits]
  rcases bytes[p / 8]? with _ | byte
  · rfl
  · by_cases hbyte : i / 8 = p / 8
    · simp only [hplace, hbyte, true_and, Option.map_eq_map, Option.map_some, if_true,
        UInt8.toNat_xor, Nat.testBit_xor, hmask]
      by_cases hbit : i % 8 = p % 8 <;> simp [hbit]
    · simp [hplace, hbyte]

theorem flipBit_cons (byte : UInt8) (bytes : List UInt8) (i : Nat) :
    flipBit (byte :: bytes) (i + 8) = byte :: flipBit bytes i := by
  rw [flipBit, Nat.add_div_right _ (by decide), Nat.add_mod_right, List.modify_succ_cons, flipBit]

theorem flipBit_append {bytes : List UInt8} {i : Nat} (hi : i < 8 * bytes.length)
    (tail : List UInt8) : flipBit (bytes ++ tail) i = flipBit bytes i ++ tail := by
  induction bytes generalizing i with
  | nil => cases hi
  | cons byte bytes ih =>
      rcases Nat.lt_or_ge i 8 with hlt | hge
      · rw [flipBit, flipBit, Nat.div_eq_of_lt hlt]
        rfl
      · obtain ⟨i, rfl⟩ := Nat.exists_eq_add_of_le' hge
        rw [List.cons_append, flipBit_cons, flipBit_cons, List.cons_append, ih]
        rw [List.length_cons] at hi
        omega

theorem length_flipBit (bytes : List UInt8) (i : Nat) :
    (flipBit bytes i).length = bytes.length :=
  List.length_modify ..

/-! ## What a flipped bit leaves over -/

namespace Divisor

variable {w : Nat} (d : Divisor w)

theorem steps_add (m n : Nat) (r : BitVec w) : d.steps (m + n) r = d.steps n (d.steps m r) := by
  induction m generalizing r with
  | zero => rw [Nat.zero_add, steps]
  | succ m ih => rw [Nat.succ_add, steps, steps, ih]

theorem takeBits_xor (r s : BitVec w) (bits : List Bool) :
    d.takeBits (r ^^^ s) bits = d.takeBits r bits ^^^ d.steps bits.length s := by
  induction bits generalizing r s with
  | nil => rfl
  | cons bit bits ih =>
      have hbit : d.takeBit (r ^^^ s) bit = d.takeBit r bit ^^^ d.step s := by
        rw [takeBit, takeBit, ← step_xor]
        congr 1
        ac_rfl
      calc d.takeBits (r ^^^ s) (bit :: bits)
          = d.takeBits (d.takeBit r bit ^^^ d.step s) bits := congrArg (d.takeBits · bits) hbit
        _ = d.takeBits r (bit :: bits) ^^^ d.steps (bit :: bits).length s := ih ..

theorem top_not (bit : Bool) : (top (!bit) : BitVec w) = top bit ^^^ top true := by
  refine BitVec.eq_of_getLsbD_eq fun i hi => ?_
  rw [BitVec.getLsbD_xor, getLsbD_top, getLsbD_top, getLsbD_top]
  cases bit <;> simp

/-- What a flipped bit changes: a one at the top, as many steps on as there
are bits from its place to the end. -/
theorem takeBits_modify_not (r : BitVec w) {bits : List Bool} {i : Nat} (hi : i < bits.length) :
    d.takeBits r (bits.modify i not)
      = d.takeBits r bits ^^^ d.steps (bits.length - i) (top true) := by
  obtain ⟨before, bit, later, rfl, rfl, hflip⟩ := List.exists_of_modify not hi
  have hbit : d.takeBit (d.takeBits r before) (!bit)
      = d.takeBit (d.takeBits r before) bit ^^^ d.step (top true) := by
    rw [takeBit, takeBit, top_not, ← BitVec.xor_assoc, step_xor d (_ ^^^ _)]
  have hlen : (before ++ bit :: later).length - before.length = later.length + 1 := by simp
  rw [hflip, hlen, takeBits_append, takeBits_append]
  calc d.takeBits (d.takeBit (d.takeBits r before) (!bit)) later
      = d.takeBits (d.takeBit (d.takeBits r before) bit ^^^ d.step (top true)) later := by rw [hbit]
    _ = d.takeBits (d.takeBit (d.takeBits r before) bit) later
          ^^^ d.steps later.length (d.step (top true)) := d.takeBits_xor ..

/-! ## Powers of `x` -/

/-- Steps multiply by a power of `x`, up to multiples of the divisor. -/
theorem dvd_registerPoly_steps (k : Nat) (r : BitVec w) :
    d.poly ∣ registerPoly (d.steps k r) - X ^ k * registerPoly r := by
  induction k generalizing r with
  | zero => simp [steps]
  | succ k ih =>
      obtain ⟨quotient, hquotient⟩ := ih (d.step r)
      refine ⟨quotient + X ^ k * C (coefficient r.msb), ?_⟩
      rw [registerPoly_step] at hquotient
      rw [steps]
      linear_combination hquotient

/-- A register has no room for a multiple of the divisor. -/
theorem eq_zero_of_dvd_registerPoly {r : BitVec w} (h : d.poly ∣ registerPoly r) : r = 0#w := by
  have hlow : (registerPoly r).degree < d.poly.degree := by
    rw [degree_poly]
    exact degree_registerPoly_lt r
  have hzero := eq_zero_of_dvd_of_degree_lt h hlow
  refine BitVec.eq_of_getLsbD_eq fun i hi => ?_
  have hbit := coeff_registerPoly r i
  rw [hzero, coeff_zero] at hbit
  rw [BitVec.getLsbD_zero]
  cases hcoeff : r.getLsbD i with
  | false => rfl
  | true =>
      rw [hcoeff] at hbit
      cases hbit

/-- Where a power of `x` is one, everything comes round. -/
theorem steps_eq_of_X_pow_mod {k : Nat} (h : (X ^ k : (ZMod 2)[X]) % d.poly = 1)
    (r : BitVec w) : d.steps k r = r := by
  refine BitVec.xor_eq_zero_iff.mp (d.eq_zero_of_dvd_registerPoly ?_)
  have hpow : d.poly * (X ^ k / d.poly) + 1 = X ^ k := h ▸ EuclideanDomain.div_add_mod ..
  have htwice := CharTwo.add_self_eq_zero (registerPoly r)
  obtain ⟨quotient, hquotient⟩ := d.dvd_registerPoly_steps k r
  refine ⟨quotient + X ^ k / d.poly * registerPoly r, ?_⟩
  rw [registerPoly_xor]
  linear_combination hquotient - registerPoly r * hpow + htwice

/-! ## Coming round -/

/-- A one at the top is not back there in less than so many steps. -/
def Separates (n : Nat) : Prop :=
  ∀ k, 0 < k → k < n → d.steps k (top true) ≠ top true

variable {d}

theorem Separates.eq_of_steps_eq {n a b : Nat} (h : d.Separates n) (hab : a < b + n)
    (hba : b < a + n) (heq : d.steps a (top true) = d.steps b (top true)) : a = b := by
  wlog hle : a ≤ b generalizing a b
  · exact (this hba hab heq.symm (Nat.le_of_not_le hle)).symm
  obtain ⟨k, rfl⟩ := Nat.exists_eq_add_of_le' hle
  rw [steps_add] at heq
  rcases Nat.eq_zero_or_pos k with rfl | hpos
  · rw [Nat.zero_add]
  · exact absurd (d.steps_injective heq).symm (h k hpos (by omega))

/-- Two flipped bits do not cancel if they are less far from each other. -/
theorem Separates.update_ne {n : Nat} (h : d.Separates n) (hw : 8 ≤ w) (r : BitVec w)
    {bytes : List UInt8} {i j : Nat} (hij : i ≠ j) (hi : i < 8 * bytes.length)
    (hj : j < 8 * bytes.length) (hi' : i < j + n) (hj' : j < i + n) :
    d.update r (flipBit (flipBit bytes i) j) ≠ d.update r bytes := by
  intro heq
  have hlen := length_messageBits bytes
  rw [d.update_eq_takeBits hw, d.update_eq_takeBits hw, messageBits_flipBit, messageBits_flipBit,
    d.takeBits_modify_not r (by rwa [List.length_modify, hlen]), List.length_modify,
    d.takeBits_modify_not r (by rwa [hlen]), BitVec.xor_assoc, hlen] at heq
  -- what the one place leaves over is taken back by the other
  have hzero := (BitVec.xor_right_inj _).mp (heq.trans BitVec.xor_zero.symm)
  have := h.eq_of_steps_eq (by omega) (by omega) (BitVec.xor_eq_zero_iff.mp hzero)
  omega

theorem Separates.X_pow_mod_ne_one {n k : Nat} (h : d.Separates n) (hpos : 0 < k) (hlt : k < n) :
    (X ^ k : (ZMod 2)[X]) % d.poly ≠ 1 :=
  fun hone => h k hpos hlt (d.steps_eq_of_X_pow_mod hone _)

/-- Steps through so many registers that are to be others than a given one. -/
def avoids (d : Divisor w) (target : BitVec w) : Nat → BitVec w → Bool
  | 0, _ => true
  | n + 1, r => d.step r != target && d.avoids target n (d.step r)

theorem steps_ne_of_avoids {target r : BitVec w} {n : Nat} (h : d.avoids target n r = true) :
    ∀ k, 0 < k → k ≤ n → d.steps k r ≠ target := by
  induction n generalizing r with
  | zero => exact fun k hpos hle => absurd hpos (Nat.not_lt.mpr hle)
  | succ n ih =>
      rw [avoids, Bool.and_eq_true, bne_iff_ne] at h
      obtain ⟨hfirst, hrest⟩ := h
      intro k hpos hle
      obtain ⟨k, rfl⟩ := Nat.exists_eq_succ_of_ne_zero (Nat.ne_of_gt hpos)
      rcases Nat.eq_zero_or_pos k with rfl | hmore
      · exact hfirst
      · exact ih hrest k hmore (Nat.le_of_succ_le_succ hle)

end Divisor

/-! ## The sector check -/

namespace Ecc56

/-- Of the 520 bytes of a data mark the mark itself is not struck. -/
theorem separates : divisor.Separates (8 * 519) := by
  have havoids : divisor.avoids (Divisor.top true) (8 * 519 - 1) (Divisor.top true) = true := by
    decide +kernel
  exact fun k hpos hlt => Divisor.steps_ne_of_avoids havoids k hpos (Nat.le_sub_one_of_lt hlt)

theorem checksum_flipBit_ne {bytes : List UInt8} {i j : Nat} (hij : i ≠ j)
    (hi : i < 8 * bytes.length) (hj : j < 8 * bytes.length) (hi' : i < j + 8 * 519)
    (hj' : j < i + 8 * 519) : checksum (flipBit (flipBit bytes i) j) ≠ checksum bytes := by
  rw [Ne, checksum_inj]
  exact separates.update_ne (by decide) _ hij hi hj hi' hj'

end Ecc56

theorem RecordKind.check?_dataMark_flipBit_ne {bytes : List UInt8} {i j : Nat}
    (hlen : bytes.length = 520) (hij : i ≠ j) (hi : 8 ≤ i) (hi' : i < 8 * 520) (hj : 8 ≤ j)
    (hj' : j < 8 * 520) :
    dataMark.check? (flipBit (flipBit bytes i) j) ≠ dataMark.check? bytes := by
  intro heq
  have hsame : Ecc56.checksum (preamble :: flipBit (flipBit bytes i) j)
      = Ecc56.checksum (preamble :: bytes) := BitVec.toNat_inj.mp (Option.some.inj heq)
  rw [← flipBit_cons, ← flipBit_cons] at hsame
  have hcovered : 8 * (preamble :: bytes).length = 8 * 521 := by rw [List.length_cons, hlen]
  exact Ecc56.checksum_flipBit_ne (by omega) (by omega) (by omega) (by omega) (by omega) hsame

/-- **The sector check tells every double error.** No power of `x` below the
one of exponent 4152 is one modulo its polynomial, and so two flipped bits
change the check of a message, whatever the message is, unless they are so
far from each other. The bytes of a data mark behind the mark itself have no
more bits than that. So if any two of these are flipped, of the data or of
the stored check, a record that was intact is a record that is not. -/
theorem double_errors_detected :
    (∀ k, 0 < k → k < 4152 →
      (X ^ k : (ZMod 2)[X]) % (X ^ 56 + X ^ 52 + X ^ 50 + X ^ 43 + X ^ 41 + X ^ 34 + X ^ 30
        + X ^ 26 + X ^ 24 + X ^ 8 + 1) ≠ 1)
    ∧ (∀ bytes i j, i ≠ j → i < 8 * bytes.length → j < 8 * bytes.length →
      i < j + 4152 → j < i + 4152 →
      Ecc56.checksum (flipBit (flipBit bytes i) j) ≠ Ecc56.checksum bytes)
    ∧ ∀ bytes r, Record.classify? bytes = some r → r.kind = .dataMark →
      r.isIntact = some true →
      520 ≤ bytes.length
      ∧ ∀ i j, i ≠ j → 8 ≤ i → i < 8 * 520 → 8 ≤ j → j < 8 * 520 →
        ∃ r', Record.classify? (flipBit (flipBit bytes i) j) = some r'
          ∧ r'.isIntact = some false := by
  refine ⟨fun k hpos hlt => Ecc56.poly_divisor ▸ Ecc56.separates.X_pow_mod_ne_one hpos hlt,
    fun _ _ _ hij hi hj hi' hj' => Ecc56.checksum_flipBit_ne hij hi hj hi' hj', ?_⟩
  intro bytes r hr hkind hintact
  obtain ⟨hfull, hbytes, hzero⟩ := Record.covered_of_isIntact hr hintact
  rw [hkind] at hfull hbytes hzero
  obtain ⟨mark, rest, hpayload⟩ := List.exists_cons_of_length_eq_add_one (n := 519) hfull
  rw [hpayload] at hfull hbytes hzero
  obtain ⟨_, _, hfirst, hmark, -⟩ := Record.parts_of_classify? hr
  rw [hbytes] at hfirst
  obtain ⟨rfl, -⟩ := List.cons.inj hfirst
  refine ⟨?_, fun i j hij hi hi' hj hj' => ?_⟩
  · rw [hbytes, List.length_append, hfull]
    exact Nat.le_add_right ..
  · have hstruck := RecordKind.check?_dataMark_flipBit_ne hfull hij hi hi' hj hj'
    rw [hzero] at hstruck
    rw [hbytes, flipBit_append (by rwa [hfull]), flipBit_append (by rwa [length_flipBit, hfull])]
    obtain ⟨i, rfl⟩ := Nat.exists_eq_add_of_le' hi
    obtain ⟨j, rfl⟩ := Nat.exists_eq_add_of_le' hj
    rw [flipBit_cons, flipBit_cons] at hstruck ⊢
    exact Record.exists_not_isIntact (hmark.symm.trans hkind) (by decide)
      (by simpa [length_flipBit] using hfull) hstruck _

/-- A sector of one byte over and over, with the first bit of its data and the
last one of its check flipped, and with two bits next to each other; and two
flipped bits in a message of two bytes. -/
theorem double_errors_detected_across_sector :
    let body : List UInt8 := 0xf8 :: List.replicate 512 0x6c
    let track := body ++ checkBytes body ++ [0x55]
    (X ^ 4151 : (ZMod 2)[X]) % (X ^ 56 + X ^ 52 + X ^ 50 + X ^ 43 + X ^ 41 + X ^ 34 + X ^ 30
        + X ^ 26 + X ^ 24 + X ^ 8 + 1) ≠ 1
      ∧ (∃ r, Record.classify? track = some r ∧ r.kind = .dataMark ∧ r.isIntact = some true)
      ∧ (∃ r', Record.classify? (flipBit (flipBit track 8) 4159) = some r'
        ∧ r'.isIntact = some false)
      ∧ (∃ r', Record.classify? (flipBit (flipBit track 4104) 4103) = some r'
        ∧ r'.isIntact = some false)
      ∧ flipBit (flipBit [0, 0] 0) 15 = [0x80, 0x01]
      ∧ Ecc56.checksum [0x80, 0x01] ≠ Ecc56.checksum [0, 0] := by
  intro body track
  obtain ⟨r, hr, hkind, hverdict⟩ : ∃ r, Record.classify? track = some r ∧ r.kind = .dataMark
      ∧ r.isIntact = some true :=
    Record.exists_isIntact (by decide) (by decide) (congrArg (· + 1) List.length_replicate) [0x55]
  have hflip : flipBit (flipBit [0, 0] 0) 15 = [0x80, 0x01] := by decide
  obtain ⟨hpower, hcheck, hrecord⟩ := double_errors_detected
  obtain ⟨-, hstruck⟩ := hrecord track r hr hkind hverdict
  refine ⟨hpower 4151 (by decide) (by decide), ⟨r, hr, hkind, hverdict⟩, ?_, ?_, hflip, ?_⟩
  · exact hstruck 8 4159 (by decide) (by decide) (by decide) (by decide) (by decide)
  · exact hstruck 4104 4103 (by decide) (by decide) (by decide) (by decide) (by decide)
  · rw [← hflip]
    exact hcheck [0, 0] 0 15 (by decide) (by decide) (by decide) (by decide) (by decide)

end FluxMarks
