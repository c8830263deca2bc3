import Mathlib.Tactic.Ring
import FluxMarks.Layout

/-!
# Bytes, bits and numbers

Bytes are laid out in two ways: a number is put down as its low bytes, most
significant first, and a record as a leading bit and the bits of its bytes.
Both lose nothing. Every string of bytes is the low bytes of some number
(`exists_bigEndian_eq`), and only the bits that fit into so many bytes
matter to them (`bigEndian_congr`); and the bytes of a record are taken up
again from its bits, whatever short tail follows them
(`assemble_recordBits_append`). Going the other way, the bits of a record
that was taken up are the bits it was taken from, short of an incomplete
last byte (`recordBits_assemble_append`).
-/

namespace FluxMarks

/-! ## Numbers as bytes -/

theorem length_bigEndian (n count : Nat) : (bigEndian n count).length = count := by
  induction count with
  | zero => rfl
  | succ count ih => rw [bigEndian, List.length_cons, ih]

theorem bigEndian_congr {m n count : Nat}
    (h : ∀ i < 8 * count, m.testBit i = n.testBit i) :
    bigEndian m count = bigEndian n count := by
  induction count with
  | zero => rfl
  | succ count ih =>
      rw [bigEndian, bigEndian, ih fun i hi => h i (by omega)]
      congr 1
      refine UInt8.toBitVec_inj.mp (BitVec.eq_of_getLsbD_eq fun i hi => ?_)
      simp only [UInt8.toBitVec_ofNat', BitVec.getLsbD_ofNat, Nat.testBit_shiftRight,
        h (8 * count + i) (by omega)]

/-- Every string of bytes is a number put down, and of one that needs no
more room. -/
theorem exists_bigEndian_eq (bytes : List UInt8) :
    ∃ n, bigEndian n bytes.length = bytes
      ∧ ∀ i, 8 * bytes.length ≤ i → n.testBit i = false := by
  induction bytes with
  | nil => exact ⟨0, rfl, fun i _ => Nat.zero_testBit i⟩
  | cons byte bytes ih =>
      obtain ⟨low, hlow, hclear⟩ := ih
      have hhigh : ∀ i, 8 ≤ i → byte.toNat.testBit i = false := fun i hi =>
        BitVec.getLsbD_of_ge byte.toBitVec i hi
      refine ⟨byte.toNat <<< (8 * bytes.length) ||| low, ?_, ?_⟩
      · rw [List.length_cons, bigEndian]
        congr 1
        · have htop : (byte.toNat <<< (8 * bytes.length) ||| low) >>> (8 * bytes.length)
              = byte.toNat := by
            refine Nat.eq_of_testBit_eq fun i => ?_
            simp [Nat.testBit_shiftRight, Nat.testBit_or, Nat.testBit_shiftLeft,
              hclear (8 * bytes.length + i) (by omega)]
          rw [htop, UInt8.ofNat_toNat]
        · refine (bigEndian_congr fun i hi => ?_).trans hlow
          simp [Nat.testBit_or, Nat.testBit_shiftLeft, Nat.not_le.mpr hi]
      · intro i hi
        rw [List.length_cons] at hi
        simp [Nat.testBit_or, Nat.testBit_shiftLeft, hhigh (i - 8 * bytes.length) (by omega),
          hclear i (by omega)]

/-- The number that some bytes spell, most significant first. -/
def numberOfBytes (bytes : List UInt8) : Nat :=
  bytes.foldl (fun number byte => 256 * number + byte.toNat) 0

/-- Bytes read after others: what was read before moves up. -/
theorem foldl_bigEndian (n count high : Nat) :
    (bigEndian n count).foldl (fun number byte => 256 * number + byte.toNat) high
      = 256 ^ count * high + n % 256 ^ count := by
  induction count generalizing high with
  | zero => simp [bigEndian, Nat.mod_one]
  | succ count ih =>
      have hbyte : (UInt8.ofNat (n >>> (8 * count))).toNat = n / 256 ^ count % 256 := by
        rw [UInt8.toNat_ofNat', Nat.shiftRight_eq_div_pow, Nat.pow_mul]
      rw [bigEndian, List.foldl_cons, ih, hbyte, Nat.mod_pow_succ, Nat.pow_succ]
      ring

theorem numberOfBytes_bigEndian {n count : Nat} (h : n < 256 ^ count) :
    numberOfBytes (bigEndian n count) = n := by
  rw [numberOfBytes, foldl_bigEndian, Nat.mul_zero, Nat.zero_add, Nat.mod_eq_of_lt h]

/-! ## Records as bits -/

theorem byteGroups_flatMap_byteBits_append (bytes : List UInt8) (tail : List Bool) :
    byteGroups (bytes.flatMap byteBits ++ tail) = bytes ++ byteGroups tail := by
  induction bytes with
  | nil => rfl
  | cons byte bytes ih =>
      rw [List.flatMap_cons, List.append_assoc, byteGroups_byteBits_append, ih,
        List.cons_append]

theorem byteGroups_of_short {bits : List Bool} (h : bits.length < 8) :
    byteGroups bits = [] := by
  unfold byteGroups
  split
  · simp only [List.length_cons] at h
    omega
  · rfl

theorem length_byteGroups : (bits : List Bool) → (byteGroups bits).length = bits.length / 8
  | [] | [_] | [_, _] | [_, _, _] | [_, _, _, _] | [_, _, _, _, _] | [_, _, _, _, _, _]
  | [_, _, _, _, _, _, _] => by simp [byteGroups]
  | _ :: _ :: _ :: _ :: _ :: _ :: _ :: _ :: rest => by
      simp only [byteGroups, List.length_cons, length_byteGroups rest]
      omega

/-- As many bytes come of some bits as the bits are good for. -/
theorem length_assemble (bits : List Bool) :
    (assemble bits).length = assembledLength bits.length := by
  rw [assemble, length_byteGroups, List.length_drop, assembledLength]

/-- A record is taken up from its bits, and a tail of less than a byte is
left out. -/
theorem assemble_recordBits_append (syncBit : Bool) (bytes : List UInt8)
    {tail : List Bool} (h : tail.length < 8) :
    assemble (recordBits syncBit bytes ++ tail) = bytes := by
  have hdrop : (recordBits syncBit bytes ++ tail).drop 1
      = bytes.flatMap byteBits ++ tail := rfl
  rw [assemble, hdrop, byteGroups_flatMap_byteBits_append, byteGroups_of_short h,
    List.append_nil]

theorem length_recordBits (syncBit : Bool) (bytes : List UInt8) :
    (recordBits syncBit bytes).length = 1 + 8 * bytes.length := by
  induction bytes with
  | nil => rfl
  | cons byte bytes ih =>
      simp only [recordBits, List.flatMap_cons, List.length_cons, List.length_append,
        byteBits, length_lowBits] at ih ⊢
      omega

/-! ## Bits as records -/

theorem byteBits_byteOfBits : ∀ b7 b6 b5 b4 b3 b2 b1 b0 : Bool,
    byteBits (byteOfBits [b7, b6, b5, b4, b3, b2, b1, b0]) = [b7, b6, b5, b4, b3, b2, b1, b0] := by
  decide +kernel

/-- Spelling out bytes skips no bit before the group that is not full. -/
theorem flatMap_byteBits_byteGroups_append (bits : List Bool) :
    ∃ tail, tail.length < 8 ∧ (byteGroups bits).flatMap byteBits ++ tail = bits := by
  fun_induction byteGroups bits with
  | case1 b7 b6 b5 b4 b3 b2 b1 b0 rest ih =>
      obtain ⟨tail, hshort, htail⟩ := ih
      refine ⟨tail, hshort, ?_⟩
      rw [List.flatMap_cons, byteBits_byteOfBits, List.append_assoc, htail]
      rfl
  | case2 bits hshort =>
      have hnone : byteGroups bits = [] := by
        rw [byteGroups]
        exact hshort
      have hlen := length_byteGroups bits
      rw [hnone, List.length_nil] at hlen
      exact ⟨bits, by omega, rfl⟩

/-- Some bits are a record of what is taken up from them, with the first bit
for its leading one, and an incomplete last byte. -/
theorem recordBits_assemble_append (first : Bool) (rest : List Bool) :
    ∃ tail, tail.length < 8
      ∧ recordBits first (assemble (first :: rest)) ++ tail = first :: rest := by
  obtain ⟨tail, hshort, htail⟩ := flatMap_byteBits_byteGroups_append rest
  exact ⟨tail, hshort, congrArg (first :: ·) htail⟩

/-- **Laying out and taking up are inverse, up to an incomplete byte.** The
bytes of a record are taken up from its bits and any tail too short to be a
byte. And any bits are the record of the bytes taken up from them, under
their own first bit, and seven more at most; so nothing is lost but that
bit and a group that is not full, and the number of bytes depends on the
number of bits alone. -/
theorem record_layout_inverse :
    (∀ (syncBit : Bool) (bytes : List UInt8) (tail : List Bool), tail.length < 8 →
      assemble (recordBits syncBit bytes ++ tail) = bytes)
    ∧ (∀ (first : Bool) (rest : List Bool), ∃ tail, tail.length ≤ 7
      ∧ recordBits first (assemble (first :: rest)) ++ tail = first :: rest)
    ∧ ∀ bits : List Bool, (assemble bits).length = assembledLength bits.length := by
  refine ⟨fun syncBit bytes tail h => assemble_recordBits_append syncBit bytes h,
    fun first rest => ?_, length_assemble⟩
  obtain ⟨tail, hshort, htail⟩ := recordBits_assemble_append first rest
  exact ⟨tail, Nat.le_of_lt_succ hshort, htail⟩

/-- Two bytes under a leading zero, with the longest tail that is still left
out; and nine bits, the fewest that hold a byte, next to eight. -/
theorem record_layout_inverse_longest_tail :
    let tail := [true, false, true, true, false, true, true]
    let rest := [true, true, true, true, true, false, false]
    tail.length < 8
      ∧ assemble (recordBits false [0xfe, 0x01] ++ tail) = [0xfe, 0x01]
      ∧ (∃ left, left.length ≤ 7
        ∧ recordBits false (assemble (false :: rest ++ [false])) ++ left = false :: rest ++ [false])
      ∧ (assemble (false :: rest ++ [false])).length = 1
      ∧ (assemble (false :: rest)).length = 0 := by
  intro tail rest
  obtain ⟨htaken, hlaid, hlength⟩ := record_layout_inverse
  have hshort : tail.length < 8 := by decide
  exact ⟨hshort, htaken false [0xfe, 0x01] tail hshort, hlaid false (rest ++ [false]),
    (hlength _).trans (by decide), (hlength _).trans (by decide)⟩

end FluxMarks
