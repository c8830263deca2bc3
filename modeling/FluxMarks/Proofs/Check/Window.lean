import FluxMarks.Proofs.Check.Engines
import FluxMarks.Record

/-!
# The window of the sector check

The register of the sector check has eight bits to spare and nothing masks
them. A term that passes the edge of the window is taken back at once, since
the polynomial keeps its leading term; what a register held above the window
is only moved up, by a place in each step (`Ecc56.shifts_eq`), and the eight
steps of a byte push it out at the top. So between bytes nothing is above
the window, and what was there before makes no difference once a byte is
taken in (`Ecc56.update_cons_eq`). That is why seven bytes are enough to
store a check.
-/

namespace FluxMarks

namespace Ecc56

theorem toNat_setWidth_lt (low : BitVec 56) : (low.setWidth 64).toNat < 2 ^ 56 := by
  rw [BitVec.toNat_setWidth_of_le (by decide)]
  exact low.isLt

theorem update_lt {r : Register} (h : r.toNat < 2 ^ 56) (bytes : List UInt8) :
    (update r bytes).toNat < 2 ^ 56 := by
  rw [update_eq_of_lt h]
  exact toNat_setWidth_lt _

theorem checksum_lt (bytes : List UInt8) : (checksum bytes).toNat < 2 ^ 56 :=
  update_lt (by decide) bytes

theorem setWidth_ofNat_mod (r : Register) :
    (BitVec.ofNat 64 (r.toNat % 2 ^ 56)).setWidth 56 = r.setWidth 56 := by
  refine BitVec.eq_of_toNat_eq ?_
  simp only [BitVec.toNat_setWidth, BitVec.toNat_ofNat]
  omega

end Ecc56

theorem checkBytes_dataMark (rest : List UInt8) :
    checkBytes (dataMarkByte :: rest)
      = bigEndian (Ecc56.checksum (preamble :: dataMarkByte :: rest)).toNat 7 :=
  rfl

/-- **The register of the sector check keeps to its window.** After a byte it
is within it, whatever it was before, and it is what it would be if only the
window had been there before. A register that is within the window stays
there over any message. So of the eight bytes of a check the first is zero,
and the seven that are written spell all of it. -/
theorem sector_check_keeps_to_window :
    (∀ (r : Ecc56.Register) (bytes : List UInt8), bytes ≠ [] →
      (Ecc56.update r bytes).toNat < 2 ^ 56
      ∧ Ecc56.update r bytes = Ecc56.update (BitVec.ofNat 64 (r.toNat % 2 ^ 56)) bytes)
    ∧ (∀ (r : Ecc56.Register) (bytes : List UInt8), r.toNat < 2 ^ 56 →
      (Ecc56.update r bytes).toNat < 2 ^ 56)
    ∧ ∀ rest : List UInt8,
      let check := (Ecc56.checksum (preamble :: dataMarkByte :: rest)).toNat
      bigEndian check 8 = 0 :: checkBytes (dataMarkByte :: rest)
      ∧ numberOfBytes (checkBytes (dataMarkByte :: rest)) = check := by
  refine ⟨?_, fun r bytes h => Ecc56.update_lt h bytes, ?_⟩
  · intro r bytes hne
    obtain ⟨byte, rest, rfl⟩ := List.exists_cons_of_ne_nil hne
    constructor
    · rw [Ecc56.update_cons_eq]
      exact Ecc56.toNat_setWidth_lt _
    · rw [Ecc56.update_cons_eq, Ecc56.update_cons_eq, Ecc56.setWidth_ofNat_mod]
  · intro rest check
    have hlt : check < 2 ^ 56 := Ecc56.checksum_lt _
    have htop : check >>> (8 * 7) = 0 := by
      rw [Nat.shiftRight_eq_div_pow]
      exact Nat.div_eq_of_lt hlt
    constructor
    · rw [checkBytes_dataMark, bigEndian, htop]
      rfl
    · rw [checkBytes_dataMark]
      exact numberOfBytes_bigEndian hlt

/-- A register with bits above the window, before and after a byte, and next
to one without them; and the check bytes of a short data mark. -/
theorem sector_check_keeps_to_window_above :
    let above : Ecc56.Register := 0xa500000000000001
    let within : Ecc56.Register := 1
    ([0x80] : List UInt8) ≠ [] ∧ within.toNat < 2 ^ 56
      ∧ ¬(Ecc56.update above []).toNat < 2 ^ 56
      ∧ (Ecc56.update above [0x80]).toNat < 2 ^ 56
      ∧ Ecc56.update above [0x80] = Ecc56.update within [0x80]
      ∧ (Ecc56.update within []).toNat < 2 ^ 56
      ∧ numberOfBytes (checkBytes [0xf8, 0x12])
        = (Ecc56.checksum [0xa1, 0xf8, 0x12]).toNat := by
  intro above within
  obtain ⟨hany, hwithin, hcheck⟩ := sector_check_keeps_to_window
  have hne : ([0x80] : List UInt8) ≠ [] := by decide
  have hlt : within.toNat < 2 ^ 56 := by decide
  have hwindow : BitVec.ofNat 64 (above.toNat % 2 ^ 56) = within := by decide
  obtain ⟨habove, hsame⟩ := hany above [0x80] hne
  rw [hwindow] at hsame
  exact ⟨hne, hlt, by decide, habove, hsame, hwithin within [] hlt, (hcheck [0x12]).2⟩

end FluxMarks
