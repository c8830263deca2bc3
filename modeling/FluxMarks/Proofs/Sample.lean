import Mathlib.Data.List.Forall2
import FluxMarks.Sample

/-!
# Samples with a margin

The sample written for a period lies at least five ticks clear of the
samples of its neighbours, so a capture may be off by as much at every
sample and still give the same periods (`map_quantize_of_jittered`).
-/

namespace FluxMarks

/-- What becomes of a sample that is off by at most five ticks, cut off at
the ends of the byte. -/
def Jittered (sample noisy : UInt8) : Prop :=
  ∃ offset : Int, -5 ≤ offset ∧ offset ≤ 5
    ∧ (noisy.toNat : Int) = max 0 (min 255 (sample.toNat + offset))

theorem Jittered.refl (sample : UInt8) : Jittered sample sample := by
  have := sample.toNat_lt
  exact ⟨0, by omega, by omega, by omega⟩

theorem exists_sampleOf {period : Nat} (h : period ≤ longestPeriod) :
    ∃ sample, sampleOf period = .ok sample :=
  ⟨_, if_neg (Nat.not_lt.mpr h)⟩

theorem quantize_of_jittered {period : Nat} {sample noisy : UInt8}
    (hsample : sampleOf period = .ok sample) (h : Jittered sample noisy) :
    quantize noisy = period := by
  obtain ⟨offset, hlow, hhigh, hnoisy⟩ := h
  unfold sampleOf at hsample
  split at hsample
  · cases hsample
  · next hperiod =>
      obtain rfl := Except.ok.inj hsample
      simp only [longestPeriod] at hperiod
      have hfits : Calibration.cell * period / 1000 < 256 := by
        simp only [Calibration.cell]
        omega
      simp only [UInt8.toNat_ofNat', Nat.mod_eq_of_lt hfits] at hnoisy
      simp only [quantize, Calibration.offset, Calibration.cell] at hnoisy ⊢
      omega

/-- A capture whose samples are all a little off has the periods it was
made from. -/
theorem map_quantize_of_jittered {periods : List Nat} {capture noisy : List UInt8}
    (hcapture : List.Forall₂ (fun period sample => sampleOf period = .ok sample)
      periods capture)
    (h : List.Forall₂ Jittered capture noisy) : noisy.map quantize = periods := by
  induction hcapture generalizing noisy with
  | nil =>
      obtain rfl := List.forall₂_nil_left_iff.mp h
      rfl
  | cons hsample _ ih =>
      obtain ⟨first, rest, hfirst, hrest, rfl⟩ := List.forall₂_cons_left_iff.mp h
      rw [List.map_cons, quantize_of_jittered hsample hfirst, ih hrest]

end FluxMarks
