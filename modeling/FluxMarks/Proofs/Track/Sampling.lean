import FluxMarks.Proofs.Track

/-!
# Which tracks can be sampled

Laying out never fails, and the periods that it gives a sync or a record are
short. So the first period of a track that no sample can express, if there
is one, is the first such raw period (`Track.firstTooLong?_laidOut`), and
there sampling stops (`mapM_sampleOf_of_tooLong`). Otherwise every period has its
sample, and quantizing takes each sample back to its period
(`exists_mapM_sampleOf`).
-/

namespace FluxMarks

/-- The periods of a segment that were asked for as they are. -/
def Segment.rawPeriods : Segment → List Nat
  | .periods ps => ps
  | .sync | .record .. => []

/-- The raw periods of a track, in capture order. -/
def Track.rawPeriods (t : Track) : List Nat :=
  t.segments.flatMap Segment.rawPeriods

/-- The first of some periods that no sample can express. -/
def firstTooLong? (periods : List Nat) : Option Nat :=
  periods.find? (longestPeriod < ·)

theorem firstTooLong?_eq_none_iff {periods : List Nat} :
    firstTooLong? periods = none ↔ ∀ p ∈ periods, p ≤ longestPeriod := by
  simp [firstTooLong?]

/-- What a record is laid out as has no period longer than eight, so only raw
periods count. -/
theorem Segment.firstTooLong?_laidOut (syncBit : Bool) (segment : Segment) :
    firstTooLong? (segment.laidOut syncBit) = firstTooLong? segment.rawPeriods := by
  cases segment with
  | periods ps => rfl
  | sync => rfl
  | record bytes withCheck =>
      have hplain : (Segment.record bytes withCheck).IsPlain := Or.inr ⟨bytes, withCheck, rfl⟩
      exact firstTooLong?_eq_none_iff.mpr (hplain.laidOut_le_longest syncBit)

theorem Track.firstTooLong?_laidOut (t : Track) :
    firstTooLong? (t.segments.flatMap (Segment.laidOut t.syncBit))
      = firstTooLong? t.rawPeriods := by
  have hsegment := Segment.firstTooLong?_laidOut t.syncBit
  simp only [firstTooLong?] at hsegment
  rw [rawPeriods, firstTooLong?, firstTooLong?, List.find?_flatMap, List.find?_flatMap]
  simp only [hsegment]

/-! ## Sampling -/

/-- Sampling stops at the first period that is too long, and names it. -/
theorem mapM_sampleOf_of_tooLong {periods : List Nat} {p : Nat}
    (h : firstTooLong? periods = some p) :
    periods.mapM sampleOf = .error (.periodOutOfRange p longestPeriod) := by
  induction periods with
  | nil => cases h
  | cons first rest ih =>
      rw [firstTooLong?, List.find?_cons] at h
      rw [List.mapM_cons]
      rcases Nat.lt_or_ge longestPeriod first with hlong | hshort
      · rw [decide_eq_true hlong] at h
        obtain rfl := Option.some.inj h
        rw [sampleOf, if_pos hlong]
        rfl
      · rw [decide_eq_false (Nat.not_lt.mpr hshort)] at h
        obtain ⟨sample, hsample⟩ := exists_sampleOf hshort
        rw [hsample, ih h]
        rfl

theorem exists_mapM_sampleOf {periods : List Nat} (h : firstTooLong? periods = none) :
    ∃ capture, periods.mapM sampleOf = .ok capture ∧ capture.map quantize = periods := by
  obtain ⟨capture, hcapture, hall⟩ :=
    exists_mapM_ok fun p hp => exists_sampleOf (firstTooLong?_eq_none_iff.mp h p hp)
  exact ⟨capture, hcapture,
    map_quantize_of_jittered hall (List.forall₂_same.mpr fun sample _ => .refl sample)⟩

theorem Track.samples_of_tooLong {t : Track} {p : Nat} (h : firstTooLong? t.rawPeriods = some p) :
    t.samples = .error (.periodOutOfRange p longestPeriod) := by
  rw [samples, layOut_eq]
  exact mapM_sampleOf_of_tooLong (t.firstTooLong?_laidOut.trans h)

theorem Track.exists_samples {t : Track} (h : firstTooLong? t.rawPeriods = none) :
    ∃ capture, t.samples = .ok capture
      ∧ capture.map quantize = t.segments.flatMap (Segment.laidOut t.syncBit) := by
  rw [samples, layOut_eq]
  exact exists_mapM_sampleOf (t.firstTooLong?_laidOut.trans h)

/-- A capture comes only of a track with no period that is too long. -/
theorem Track.firstTooLong?_of_samples {t : Track} {capture : List UInt8}
    (h : t.samples = .ok capture) : firstTooLong? t.rawPeriods = none := by
  cases hfirst : firstTooLong? t.rawPeriods with
  | none => rfl
  | some p => cases h.symm.trans (samples_of_tooLong hfirst)

/-- **Sampling fails over raw periods only, and is exact otherwise.** Every
track can be laid out. It has a capture if and only if each of its raw
periods is one that a sample can express; otherwise the error names the
first in capture order that is not. A capture has one sample for each
period, and quantizing it gives exactly the periods, so it decodes to the
events of the frames that these are cut into, one frame after another. -/
theorem samples_exact (t : Track) :
    ∃ periods, t.layOut = .ok periods
      ∧ ((∃ capture, t.samples = .ok capture) ↔ ∀ p ∈ t.rawPeriods, p ≤ 19)
      ∧ (∀ p, t.rawPeriods.find? (19 < ·) = some p →
        t.samples = .error (.periodOutOfRange p 19))
      ∧ ∀ capture, t.samples = .ok capture →
        capture.length = periods.length ∧ capture.map quantize = periods
        ∧ decodeCapture capture = (splitFrames periods).flatMap Frame.events := by
  refine ⟨_, t.layOut_eq, ⟨?_, ?_⟩, fun p hfirst => Track.samples_of_tooLong hfirst, ?_⟩
  · rintro ⟨capture, hcapture⟩
    exact firstTooLong?_eq_none_iff.mp (Track.firstTooLong?_of_samples hcapture)
  · intro hshort
    obtain ⟨capture, hcapture, -⟩ := Track.exists_samples (firstTooLong?_eq_none_iff.mpr hshort)
    exact ⟨capture, hcapture⟩
  · intro capture hcapture
    obtain ⟨other, hother, hquantize⟩ :=
      Track.exists_samples (Track.firstTooLong?_of_samples hcapture)
    obtain rfl := Except.ok.inj (hcapture.symm.trans hother)
    refine ⟨?_, hquantize, ?_⟩
    · rw [← hquantize, List.length_map]
    · rw [decodeCapture, captureFrames, hquantize]

/-- The longest period that a sample can express, a record without a byte, and
a zero; and the same with two more periods, both of them too long. -/
theorem samples_exact_first_too_long :
    let segments : List Segment := [.periods [19], .record [] false, .sync, .periods [0, 4]]
    let short : Track := { segments, syncBit := false }
    let long : Track := { segments := segments ++ [.periods [20], .sync, .periods [21]] }
    short.layOut = .ok [19, 3, 3, 3, 8, 3, 0, 4]
      ∧ (∃ capture, short.samples = .ok capture
        ∧ capture.map quantize = [19, 3, 3, 3, 8, 3, 0, 4])
      ∧ long.rawPeriods.find? (19 < ·) = some 20
      ∧ long.samples = .error (.periodOutOfRange 20 19) := by
  intro segments short long
  have hlaid : short.layOut = .ok [19, 3, 3, 3, 8, 3, 0, 4] := by decide +kernel
  have hfirst : long.rawPeriods.find? (19 < ·) = some 20 := by decide
  obtain ⟨periods, hperiods, hcapture, -, hexact⟩ := samples_exact short
  obtain rfl := Except.ok.inj (hlaid.symm.trans hperiods)
  obtain ⟨capture, hsamples⟩ := hcapture.mpr (by decide)
  obtain ⟨-, -, -, herror, -⟩ := samples_exact long
  exact ⟨hlaid, ⟨capture, hsamples, (hexact capture hsamples).2.1⟩, hfirst, herror 20 hfirst⟩

end FluxMarks
