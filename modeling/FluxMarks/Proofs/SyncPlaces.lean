import FluxMarks.Proofs.Track

/-!
# Where sync patterns stand on a track

An encoded record holds no sync pattern, and none comes about where it
meets its neighbours either: a pattern across a seam would start with the
last period of a segment, and that is never eight (`syncAt_append_iff`). So
the sync patterns of a track without raw periods are those that its sync
segments put there, one each, in whatever order syncs and records stand
(`layOut_spaced`).
-/

namespace FluxMarks

/-! ## Places of sync patterns -/

/-- A sync pattern starts at the given period. -/
def SyncAt (periods : List Nat) (i : Nat) : Prop := syncPattern <+: periods.drop i

theorem syncAt_iff {periods : List Nat} {i : Nat} :
    SyncAt periods i ↔ periods[i]? = some 8 ∧ periods[i + 1]? = some 3 := by
  have hfirst : periods[i]? = (periods.drop i)[0]? := by simp
  have hsecond : periods[i + 1]? = (periods.drop i)[1]? := by simp
  rw [SyncAt, hfirst, hsecond]
  rcases periods.drop i with _ | ⟨p, _ | ⟨q, rest⟩⟩
  · simp [syncPattern]
  · simp [syncPattern, List.cons_prefix_cons]
  · simp only [syncPattern, List.cons_prefix_cons, List.nil_prefix, List.getElem?_cons_zero,
      List.getElem?_cons_succ, Option.some.injEq, and_true]
    exact and_congr eq_comm eq_comm

theorem SyncFree.not_syncAt {periods : List Nat} (h : SyncFree periods) (i : Nat) :
    ¬SyncAt periods i :=
  fun hsync => h (hsync.isInfix.trans (List.drop_suffix i periods).isInfix)

/-- No sync pattern reaches over a seam unless the last period before it
is an eight. -/
theorem syncAt_append_iff {xs : List Nat} (hlast : xs.getLast? ≠ some 8) (ys : List Nat)
    (i : Nat) :
    SyncAt (xs ++ ys) i ↔ SyncAt xs i ∨ ∃ j, i = xs.length + j ∧ SyncAt ys j := by
  rw [List.getLast?_eq_getElem?] at hlast
  rcases Nat.lt_or_ge i xs.length with hlt | hge
  · have hright : ¬∃ j, i = xs.length + j ∧ SyncAt ys j := by
      rintro ⟨j, rfl, -⟩
      omega
    rw [or_iff_left hright, syncAt_iff, syncAt_iff, List.getElem?_append_left hlt]
    rcases Nat.lt_or_ge (i + 1) xs.length with hlt' | hge'
    · rw [List.getElem?_append_left hlt']
    · -- the pattern would start at the last period of `xs`
      obtain rfl : i = xs.length - 1 := by omega
      exact iff_of_false (fun h => hlast h.1) (fun h => hlast h.1)
  · obtain ⟨j, rfl⟩ := Nat.exists_eq_add_of_le hge
    have hleft : ¬SyncAt xs (xs.length + j) := by
      rw [syncAt_iff, List.getElem?_eq_none (by omega)]
      exact fun h => nomatch h.1
    rw [or_iff_right hleft]
    simp [SyncAt, List.drop_append, List.drop_eq_nil_of_le]

/-! ## Segments -/

theorem Segment.IsPlain.getLast?_laidOut {syncBit : Bool} {segment : Segment}
    (h : segment.IsPlain) :
    (segment.laidOut syncBit).getLast? ≠ some 8 := by
  rcases h with rfl | ⟨bytes, withCheck, rfl⟩
  · simp [laidOut, syncPattern]
  · obtain ⟨p, hp, hvalue⟩ := (spaced_frameCells
      (recordBits syncBit (recordBytes bytes withCheck))).last
    intro hlast
    have : p = 8 := Option.some.inj (hp.symm.trans hlast)
    omega

/-- A sync segment holds one sync pattern, at its start, and a record holds
none. -/
theorem Segment.IsPlain.syncAt_laidOut_iff {syncBit : Bool} {segment : Segment}
    (h : segment.IsPlain) (i : Nat) :
    SyncAt (segment.laidOut syncBit) i ↔ segment = .sync ∧ i = 0 := by
  rcases h with rfl | ⟨bytes, withCheck, rfl⟩
  · rw [syncAt_iff]
    rcases i with _ | _ | i <;> simp [laidOut, syncPattern]
  · have hfree := (spaced_frameCells
      (recordBits syncBit (recordBytes bytes withCheck))).syncFree
    exact iff_of_false (hfree.not_syncAt i) (by simp)

theorem syncAt_flatMap_laidOut_iff {syncBit : Bool} {segments : List Segment}
    (hplain : ∀ segment ∈ segments, segment.IsPlain) (i : Nat) :
    SyncAt (segments.flatMap (Segment.laidOut syncBit)) i
      ↔ ∃ before after, segments = before ++ .sync :: after
        ∧ i = (before.flatMap (Segment.laidOut syncBit)).length := by
  induction segments generalizing i with
  | nil => simp [SyncAt, syncPattern]
  | cons segment segments ih =>
      have hsegment := hplain segment (List.mem_cons_self ..)
      have hrest := ih fun s hs => hplain s (List.mem_cons_of_mem _ hs)
      rw [List.flatMap_cons, syncAt_append_iff hsegment.getLast?_laidOut,
        hsegment.syncAt_laidOut_iff]
      constructor
      · rintro (⟨rfl, rfl⟩ | ⟨j, rfl, hj⟩)
        · exact ⟨[], segments, rfl, rfl⟩
        · obtain ⟨before, after, rfl, rfl⟩ := (hrest j).mp hj
          exact ⟨segment :: before, after, rfl, by simp⟩
      · rintro ⟨before, after, heq, rfl⟩
        cases before with
        | nil =>
            obtain ⟨rfl, rfl⟩ := List.cons.inj heq
            exact Or.inl ⟨rfl, rfl⟩
        | cons first before =>
            obtain ⟨rfl, rfl⟩ := List.cons.inj heq
            refine Or.inr ⟨_, ?_, (hrest _).mpr ⟨before, after, rfl, rfl⟩⟩
            rw [List.flatMap_cons, List.length_append]

/-- The place where a sync segment puts its sync pattern: behind all that
the segments before it are laid out as. -/
def Track.SyncSegmentAt (t : Track) (i : Nat) : Prop :=
  ∃ before after periods, t.segments = before ++ .sync :: after
    ∧ ({ t with segments := before } : Track).layOut = .ok periods ∧ i = periods.length

/-- **Encoded records keep the spacing of the code, and no sync pattern
stands on a track but those of its syncs.** A record has a waveform, and
its periods are three to eight, seven at most to begin with and four at
most to end with; after an eight comes a four at least. So every track can
be laid out, and without raw periods the sync patterns of a track are at
the places of its sync segments, whichever way these and the records
follow each other. -/
theorem layOut_spaced :
    (∀ syncBit bytes, ∃ waveform, recordWaveform syncBit bytes = .ok waveform
      ∧ (∀ p ∈ waveform.periods, 3 ≤ p ∧ p ≤ 8)
      ∧ (∃ p ∈ waveform.periods.head?, 3 ≤ p ∧ p ≤ 7)
      ∧ (∃ p ∈ waveform.periods.getLast?, p = 3 ∨ p = 4)
      ∧ waveform.periods.IsChain fun p q => p = 8 → 4 ≤ q)
    ∧ ∀ t : Track, ∃ periods, t.layOut = .ok periods
      ∧ ((∀ segment ∈ t.segments, segment.IsPlain) →
        ∀ i, SyncAt periods i ↔ t.SyncSegmentAt i) := by
  refine ⟨fun syncBit bytes => ?_, fun t => ⟨_, t.layOut_eq, fun hplain i => ?_⟩⟩
  · have hspaced := spaced_frameCells (recordBits syncBit bytes)
    exact ⟨_, recordWaveform_eq syncBit bytes, hspaced.range, hspaced.first, hspaced.last,
      hspaced.apart⟩
  · rw [syncAt_flatMap_laidOut_iff hplain]
    constructor
    · rintro ⟨before, after, hsegments, hi⟩
      exact ⟨before, after, _, hsegments, Track.layOut_eq _, hi⟩
    · rintro ⟨before, after, periods, hsegments, hlayOut, hi⟩
      obtain rfl := Except.ok.inj ((Track.layOut_eq _).symm.trans hlayOut)
      exact ⟨before, after, hsegments, hi⟩

/-- Two records side by side, one of them with no byte at all, then two
syncs in a row, a record with a period of eight, and a sync at the end. -/
theorem layOut_spaced_side_by_side :
    let t : Track := { segments := [.record [] false, .record [0x47] false, .sync, .sync,
      .record [0x33] false, .sync], syncBit := false }
    (∀ segment ∈ t.segments, segment.IsPlain)
      ∧ t.layOut = .ok [3, 3, 3, 5, 3, 7, 5, 3, 8, 3, 8, 3, 3, 3, 3, 8, 4, 8, 3]
      ∧ t.SyncSegmentAt 10 ∧ ¬t.SyncSegmentAt 15 := by
  intro t
  have hplain : ∀ segment ∈ t.segments, segment.IsPlain := by
    intro segment hsegment
    simp only [t, List.mem_cons, List.not_mem_nil, or_false] at hsegment
    rcases hsegment with rfl | rfl | rfl | rfl | rfl | rfl <;> simp [Segment.IsPlain]
  have hlaid : t.layOut = .ok [3, 3, 3, 5, 3, 7, 5, 3, 8, 3, 8, 3, 3, 3, 3, 8, 4, 8, 3] := by
    decide +kernel
  obtain ⟨periods, hlayOut, hsync⟩ := layOut_spaced.2 t
  obtain rfl := Except.ok.inj (hlaid.symm.trans hlayOut)
  have hplaces := hsync hplain
  exact ⟨hplain, hlaid, (hplaces 10).mp (by rw [syncAt_iff]; decide),
    fun h => absurd ((hplaces 15).mpr h) (by rw [syncAt_iff]; decide)⟩

end FluxMarks
