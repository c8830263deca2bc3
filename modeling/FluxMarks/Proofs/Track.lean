import FluxMarks.Event
import FluxMarks.Proofs.Code.Spacing
import FluxMarks.Proofs.Layout
import FluxMarks.Proofs.Sample
import FluxMarks.Proofs.Waveform
import FluxMarks.Track

/-!
# From a track to its capture and back

Laying out never fails before the periods become samples
(`Track.layOut_eq`): an encoded record closes with a transition and holds
no sync pattern. So the periods of a track of syncs and records are the
records, each for itself, joined by sync patterns, and that is how the
decoder cuts them apart again.

`decodeCapture_of_jittered` puts the stages together. What is between two
syncs of such a track is a *group*: nothing, or one record. `GroupEvents`
says what a group decodes to, and the theorem says that a capture decodes
to the events of its groups, in order, whatever the leading bit of the
records and however the samples are off.
-/

namespace FluxMarks

open CodeWord

/-! ## Laying out -/

/-- The waveform of a record with its leading bit. -/
def recordFrame (syncBit : Bool) (bytes : List UInt8) : Waveform :=
  ⟨frameCells (recordBits syncBit bytes)⟩

theorem recordWaveform_eq (syncBit : Bool) (bytes : List UInt8) :
    recordWaveform syncBit bytes = .ok (recordFrame syncBit bytes) := by
  rw [recordWaveform, Waveform.ofCells, recordFrame, if_pos (isClosed_frameCells _)]

/-- The periods that a segment is laid out as. -/
def Segment.laidOut (syncBit : Bool) : Segment → List Nat
  | .sync => syncPattern
  | .periods ps => ps
  | .record bytes withCheck => (recordFrame syncBit (recordBytes bytes withCheck)).periods

theorem Segment.layOut_eq (syncBit : Bool) (segment : Segment) :
    segment.layOut syncBit = .ok (segment.laidOut syncBit) := by
  cases segment with
  | sync => rfl
  | periods ps => rfl
  | record bytes withCheck =>
      have hspaced := spaced_frameCells (recordBits syncBit (recordBytes bytes withCheck))
      have hfind := findSync_eq_none hspaced.syncFree
      simp only [layOut, recordWaveform_eq, recordFrame, hfind, laidOut]

theorem Track.layOut_eq (t : Track) :
    t.layOut = .ok (t.segments.flatMap (Segment.laidOut t.syncBit)) := by
  have hpure : Segment.layOut t.syncBit = fun segment =>
      (pure (segment.laidOut t.syncBit) : Except CaptureError (List Nat)) :=
    funext (Segment.layOut_eq t.syncBit)
  rw [Track.layOut, hpure, List.mapM_pure, List.flatMap_def]
  rfl

/-! ## Sampling -/

theorem exists_mapM_ok {α β ε : Type} {f : α → Except ε β} {xs : List α}
    (h : ∀ x ∈ xs, ∃ y, f x = .ok y) :
    ∃ ys, xs.mapM f = .ok ys ∧ List.Forall₂ (fun x y => f x = .ok y) xs ys := by
  induction xs with
  | nil => exact ⟨[], rfl, .nil⟩
  | cons x xs ih =>
      obtain ⟨y, hy⟩ := h x (List.mem_cons_self ..)
      obtain ⟨ys, hys, hall⟩ := ih fun z hz => h z (List.mem_cons_of_mem _ hz)
      refine ⟨y :: ys, ?_, .cons hy hall⟩
      rw [List.mapM_cons, hy, hys]
      rfl

/-! ## Groups -/

/-- A sync or a record, and no raw periods. -/
def Segment.IsPlain (segment : Segment) : Prop :=
  segment = .sync ∨ ∃ bytes withCheck, segment = .record bytes withCheck

/-- A track of syncs and records with a sync between any two records. -/
structure Track.Separated (t : Track) : Prop where
  plain : ∀ segment ∈ t.segments, segment.IsPlain
  apart : t.segments.IsChain fun a b => a = .sync ∨ b = .sync

/-- The segments between two syncs. -/
def Track.groups (t : Track) : List (List Segment) :=
  t.segments.splitOn .sync

theorem length_splitOn {α : Type} [BEq α] (a : α) (xs : List α) :
    (xs.splitOn a).length = xs.count a + 1 := by
  induction xs with
  | nil => rfl
  | cons x xs ih =>
      rw [List.splitOn_cons_eq_if_modifyHead, List.count_cons]
      split
      · rw [List.length_cons, ih]
      · rw [List.length_modifyHead, ih, Nat.add_zero]

theorem flatMap_intercalate_singleton {α β : Type} (f : α → List β) (a : α)
    (xss : List (List α)) :
    ([a].intercalate xss).flatMap f = (f a).intercalate (xss.map (List.flatMap f)) := by
  induction xss with
  | nil => rfl
  | cons xs xss ih =>
      cases xss with
      | nil => simp
      | cons next xss =>
          rw [List.map_cons, List.map_cons, List.intercalate_cons_cons,
            List.intercalate_cons_cons, List.flatMap_append, List.flatMap_append, ih,
            List.flatMap_singleton, List.map_cons]

theorem mem_splitOn_sync {segments : List Segment}
    (hplain : ∀ segment ∈ segments, segment.IsPlain)
    (hapart : segments.IsChain fun a b => a = .sync ∨ b = .sync) :
    ∀ group ∈ segments.splitOn .sync,
      group = [] ∨ ∃ bytes withCheck, group = [.record bytes withCheck] := by
  match segments with
  | [] =>
      intro group hgroup
      exact Or.inl (List.mem_singleton.mp hgroup)
  | .sync :: rest =>
      intro group hgroup
      rw [← List.nil_append (Segment.sync :: rest),
        List.splitOn_append_cons_self_of_not_mem (List.not_mem_nil)] at hgroup
      rcases List.mem_cons.mp hgroup with rfl | hgroup
      · exact Or.inl rfl
      · exact mem_splitOn_sync (fun s hs => hplain s (List.mem_cons_of_mem _ hs))
          hapart.tail group hgroup
  | .periods ps :: rest =>
      rcases hplain _ (List.mem_cons_self ..) with h | ⟨_, _, h⟩ <;> cases h
  | [.record bytes withCheck] =>
      intro group hgroup
      rw [List.splitOn_eq_singleton (by simp)] at hgroup
      exact Or.inr ⟨bytes, withCheck, List.mem_singleton.mp hgroup⟩
  | .record bytes withCheck :: next :: rest =>
      intro group hgroup
      obtain rfl : next = .sync :=
        (List.isChain_cons_cons.mp hapart).1.resolve_left (by simp)
      rw [← List.singleton_append, List.splitOn_append_cons_self_of_not_mem (by simp)] at hgroup
      rcases List.mem_cons.mp hgroup with rfl | hgroup
      · exact Or.inr ⟨bytes, withCheck, rfl⟩
      · exact mem_splitOn_sync
          (fun s hs => hplain s (List.mem_cons_of_mem _ (List.mem_cons_of_mem _ hs)))
          hapart.tail.tail group hgroup

def groupPeriods (syncBit : Bool) (group : List Segment) : List Nat :=
  group.flatMap (Segment.laidOut syncBit)

/-- A track is laid out as its groups, joined by sync patterns. -/
theorem Track.flatMap_laidOut (t : Track) :
    t.segments.flatMap (Segment.laidOut t.syncBit)
      = joinFrames (t.groups.map (groupPeriods t.syncBit)) := by
  have hjoin := flatMap_intercalate_singleton (Segment.laidOut t.syncBit) .sync t.groups
  rwa [groups, List.intercalate_splitOn] at hjoin

/-! ## What a group decodes to -/

/-- The events of the record of some bytes: the record they make, if they
are any at all. -/
inductive RecordEvents : List UInt8 → List Event → Prop
  | none : RecordEvents [] []
  | one {bytes : List UInt8} {record : Record} (hne : bytes ≠ [])
      (h : Record.classify? bytes = some record) : RecordEvents bytes [.record record]

/-- The events of the group with the given number. A record is read with
the zeros that complete its last code word, two at most, and with nothing
left but the closing transition. -/
inductive GroupEvents (index : Nat) : List Segment → List Event → Prop
  | empty : GroupEvents index []
      [.frame { index, waveformLength := 1, bitsLength := 0, residue := 0 }]
  | record {bytes : List UInt8} {withCheck : Bool} {bitsLength zeros : Nat}
      {events : List Event} (hzeros : zeros ≤ 2)
      (hbits : bitsLength = 1 + 8 * (recordBytes bytes withCheck).length + zeros)
      (hevents : RecordEvents (recordBytes bytes withCheck) events) :
      GroupEvents index [.record bytes withCheck]
        (.frame { index, waveformLength := 2 * bitsLength + 3, bitsLength, residue := 1 }
          :: events)

/-- What of an event does not depend on how its frame was filled up: the
place of a frame, and a record whole. -/
def Event.outline : Event → Nat ⊕ Record
  | .frame d => .inl d.index
  | .record r => .inr r

theorem recordEvents_classify? (bytes : List UInt8) :
    RecordEvents bytes ((Record.classify? bytes).map Event.record).toList := by
  cases bytes with
  | nil => exact .none
  | cons mark rest => exact .one (List.cons_ne_nil _ _) rfl

theorem RecordEvents.unique {bytes : List UInt8} {xs ys : List Event}
    (hx : RecordEvents bytes xs) (hy : RecordEvents bytes ys) : xs = ys := by
  cases hx with
  | none =>
      cases hy with
      | none => rfl
      | one hne _ => exact absurd rfl hne
  | one hne h =>
      cases hy with
      | none => exact absurd rfl hne
      | one _ h' => rw [Option.some.inj (h.symm.trans h')]

theorem GroupEvents.outline_eq {index : Nat} {group : List Segment} {xs ys : List Event}
    (hx : GroupEvents index group xs) (hy : GroupEvents index group ys) :
    xs.map Event.outline = ys.map Event.outline := by
  cases hx with
  | empty =>
      cases hy
      rfl
  | record _ _ hxs =>
      cases hy with
      | record _ _ hys => rw [hxs.unique hys]; rfl

theorem events_of_empty (index : Nat) :
    Frame.events ⟨index, []⟩
      = [.frame { index, waveformLength := 1, bitsLength := 0, residue := 0 }] := by
  have hread : readAll table [] = ([], []) := by
    rw [readAll]
    rfl
  have hdecode : Frame.decoding ⟨index, []⟩ = { bits := [], stoppedAt := 1, residue := 0 } :=
    decode_of_readAll hread rfl
  rw [Frame.events, Frame.record?, Frame.diagnostic, hdecode]
  rfl

theorem groupEvents_frame (syncBit : Bool) (index : Nat) {group : List Segment}
    (h : group = [] ∨ ∃ bytes withCheck, group = [.record bytes withCheck]) :
    GroupEvents index group (Frame.events ⟨index, groupPeriods syncBit group⟩) := by
  rcases h with rfl | ⟨bytes, withCheck, rfl⟩
  · rw [groupPeriods, List.flatMap_nil, events_of_empty]
    exact .empty
  · obtain ⟨zeros, hzeros, hdecode, hlen, -⟩ :=
      decode_frameCells (recordBits syncBit (recordBytes bytes withCheck))
    have hwaveform :
        Frame.waveform ⟨index, groupPeriods syncBit [.record bytes withCheck]⟩
          = recordFrame syncBit (recordBytes bytes withCheck) := by
      rw [Frame.waveform, groupPeriods, List.flatMap_singleton]
      exact Waveform.ofPeriods_periods (isClosed_frameCells _)
    have htail : (List.replicate zeros false).length < 8 := by
      rw [List.length_replicate]
      omega
    rw [Frame.events, Frame.record?, Frame.diagnostic, Frame.decoding, hwaveform,
      recordFrame, hdecode, assemble_recordBits_append syncBit _ htail, Waveform.length]
    simp only [hlen, List.length_append, List.length_replicate, length_recordBits]
    exact .record hzeros rfl (recordEvents_classify? _)

/-! ## Captures -/

theorem syncFree_groupPeriods (syncBit : Bool) {group : List Segment}
    (h : group = [] ∨ ∃ bytes withCheck, group = [.record bytes withCheck]) :
    SyncFree (groupPeriods syncBit group) := by
  rcases h with rfl | ⟨bytes, withCheck, rfl⟩
  · exact syncFree_nil
  · rw [groupPeriods, List.flatMap_singleton]
    exact (spaced_frameCells _).syncFree

theorem Segment.IsPlain.laidOut_le_longest (syncBit : Bool) {segment : Segment}
    (h : segment.IsPlain) : ∀ p ∈ segment.laidOut syncBit, p ≤ longestPeriod := by
  intro p hp
  rcases h with rfl | ⟨bytes, withCheck, rfl⟩
  · revert p
    show ∀ p ∈ syncPattern, p ≤ longestPeriod
    decide
  · have hrange := (spaced_frameCells _).range p hp
    exact Nat.le_trans hrange.2 (by decide)

/-- A track of syncs and records has a capture, and the capture decodes to
the frames of its groups even if its samples are off. -/
theorem Track.Separated.decodeCapture_eq {t : Track} (ht : t.Separated) :
    ∃ capture, t.samples = .ok capture
      ∧ ∀ noisy, List.Forall₂ Jittered capture noisy →
        decodeCapture noisy = t.groups.zipIdx.flatMap fun numbered =>
          Frame.events ⟨numbered.2, groupPeriods t.syncBit numbered.1⟩ := by
  have hshort : ∀ p ∈ t.segments.flatMap (Segment.laidOut t.syncBit),
      ∃ sample, sampleOf p = .ok sample := by
    intro p hp
    obtain ⟨segment, hsegment, hp⟩ := List.mem_flatMap.mp hp
    exact exists_sampleOf ((ht.plain segment hsegment).laidOut_le_longest t.syncBit p hp)
  obtain ⟨capture, hcapture, hall⟩ := exists_mapM_ok hshort
  refine ⟨capture, ?_, fun noisy hnoisy => ?_⟩
  · rw [samples, layOut_eq]
    exact hcapture
  · have hperiods := map_quantize_of_jittered hall hnoisy
    have hfree : ∀ frame ∈ t.groups.map (groupPeriods t.syncBit), SyncFree frame := by
      intro frame hframe
      obtain ⟨group, hgroup, rfl⟩ := List.mem_map.mp hframe
      exact syncFree_groupPeriods _ (mem_splitOn_sync ht.plain ht.apart group hgroup)
    have hne : t.groups.map (groupPeriods t.syncBit) ≠ [] := by
      simp [groups]
    rw [decodeCapture, captureFrames, hperiods, t.flatMap_laidOut, splitFrames,
      splitFrom_joinFrames hne hfree, List.mapIdx_eq_zipIdx_map, List.zipIdx_map,
      List.map_map, List.flatMap_map]
    rfl

/-- **A track survives its capture.** A track of syncs and of records with
a sync between any two has a capture, and as long as no sample is off by
more than five ticks, it decodes to the events of the groups between the
syncs, in order and numbered from zero. Being off changes no event at all,
and the leading bit of the records changes at most how far a frame was
filled up. -/
theorem decodeCapture_of_jittered (t : Track) (ht : t.Separated) :
    ∃ capture, t.samples = .ok capture
      ∧ t.groups.length = t.segments.count .sync + 1
      ∧ ∀ noisy, List.Forall₂ Jittered capture noisy →
        (∃ blocks : List (List Event), decodeCapture noisy = blocks.flatten
          ∧ List.Forall₂ (fun numbered events => GroupEvents numbered.2 numbered.1 events)
            t.groups.zipIdx blocks)
        ∧ decodeCapture noisy = decodeCapture capture
        ∧ ∀ u : Track, u.segments = t.segments →
          ∃ other, u.samples = .ok other
            ∧ ∀ noise, List.Forall₂ Jittered other noise →
              (decodeCapture noise).map Event.outline
                = (decodeCapture noisy).map Event.outline := by
  obtain ⟨capture, hcapture, hdecode⟩ := ht.decodeCapture_eq
  have hgroup : ∀ numbered ∈ t.groups.zipIdx, ∀ syncBit, GroupEvents numbered.2 numbered.1
      (Frame.events ⟨numbered.2, groupPeriods syncBit numbered.1⟩) :=
    fun numbered hmem syncBit => groupEvents_frame syncBit numbered.2
      (mem_splitOn_sync ht.plain ht.apart _ (List.fst_mem_of_mem_zipIdx hmem))
  refine ⟨capture, hcapture, length_splitOn _ _, fun noisy hnoisy => ⟨?_, ?_, ?_⟩⟩
  · refine ⟨_, (hdecode noisy hnoisy).trans (List.flatMap_def ..), ?_⟩
    rw [List.forall₂_map_right_iff, List.forall₂_same]
    exact fun numbered hmem => hgroup numbered hmem t.syncBit
  · rw [hdecode noisy hnoisy]
    exact (hdecode capture (List.forall₂_same.mpr fun sample _ => .refl sample)).symm
  · intro u hu
    obtain ⟨other, hother, hdecode_other⟩ :=
      (show u.Separated from ⟨hu ▸ ht.plain, hu ▸ ht.apart⟩).decodeCapture_eq
    refine ⟨other, hother, fun noise hnoise => ?_⟩
    have hgroups : u.groups = t.groups := by rw [Track.groups, Track.groups, hu]
    rw [hdecode_other noise hnoise, hdecode noisy hnoisy, hgroups, List.map_flatMap,
      List.map_flatMap]
    refine List.flatMap_congr fun numbered hmem => ?_
    exact (hgroup numbered hmem u.syncBit).outline_eq (hgroup numbered hmem t.syncBit)

/-- An ID field with its check between two syncs, every sample five ticks
late. -/
theorem decodeCapture_of_jittered_address_mark :
    let t : Track := { segments := [.sync, .record [0xfe, 1, 2, 3] true, .sync] }
    let late : UInt8 → UInt8 := fun sample => UInt8.ofNat (min 255 (sample.toNat + 5))
    t.Separated
      ∧ ∃ capture, t.samples = .ok capture
        ∧ List.Forall₂ Jittered capture (capture.map late)
        ∧ decodeCapture (capture.map late) = decodeCapture capture
        ∧ (decodeCapture (capture.map late)).map Event.outline
          = [.inl 0, .inl 1,
              .inr { kind := .addressMark, length := 6, check := some 0
                     payload := [0xfe, 1, 2, 3, 0xcd, 0x1f] },
              .inl 2] := by
  intro t late
  have ht : t.Separated := by
    refine ⟨fun segment hsegment => ?_, by decide⟩
    rcases hsegment with _ | ⟨_, _ | ⟨_, _ | ⟨_, ⟨⟩⟩⟩⟩
    · exact Or.inl rfl
    · exact Or.inr ⟨_, _, rfl⟩
    · exact Or.inl rfl
  obtain ⟨capture, hcapture, -, hdecode⟩ := decodeCapture_of_jittered t ht
  have hlate : List.Forall₂ Jittered capture (capture.map late) := by
    rw [List.forall₂_map_right_iff, List.forall₂_same]
    intro sample _
    refine ⟨5, by decide, by decide, ?_⟩
    simp only [late, UInt8.toNat_ofNat']
    omega
  obtain ⟨⟨blocks, hblocks, hgroups⟩, hsame, -⟩ := hdecode _ hlate
  have hzip : t.groups.zipIdx
      = [([], 0), ([.record [0xfe, 1, 2, 3] true], 1), ([], 2)] := rfl
  have hrecord : Record.classify? (recordBytes [0xfe, 1, 2, 3] true)
      = some { kind := .addressMark, length := 6, check := some 0
               payload := [0xfe, 1, 2, 3, 0xcd, 0x1f] } := by decide +kernel
  rw [hzip] at hgroups
  refine ⟨ht, capture, hcapture, hlate, hsame, ?_⟩
  obtain _ | ⟨hfirst, _ | ⟨hmiddle, _ | ⟨hlast, ⟨⟩⟩⟩⟩ := hgroups
  obtain ⟨⟩ := hfirst
  obtain ⟨⟩ := hlast
  obtain _ | ⟨-, -, hevents⟩ := hmiddle
  rw [hblocks, hevents.unique (recordEvents_classify? _), hrecord]
  rfl

end FluxMarks
