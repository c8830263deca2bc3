import Mathlib.Data.List.Basic
import FluxMarks.Event
import FluxMarks.Proofs.Frame
import FluxMarks.Proofs.Source.Events
import FluxMarks.Proofs.Statistics

/-!
# Resynchronisation

A sync pattern isolates what comes before it from what comes after it. Of
everything that decoding carries along, the pattern lets only the number of
the next frame through, and a number changes nothing in a frame but itself
(`Frame.events_add_index`). So the events of a capture are those of its
parts, one after another, with the frames of the later part counted on
(`decodeCapture_append_sync`), and its counters are the sums of theirs.
-/

namespace FluxMarks

/-- The same event so many frames later. -/
def Event.later (frames : Nat) : Event → Event
  | .frame d => .frame { d with index := d.index + frames }
  | .record r => .record r

/-! ## Later frames -/

theorem Frame.events_add_index (index frames : Nat) (periods : List Nat) :
    Frame.events ⟨index + frames, periods⟩
      = (Frame.events ⟨index, periods⟩).map (Event.later frames) := by
  have hrecord : Frame.record? ⟨index + frames, periods⟩ = Frame.record? ⟨index, periods⟩ := rfl
  rw [Frame.events, Frame.events, hrecord, List.map_cons]
  cases Frame.record? ⟨index, periods⟩ <;> rfl

theorem flatMap_events_mapIdx_add (frames : Nat) (cut : List (List Nat)) :
    (cut.mapIdx fun i => Frame.mk (i + frames)).flatMap Frame.events
      = ((cut.mapIdx Frame.mk).flatMap Frame.events).map (Event.later frames) := by
  rw [List.mapIdx_eq_zipIdx_map, List.mapIdx_eq_zipIdx_map, List.flatMap_map, List.flatMap_map,
    List.map_flatMap]
  exact List.flatMap_congr fun numbered _ => Frame.events_add_index numbered.2 frames numbered.1

theorem countP_isFrame_events (frame : Frame) : frame.events.countP Event.isFrame = 1 := by
  rw [Frame.events]
  cases frame.record? <;> rfl

theorem countP_isFrame_flatMap_events (frames : List Frame) :
    (frames.flatMap Frame.events).countP Event.isFrame = frames.length := by
  induction frames with
  | nil => rfl
  | cons frame frames ih =>
      rw [List.flatMap_cons, List.countP_append, countP_isFrame_events, ih, List.length_cons,
        Nat.add_comm]

theorem Statistics.observe_later (s : Statistics) (frames : Nat) (event : Event) :
    s.observe (event.later frames) = s.observe event := by
  cases event <;> rfl

theorem Statistics.ofEvents_map_later (frames : Nat) (events : List Event) :
    ofEvents (events.map (Event.later frames)) = ofEvents events := by
  rw [ofEvents, ofEvents, List.foldl_map]
  simp only [observe_later]

/-! ## Captures -/

/-- The number of frames a capture is cut into. -/
def frameCount (samples : List UInt8) : Nat :=
  (decodeCapture samples).countP Event.isFrame

theorem frameCount_eq (samples : List UInt8) :
    frameCount samples = (splitFrom [] (samples.map quantize)).length := by
  rw [frameCount, decodeCapture, countP_isFrame_flatMap_events, captureFrames, splitFrames,
    List.length_mapIdx]

theorem decodeCapture_append_sync {x y : UInt8} (hx : quantize x = 8) (hy : quantize y = 3)
    (a b : List UInt8) :
    decodeCapture (a ++ [x, y] ++ b)
      = decodeCapture a ++ (decodeCapture b).map (Event.later (frameCount a)) := by
  have hsync : [x, y].map quantize = syncPattern := by simp [hx, hy, syncPattern]
  have hcut : captureFrames (a ++ [x, y] ++ b) = captureFrames a
      ++ (splitFrom [] (b.map quantize)).mapIdx fun i => Frame.mk (i + frameCount a) := by
    rw [captureFrames, splitFrames, List.map_append, List.map_append, hsync,
      splitFrom_append_sync, List.mapIdx_append, ← frameCount_eq]
    rfl
  rw [decodeCapture, hcut, List.flatMap_append, flatMap_events_mapIdx_add]
  rfl

theorem frameCount_append_sync {x y : UInt8} (hx : quantize x = 8) (hy : quantize y = 3)
    (a b : List UInt8) : frameCount (a ++ [x, y] ++ b) = frameCount a + frameCount b := by
  have hkeeps : Event.isFrame ∘ Event.later (frameCount a) = Event.isFrame := by
    funext event
    cases event <;> rfl
  rw [frameCount, decodeCapture_append_sync hx hy, List.countP_append, List.countP_map, hkeeps]
  rfl

/-- **A sync pattern isolates.** Two samples that quantize to the sync
pattern split the events of a capture into those of what is before them and
those of what is after, counted on, and the counters into a sum; a decoder
that pulls the samples one by one carries no more than that across. So
whatever stands between two of them has no part in the events around it but
in the numbers of the frames that follow. -/
theorem sync_isolates (a b : List UInt8) {x y : UInt8} (hx : quantize x = 8)
    (hy : quantize y = 3) :
    let events := decodeCapture a ++ (decodeCapture b).map (Event.later (frameCount a))
    decodeCapture (a ++ [x, y] ++ b) = events
      ∧ Statistics.ofEvents (decodeCapture (a ++ [x, y] ++ b))
        = Statistics.ofEvents (decodeCapture a) + Statistics.ofEvents (decodeCapture b)
      ∧ Source.Yields (TrackDecoder.ofSource (Script.ofItems (a ++ [x, y] ++ b))) events
      ∧ ∀ garbage x' y', quantize x' = 8 → quantize y' = 3 →
        decodeCapture (a ++ [x, y] ++ garbage ++ [x', y'] ++ b)
          = decodeCapture a ++ (decodeCapture garbage).map (Event.later (frameCount a))
            ++ (decodeCapture b).map
              (Event.later (frameCount a + frameCount garbage)) := by
  intro events
  have hevents := decodeCapture_append_sync hx hy a b
  refine ⟨hevents, ?_, ?_, fun garbage x' y' hx' hy' => ?_⟩
  · rw [hevents, Statistics.ofEvents_append, Statistics.ofEvents_map_later]
  · have hyields := TrackDecoder.yields_decodeCapture
      (Script.handsOut (a ++ [x, y] ++ b)) rfl
    rwa [hevents] at hyields
  · rw [decodeCapture_append_sync hx' hy', decodeCapture_append_sync hx hy,
      frameCount_append_sync hx hy]

/-- A frame that ends in a period of eight, one that starts with a period of
three, and between them first nothing and then a frame cut in two. -/
theorem sync_isolates_from_garbage :
    let a : List UInt8 := [53, 66, 39, 79, 39, 106]
    let b : List UInt8 := [39, 53, 53, 53, 53, 39, 39]
    let record : Record :=
      { kind := .addressMark, length := 1, check := some 15761, payload := [0xfe] }
    (quantize 106 = 8 ∧ quantize 40 = 3) ∧ (quantize 100 = 8 ∧ quantize 45 = 3)
      ∧ frameCount a = 1 ∧ frameCount [106, 40, 100] = 2
      ∧ decodeCapture (a ++ [106, 40] ++ b)
        = decodeCapture a ++ [.frame { index := 1, waveformLength := 25, bitsLength := 11
                                       residue := 1 }, .record record]
      ∧ decodeCapture (a ++ [106, 40] ++ [106, 40, 100] ++ [100, 45] ++ b)
        = decodeCapture a ++ (decodeCapture [106, 40, 100]).map (Event.later 1)
          ++ [.frame { index := 3, waveformLength := 25, bitsLength := 11, residue := 1 },
            .record record] := by
  intro a b record
  have hsync : quantize 106 = 8 ∧ quantize 40 = 3 := by decide
  have hlate : quantize 100 = 8 ∧ quantize 45 = 3 := by decide
  have ha : frameCount a = 1 := by decide +kernel
  have hgarbage : frameCount [106, 40, 100] = 2 := by decide +kernel
  have hb : decodeCapture b = [.frame { index := 0, waveformLength := 25, bitsLength := 11
                                        residue := 1 }, .record record] := by decide +kernel
  obtain ⟨hevents, -, -, hbetween⟩ := sync_isolates a b hsync.1 hsync.2
  have hmiddle := hbetween [106, 40, 100] 100 45 hlate.1 hlate.2
  rw [ha, hb] at hevents
  rw [ha, hgarbage, hb] at hmiddle
  exact ⟨hsync, hlate, ha, hgarbage, hevents, hmiddle⟩

end FluxMarks
