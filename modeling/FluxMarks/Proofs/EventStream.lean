import FluxMarks.Proofs.Layout
import FluxMarks.Proofs.Statistics

/-!
# The shape of the events of a capture

`Blocks` says what the events of a capture look like without saying how they
are decoded: one block for every frame, numbered in order, in which a record
follows the frame exactly if the bits of the frame are good for a byte, and
is then as long as they are good for (`blocks_flatMap_events`). The counters
judge a frame by its bits alone, the decoder by the bytes it makes of them,
and the shape is what makes both agree (`Blocks.frames_eq`).
-/

namespace FluxMarks

/-! ## One record -/

/-- A record is the one that the bits of a frame promise: as many bytes as
they are good for, of which it shows what its kind covers, and of the kind
that the first byte shown makes it. -/
structure Record.Fits (r : Record) (d : FrameDiagnostic) : Prop where
  length_eq : r.length = assembledLength d.bitsLength
  length_payload : r.payload.length = min r.kind.span r.length
  kind_eq : ∃ mark rest, r.payload = mark :: rest ∧ r.kind = .ofMark mark

theorem Record.Fits.payload_ne_nil {r : Record} {d : FrameDiagnostic} (h : r.Fits d) :
    r.payload ≠ [] := by
  obtain ⟨mark, rest, hpayload, -⟩ := h.kind_eq
  rw [hpayload]
  exact List.cons_ne_nil _ _

/-- A frame whose bits are good for no byte has no record, and any other has
the one that they promise. -/
theorem Frame.record?_fits (frame : Frame) :
    (assembledLength frame.diagnostic.bitsLength = 0 ∧ frame.record? = none)
      ∨ (1 ≤ assembledLength frame.diagnostic.bitsLength
        ∧ ∃ r, frame.record? = some r ∧ r.Fits frame.diagnostic) := by
  have hlength : (assemble frame.decoding.bits).length
      = assembledLength frame.diagnostic.bitsLength := length_assemble _
  rw [Frame.record?, ← hlength]
  rcases hbytes : assemble frame.decoding.bits with _ | ⟨mark, rest⟩
  · exact Or.inl ⟨rfl, rfl⟩
  · rw [hbytes] at hlength
    obtain ⟨r, hr, hkind, hlen, hpayload, -⟩ := Record.classify?_cons mark rest
    obtain ⟨n, hspan⟩ := r.kind.exists_span_eq_succ
    refine Or.inr ⟨Nat.succ_pos _, r, hr, hlen.trans hlength, ?_, mark, rest.take n, ?_, hkind⟩
    · rw [hpayload, List.length_take, hlen]
    · rw [hpayload, hspan, List.take_succ_cons]

/-! ## All blocks -/

/-- The events of frames that are numbered from here on. A block is a frame
and, if its bits are good for a byte, the record that they promise. -/
inductive Blocks : Nat → List Event → Prop
  | nil (index : Nat) : Blocks index []
  | bare {index : Nat} {d : FrameDiagnostic} {events : List Event} (hindex : d.index = index)
      (hempty : assembledLength d.bitsLength = 0) (hrest : Blocks (index + 1) events) :
      Blocks index (.frame d :: events)
  | full {index : Nat} {d : FrameDiagnostic} {r : Record} {events : List Event}
      (hindex : d.index = index) (hbytes : 1 ≤ assembledLength d.bitsLength) (hfits : r.Fits d)
      (hrest : Blocks (index + 1) events) : Blocks index (.frame d :: .record r :: events)

theorem Blocks.events_append {index : Nat} {events : List Event} (periods : List Nat)
    (h : Blocks (index + 1) events) : Blocks index (Frame.events ⟨index, periods⟩ ++ events) := by
  rw [Frame.events]
  rcases Frame.record?_fits ⟨index, periods⟩ with ⟨hempty, hr⟩ | ⟨hbytes, r, hr, hfits⟩
  · rw [hr]
    exact .bare rfl hempty h
  · rw [hr]
    exact .full rfl hbytes hfits h

theorem blocks_flatMap_events (index : Nat) (cut : List (List Nat)) :
    Blocks index ((cut.mapIdx fun i periods => ⟨index + i, periods⟩).flatMap Frame.events) := by
  induction cut generalizing index with
  | nil => exact .nil index
  | cons periods cut ih =>
      rw [List.mapIdx_cons, List.flatMap_cons]
      refine .events_append periods ?_
      simpa only [Nat.add_assoc, Nat.add_comm 1] using ih (index + 1)

theorem blocks_decodeCapture (samples : List UInt8) : Blocks 0 (decodeCapture samples) := by
  have hblocks := blocks_flatMap_events 0 (splitFrom [] (samples.map quantize))
  simp only [Nat.zero_add] at hblocks
  exact hblocks

theorem exists_decodeCapture_eq (samples : List UInt8) :
    ∃ d rest, decodeCapture samples = .frame d :: rest := by
  obtain ⟨first, cut, hcut⟩ :=
    List.exists_cons_of_ne_nil (splitFrom_ne_nil [] (samples.map quantize))
  rw [decodeCapture, captureFrames, splitFrames, hcut, List.mapIdx_cons, List.flatMap_cons]
  exact ⟨_, _, rfl⟩

theorem Blocks.exists_fits {index : Nat} {events : List Event} (h : Blocks index events)
    {r : Record} (hr : Event.record r ∈ events) : ∃ d, r.Fits d := by
  induction h with
  | nil => cases hr
  | bare hindex hempty hrest ih =>
      rcases List.mem_cons.mp hr with heq | hr
      · cases heq
      · exact ih hr
  | full hindex hbytes hfits hrest ih =>
      simp only [List.mem_cons] at hr
      rcases hr with heq | heq | hr
      · cases heq
      · cases heq
        exact ⟨_, hfits⟩
      · exact ih hr

/-- Every frame without a byte is counted as one, and every other one has
its record counted. -/
theorem Blocks.frames_eq {index : Nat} {events : List Event} (h : Blocks index events) :
    (Statistics.ofEvents events).frames
      = (Statistics.ofEvents events).records + (Statistics.ofEvents events).emptyFrames := by
  rw [Statistics.frames_ofEvents, Statistics.records_ofEvents, Statistics.emptyFrames_ofEvents]
  induction h with
  | nil => rfl
  | bare hindex hempty hrest ih =>
      simp [List.countP_cons, hempty, ih, Nat.add_assoc]
  | full hindex hbytes hfits hrest ih =>
      simp [List.countP_cons, Nat.ne_of_gt hbytes, ih, Nat.add_right_comm]

/-- **The counters and the events of a capture tell the same.** The events of
any samples start with a frame and are blocks of a frame, numbered in order,
and of the record that its bits promise, if they promise one. The counters
count the frames and the records, and so every event; a frame without a
record is counted as empty, the cells are those of all waveforms, and no
more frames are counted as truncated, and no more marks as intact, than
there are. -/
theorem decodeCapture_blocks (samples : List UInt8) :
    let events := decodeCapture samples
    let s := Statistics.ofEvents events
    (∃ d rest, events = .frame d :: rest) ∧ Blocks 0 events
      ∧ s.frames = events.countP Event.isFrame
      ∧ s.records = events.countP (fun event => !event.isFrame)
      ∧ s.frames + s.records = events.length
      ∧ s.frames = s.records + s.emptyFrames
      ∧ s.cells = ((events.filterMap Event.diagnostic?).map FrameDiagnostic.waveformLength).sum
      ∧ s.truncatedFrames ≤ s.frames
      ∧ s.intactDataMarks ≤ s.dataMarks ∧ s.intactAddressMarks ≤ s.addressMarks := by
  intro events s
  obtain ⟨d, rest, hevents⟩ := exists_decodeCapture_eq samples
  have hblocks : Blocks 0 events := blocks_decodeCapture samples
  obtain ⟨htruncated, hdata, haddress⟩ := Statistics.consistent_ofEvents events
  exact ⟨⟨d, rest, hevents⟩, hblocks, Statistics.frames_ofEvents events,
    Statistics.records_ofEvents events, Statistics.frames_add_records events, hblocks.frames_eq,
    Statistics.cells_ofEvents events, htruncated, hdata, haddress⟩

end FluxMarks
