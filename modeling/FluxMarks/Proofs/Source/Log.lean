import FluxMarks.Proofs.Cells
import FluxMarks.Proofs.Source.Failure

/-!
# What a decoder says

The log of a decoder can be told from its answers and from the reads that
they take. `Tells` says of one pull what is said during it: what its reads
got, and then, if the answer is a frame, that the frame is complete, where
decoding stopped if it did so early, and the record, if that is what the next
pull hands out. A read is only made when everything read before was handed
out (`Fetches`), so what is said of reads is said no earlier than it has to
be.

Between two pulls a decoder holds no period (`Poised`), and so every pull
begins and ends alike; `TrackDecoder.log_mirrors_events` says of a run over
any medium what `Poised.tells` says of one pull.
-/

namespace FluxMarks

open Source

/-! ## Reads -/

/-- Calls to read, one after another: the medium before, what those of them
got that were not interrupted, and the medium after. -/
inductive Reads (limit : Nat) : List ReadStep → List (List UInt8) → List ReadStep → Prop
  | nil (medium : List ReadStep) : Reads limit medium [] medium
  | interrupted {medium rest : List ReadStep} {chunks : List (List UInt8)}
      (h : Reads limit medium chunks rest) : Reads limit (.interrupted :: medium) chunks rest
  | stretch {samples : List UInt8} {medium rest : List ReadStep} {chunks : List (List UInt8)}
      (h : Reads limit (putBack (samples.drop limit) medium) chunks rest) :
      Reads limit (.stretch samples :: medium) (samples.take limit :: chunks) rest
  | ended {rest : List ReadStep} {chunks : List (List UInt8)} (h : Reads limit [] chunks rest) :
      Reads limit [] ([] :: chunks) rest

namespace Reads

variable {limit : Nat} {medium rest later : List ReadStep} {chunk : List UInt8}
  {chunks : List (List UInt8)} {reason : String}

/-- A read that is repeated over interruptions gets one chunk. -/
theorem of_readChunk (h : readChunk limit medium = (.samples chunk, rest))
    (hmore : Reads limit rest chunks later) : Reads limit medium (chunk :: chunks) later := by
  induction medium with
  | nil =>
      cases h
      exact .ended hmore
  | cons step medium ih =>
      cases step with
      | interrupted => exact .interrupted (ih h)
      | failed reason => cases h
      | stretch samples =>
          cases h
          exact .stretch hmore

theorem of_readChunk_failed (h : readChunk limit medium = (.failed reason, rest)) :
    Reads limit medium [] (.failed reason :: rest) := by
  induction medium with
  | nil => cases h
  | cons step medium ih =>
      cases step with
      | interrupted => exact .interrupted (ih h)
      | failed reason =>
          cases h
          exact .nil _
      | stretch samples => cases h

end Reads

/-- The reads that handing out some samples takes. What they got stands
behind the samples at hand, and what was not handed out stays at hand. Every
read got something, and was made for a sample that was handed out. -/
structure Fetches (limit : Nat) (before : SampleReader) (samples : List UInt8)
    (chunks : List (List UInt8)) (after : SampleReader) : Prop where
  reads : Reads limit before.medium chunks after.medium
  samples_eq : before.buffer ++ chunks.flatten = samples ++ after.buffer
  ne_nil : ∀ chunk ∈ chunks, chunk ≠ []
  needed : ∀ last ∈ chunks.getLast?, after.buffer.length < last.length

/-- What is said of a read. -/
def chunkMessage (chunk : List UInt8) : Message := .chunkRead chunk.length

namespace SampleReader

/-- A reader that reads at most so many samples at a time, and has not come
to an end. -/
def Runs (limit : Nat) (r : SampleReader) : Prop := r.limit = limit ∧ r.done = false

variable {limit : Nat} {r t : SampleReader}

/-- A reader says of each read what it got, and of nothing else. -/
theorem exists_fetches {samples : List UInt8} (h : HandsOut r samples t) (hrun : r.Runs limit) :
    t.Runs limit ∧ ∃ chunks, Fetches limit r samples chunks t
      ∧ said samples.length r = chunks.map chunkMessage := by
  induction h with
  | nil r =>
      refine ⟨hrun, [], ⟨.nil _, ?_, nofun, nofun⟩, rfl⟩
      rw [List.flatten_nil, List.append_nil, List.nil_append]
  | @cons r t sample samples hitem hrest ih =>
      obtain ⟨medium, limit', buffer, done⟩ := r
      obtain ⟨rfl, rfl⟩ := hrun
      rcases buffer with _ | ⟨first, buffer⟩
      · -- nothing is at hand, so a read is made
        rcases hread : readChunk limit' medium with ⟨⟨_ | ⟨first, buffer⟩⟩ | reason, left⟩
        · simp [pull_of_empty, refill, hread] at hitem
        · have hpull := pull_of_chunk hread
          rw [hpull] at hitem ih
          cases hitem
          obtain ⟨ht, chunks, ⟨hreads, hsamples, hne, hneeded⟩, hsaid⟩ := ih ⟨rfl, rfl⟩
          refine ⟨ht, (sample :: buffer) :: chunks, ⟨.of_readChunk hread hreads, ?_, ?_, ?_⟩, ?_⟩
          · exact congrArg (sample :: ·) hsamples
          · exact List.forall_mem_cons.mpr ⟨List.cons_ne_nil _ _, hne⟩
          · cases chunks with
            | nil =>
                -- what is left of this chunk lacks its first sample at least
                rintro last ⟨⟩
                have hlen := congrArg List.length hsamples
                simp only [List.flatten_nil, List.append_nil, List.length_append] at hlen
                show t.buffer.length < buffer.length + 1
                omega
            | cons next chunks => exact hneeded
          · rw [List.length_cons, said_cons, hpull, hsaid]
            rfl
        · simp [pull_of_empty, refill, hread] at hitem
      · cases hitem
        obtain ⟨ht, chunks, ⟨hreads, hsamples, hne, hneeded⟩, hsaid⟩ := ih ⟨rfl, rfl⟩
        exact ⟨ht, chunks, ⟨hreads, congrArg (sample :: ·) hsamples, hne, hneeded⟩, hsaid⟩

/-- Where there is no sample for an answer, nothing is at hand, and the read
that was made for one is the last. -/
theorem Runs.pull_of_stop (hrun : t.Runs limit) (hstop : (Source.pull t).item? = none) :
    t.buffer = []
      ∧ (((Source.pull t).item = none ∧ (Source.pull t).log = [chunkMessage []]
          ∧ Reads limit t.medium [[]] (Source.pull t).next.medium)
        ∨ ∃ reason, (Source.pull t).item = some (.error (.io reason))
          ∧ (Source.pull t).log = [.readFailed (.io reason)]
          ∧ Reads limit t.medium [] (.failed reason :: (Source.pull t).next.medium)) := by
  obtain ⟨medium, limit', buffer, done⟩ := t
  obtain ⟨rfl, rfl⟩ := hrun
  rcases buffer with _ | ⟨first, buffer⟩
  · rcases hread : readChunk limit' medium with ⟨⟨_ | ⟨first, buffer⟩⟩ | reason, left⟩
    · rw [pull_of_nothing hread]
      exact ⟨rfl, Or.inl ⟨rfl, rfl, .of_readChunk hread (.nil _)⟩⟩
    · rw [pull_of_chunk hread] at hstop
      cases hstop
    · rw [pull_of_failed hread]
      exact ⟨rfl, Or.inr ⟨reason, rfl, rfl, .of_readChunk_failed hread⟩⟩
  · cases hstop

end SampleReader

/-! ## Frames -/

/-- What is said of a frame once it is decoded and decoding stopped early. -/
def FrameDiagnostic.stopped (d : FrameDiagnostic) : List Message :=
  if d.isTruncated then
    [.decodingStopped (d.waveformLength - d.residue) d.waveformLength d.bitsLength]
  else []

/-- What is said of a record, before the answer that it is handed out as. -/
inductive Announces : List Message → Option (Except CaptureError Event) → Prop
  | record {r : Record} {mark : UInt8} {rest : List UInt8} (hpayload : r.payload = mark :: rest) :
      Announces [.recordFound r.kind r.length mark r.check] (some (.ok (.record r)))
  | nothing {next : Option (Except CaptureError Event)}
      (h : ∀ r, next ≠ some (.ok (.record r))) : Announces [] next

theorem Waveform.nextWord_eq {w : Waveform} (h : leadIn ≤ w.length) :
    w.nextWord = w.decode.stoppedAt := by
  rw [decode_of_readAll_of_le h rfl]
  rfl

/-- The message has a check of its own, and the place where the next word
would begin. Both agree with the diagnostic: what is too short for a lead-in
is not truncated. -/
theorem Frame.stopped_eq (frame : Frame) :
    frame.diagnostic.stopped
      = if CodeWord.shortestPattern ≤ frame.decoding.residue then
          [.decodingStopped frame.waveform.nextWord frame.waveform.length
            frame.decoding.bits.length]
        else [] := by
  by_cases hstopped : CodeWord.shortestPattern ≤ frame.decoding.residue
  · have hlong : leadIn ≤ frame.waveform.length := by
      refine Nat.le_of_not_lt fun hshort => ?_
      have hnone : frame.decoding.residue = 0 := (Waveform.decode_of_short hshort).2
      rw [hnone] at hstopped
      cases hstopped
    have hnext : frame.waveform.nextWord = frame.waveform.length - frame.decoding.residue := by
      rw [Waveform.nextWord_eq hlong]
      exact Nat.eq_sub_of_add_eq frame.waveform.stoppedAt_add_residue
    rw [if_pos hstopped, hnext]
    exact if_pos (decide_eq_true hstopped)
  · rw [if_neg hstopped]
    exact if_neg (mt of_decide_eq_true hstopped)

/-- What a frame has to say once it is decoded can be told from its
diagnostic and from what is handed out next, if that is its record. -/
theorem Frame.exists_findings (frame : Frame) {next : Option (Except CaptureError Event)}
    (hnext : ∀ r, next = some (.ok (.record r)) ↔ frame.record? = some r) :
    ∃ found, frame.findings = frame.diagnostic.stopped ++ found ∧ Announces found next := by
  rw [Frame.findings, Frame.stopped_eq]
  refine ⟨_, rfl, ?_⟩
  rw [Frame.record?] at hnext
  rcases hbytes : assemble frame.decoding.bits with _ | ⟨mark, rest⟩ <;> rw [hbytes] at hnext
  · exact .nothing fun r hr => Option.some_ne_none r ((hnext r).mp hr).symm
  · obtain ⟨r, hr, -, -, hpayload, -⟩ := Record.classify?_cons mark rest
    obtain ⟨n, hspan⟩ := r.kind.exists_span_eq_succ
    rw [hspan, List.take_succ_cons] at hpayload
    rw [(hnext r).mpr hr]
    simp only [List.head?_cons, hr]
    exact .record hpayload

/-! ## Stages -/

namespace TrackDecoder

/-- A record is handed out exactly if it was kept back. -/
theorem item_pull_eq_record_iff {σ : Type} [FiniteSource σ UInt8] {f : Framer (Quantizer σ)}
    {pending : Option Record} {r : Record} :
    (Source.pull (⟨f, pending⟩ : TrackDecoder σ)).item = some (.ok (.record r))
      ↔ pending = some r := by
  cases pending with
  | some record =>
      show some (Except.ok (Event.record record)) = some (.ok (.record r)) ↔ _
      simp
  | none =>
      have hpull : Source.pull (⟨f, none⟩ : TrackDecoder σ) = answer f.pull :=
        pull_of_pull? (congrArg (Option.map answer) f.pull?_eq)
      rw [hpull]
      rcases f.pull with ⟨_ | _ | frame, log, next⟩ <;> simp [answer]

theorem exists_findings {σ : Type} [FiniteSource σ UInt8] (frame : Frame)
    (frames : Framer (Quantizer σ)) :
    ∃ found, frame.findings = frame.diagnostic.stopped ++ found
      ∧ Announces found (Source.pull (⟨frames, frame.record?⟩ : TrackDecoder σ)).item :=
  frame.exists_findings fun _ => item_pull_eq_record_iff

/-! ## One pull -/

/-- What is said during a pull, by its answer: the reader before, the answer,
what is said, the answer of the pull after it, and the reader after. -/
inductive Tells (limit : Nat) (before : SampleReader) :
    Option (Except CaptureError Event) → List Message → Option (Except CaptureError Event) →
      SampleReader → Prop
  /-- A frame that a sync pattern ends. -/
  | frame {after : SampleReader} {samples : List UInt8} {chunks : List (List UInt8)}
      {found : List Message} {next : Option (Except CaptureError Event)} (frame : Frame)
      (hfetch : Fetches limit before samples chunks after)
      (hsamples : samples.map quantize = frame.periods ++ syncPattern)
      (hfound : Announces found next) :
      Tells limit before (some (.ok (.frame frame.diagnostic)))
        (chunks.map chunkMessage ++ [.frameComplete frame.diagnostic.index frame.periods.length]
          ++ frame.diagnostic.stopped ++ found)
        next after
  /-- The frame that is left when a read gets nothing. -/
  | lastFrame {stop after : SampleReader} {samples : List UInt8} {chunks : List (List UInt8)}
      {found : List Message} {next : Option (Except CaptureError Event)} (frame : Frame)
      (hfetch : Fetches limit before samples chunks stop) (hempty : stop.buffer = [])
      (hend : Reads limit stop.medium [[]] after.medium)
      (hsamples : samples.map quantize = frame.periods) (hfound : Announces found next) :
      Tells limit before (some (.ok (.frame frame.diagnostic)))
        ((chunks ++ [[]]).map chunkMessage
          ++ [.frameComplete frame.diagnostic.index frame.periods.length]
          ++ frame.diagnostic.stopped ++ found)
        next after
  | record {next : Option (Except CaptureError Event)} (r : Record) :
      Tells limit before (some (.ok (.record r))) [] next before
  /-- A failed read, which is warned of, after those that got something. -/
  | failure {stop after : SampleReader} {samples : List UInt8} {chunks : List (List UInt8)}
      {reason : String} {next : Option (Except CaptureError Event)}
      (hfetch : Fetches limit before samples chunks stop) (hempty : stop.buffer = [])
      (hend : Reads limit stop.medium [] (.failed reason :: after.medium)) :
      Tells limit before (some (.error (.io reason)))
        (chunks.map chunkMessage ++ [.readFailed (.io reason)]) next after
  | nothing {next : Option (Except CaptureError Event)} : Tells limit before none [] next before

/-- How a decoder stands between two pulls: it holds no period of a frame
that is not complete, or has ended. -/
inductive Poised (limit : Nat) : TrackDecoder SampleReader → Prop
  | running {now : SampleReader} (index : Nat) (pending : Option Record)
      (hrun : now.Runs limit) : Poised limit (between now index pending)
  | ended {frames : Framer (Quantizer SampleReader)} (pending : Option Record)
      (hfin : frames.finished = true) : Poised limit ⟨frames, pending⟩

variable {limit : Nat}

/-- What holds of one pull, and of the decoder that it leaves. -/
def TellsOn (limit : Nat) (before : SampleReader) (p : Pull (TrackDecoder SampleReader) Event) :
    Prop :=
  Tells limit before p.item p.log (Source.pull p.next).item p.next.source ∧ Poised limit p.next

/-- The reads for a frame before a sync pattern get its last period, and what
they got behind that is at hand for the next frame. Without a sync pattern
everything is read, and then once more: that read gets nothing, and there is
one last frame, or it fails. -/
theorem tells_of_outcome {now : SampleReader} {index : Nat}
    {p : Pull (TrackDecoder SampleReader) Event} (hrun : now.Runs limit)
    (h : Outcome now index (some p)) : TellsOn limit now p := by
  cases h with
  | @frame samples next frame hindex hout hfree hsamples =>
      obtain ⟨hnext, chunks, hfetch, hsaid⟩ := SampleReader.exists_fetches hout hrun
      obtain ⟨found, hfindings, hfound⟩ := exists_findings frame (between next _ none).frames
      rw [TellsOn, hsaid, hfindings, ← List.append_assoc]
      exact ⟨.frame frame hfetch hsamples hfound, .running _ _ hnext⟩
  | @lastFrame samples stop frames frame hindex hout hfree hsamples hend hfin hasked =>
      obtain ⟨hlast, chunks, hfetch, hsaid⟩ := SampleReader.exists_fetches hout hrun
      obtain ⟨found, hfindings, hfound⟩ := exists_findings frame frames
      obtain ⟨hempty, ⟨-, hlog, hread⟩ | ⟨reason, herr, -⟩⟩ :=
        hlast.pull_of_stop (by rw [Pull.item?, hend])
      · rw [← hasked] at hread
        rw [TellsOn, hsaid, hlog, hfindings, ← List.append_assoc, ← List.map_singleton,
          ← List.map_append]
        exact ⟨.lastFrame frame hfetch hempty hread hsamples hfound, .ended _ hfin⟩
      · cases hend.symm.trans herr
  | failure hout hfree herr hfin hasked =>
      obtain ⟨hlast, chunks, hfetch, hsaid⟩ := SampleReader.exists_fetches hout hrun
      obtain ⟨hempty, ⟨hend, -⟩ | ⟨reason, hitem, hlog, hread⟩⟩ :=
        hlast.pull_of_stop (by rw [Pull.item?, herr])
      · cases hend.symm.trans herr
      · cases herr.symm.trans hitem
        rw [← hasked] at hread
        rw [TellsOn, hsaid, hlog]
        exact ⟨.failure hfetch hempty hread, .ended _ hfin⟩

theorem Poised.tells {d : TrackDecoder SampleReader} (h : Poised limit d) :
    TellsOn limit d.source (Source.pull d) := by
  rcases h with @⟨now, index, _ | record, hrun⟩ | @⟨frames, _ | record, hfin⟩
  · have houtcome := outcome now index
    rw [pull?_eq] at houtcome
    exact tells_of_outcome hrun houtcome
  · exact ⟨.record record, .running index none hrun⟩
  · have hpull : Source.pull (⟨frames, none⟩ : TrackDecoder SampleReader) = _ :=
      pull_of_pull? (pull?_of_finished hfin)
    rw [hpull]
    exact ⟨.nothing, .ended none hfin⟩
  · exact ⟨.record record, .ended none hfin⟩

/-- **The log mirrors the events, and follows the demand.** Whatever reads a
medium gives and however often the decoder is pulled, also past the end, the
log of a pull is told by its answer. For a frame there is what each read got
that was not interrupted, also if it got nothing, that the frame is complete,
with its number and the number of its periods, where decoding stopped if and
only if the frame is truncated, and the record if and only if the next pull
hands it out. For a failure there is what the reads before it got, and one
warning. For a record and for no answer there is nothing. The first pull finds
the medium as it is, each later one as the one before left it, and no read is
made before all that was read is handed out. -/
theorem log_mirrors_events (medium : List ReadStep) :
    let decoder := decodeMedium medium
    decoder.source = SampleReader.ofMedium medium defaultChunk
      ∧ ∀ n, let answer := Source.pull (after n decoder)
        let next := after (n + 1) decoder
        Tells defaultChunk (after n decoder).source answer.item answer.log (Source.pull next).item
          next.source := by
  intro decoder
  refine ⟨rfl, fun n => ?_⟩
  have hfirst : Poised defaultChunk decoder := .running 0 none ⟨rfl, rfl⟩
  have hpoised : Poised defaultChunk (after n decoder) :=
    after_induction (fun _ hd => hd.tells.2) hfirst n
  rw [after_succ]
  exact hpoised.tells.1

/-- A record in a frame that is truncated, read in two chunks, and then a
failure. -/
example :
    (pulls 4 (decodeMedium [.stretch [39, 39, 39, 39, 39], .interrupted,
      .stretch [39, 39, 39, 160, 106, 40, 80], .failed "device gone"])).map Pull.log
    = [[.chunkRead 5, .chunkRead 7, .frameComplete 0 9, .decodingStopped 26 36 12,
        .recordFound .unknown 1 0 none], [], [.readFailed (.io "device gone")], []] := by
  cbv

end TrackDecoder

end FluxMarks
