import FluxMarks.Proofs.Source.Failure

/-!
# What a decoder asks for

A decoder asks its source for a sample only when it cannot answer without
one. `Takes` says by the answer of a pull what that pull takes from the
source: the samples of a frame up to its sync pattern, and nothing for the
record of that frame or after the end. One pull of a decoder takes just that
and keeps it in a state from which the same can be said again
(`Stands.takes`), so it holds of every pull (`TrackDecoder.lazy_and_fused`).

Nothing is asked of the source but that it can be pulled. It may go on behind
its end, and it may have none; a pull then comes back unless no sync pattern
is left to wait for (`Stands.pull?_eq_none_iff`). What a source would answer
behind its first answer that is no sample does not show (`Alike.pull?`), so a
source may always be thought of as cut off there.

A source may count how often it is asked. So for a source to be left in the
state in which it was means here that it was not asked, and for it to be
left in the state after so many pulls that it was asked as many times.
-/

namespace FluxMarks

open Source

/-! ## Two sources -/

/-- Two sources that answer alike as long as the answers are items, and once
more. -/
def Source.SameUntilStop {σ τ α : Type} [Source σ α] [Source τ α] (s : σ) (t : τ) : Prop :=
  ∀ n, (∀ k < n, (pull (after k s)).item?.isSome) →
    (pull (after n t)).item = (pull (after n s)).item

namespace Source.SameUntilStop

variable {σ τ α : Type} [Source σ α] [Source τ α] {s s' : σ} {t : τ} {items : List α}

theorem item_eq (h : SameUntilStop s t) : (pull t).item = (pull s).item := h 0 nofun

/-- What the one hands out the other hands out as well, and they still answer
alike. -/
theorem handsOut (h : SameUntilStop s t) (hout : HandsOut s items s') :
    ∃ t', HandsOut t items t' ∧ SameUntilStop s' t' := by
  induction hout generalizing t with
  | nil s => exact ⟨t, .nil t, h⟩
  | @cons s s' a items hitem _ ih =>
      have hnext : SameUntilStop (pull s).next (pull t).next := by
        refine fun n hitems => h (n + 1) fun k hk => ?_
        cases k with
        | zero => simp [after, Pull.item?, hitem]
        | succ k => exact hitems k (Nat.lt_of_succ_lt_succ hk)
      obtain ⟨t', hrest, hsame⟩ := ih hnext
      exact ⟨t', .cons (h.item_eq.trans hitem) hrest, hsame⟩

end Source.SameUntilStop

namespace TrackDecoder

variable {σ τ : Type} [Source σ UInt8] [Source τ UInt8] {source now : σ} {taken : List UInt8}

/-! ## One pull -/

/-- What a pull takes from the source, by its answer: the state of the source
before, the answer, and the state after. -/
inductive Takes : σ → Option (Except CaptureError Event) → σ → Prop
  /-- A frame takes its samples and those of the sync pattern behind it. -/
  | frame {s t : σ} {samples : List UInt8} (frame : Frame) (hout : HandsOut s samples t)
      (hfree : SyncFree frame.periods)
      (hsamples : samples.map quantize = frame.periods ++ syncPattern) :
      Takes s (some (.ok (.frame frame.diagnostic))) t
  /-- The last frame takes what is left and the answer that there is no more. -/
  | lastFrame {s t stop : σ} {samples : List UInt8} (frame : Frame)
      (hout : HandsOut s samples stop) (hfree : SyncFree frame.periods)
      (hsamples : samples.map quantize = frame.periods)
      (hend : (Source.pull stop).item = none) (hasked : t = (Source.pull stop).next) :
      Takes s (some (.ok (.frame frame.diagnostic))) t
  | record {s : σ} (record : Record) : Takes s (some (.ok (.record record))) s
  /-- A failure takes what comes before it, which completes no frame. -/
  | failure {s t stop : σ} {samples : List UInt8} {error : CaptureError}
      (hout : HandsOut s samples stop) (hfree : SyncFree (samples.map quantize))
      (herr : (Source.pull stop).item = some (.error error))
      (hasked : t = (Source.pull stop).next) :
      Takes s (some (.error error)) t
  | nothing {s : σ} : Takes s none s

/-- Where a decoder stands between two pulls. While it runs, it holds no
period: the samples that it took end in a sync pattern. Once it has ended,
the source was asked for the first answer that is no sample, and for nothing
after. -/
inductive Stands (source : σ) : TrackDecoder σ → Prop
  | running {now : σ} {taken : List UInt8} (index : Nat) (pending : Option Record)
      (htaken : HandsOut source taken now) : Stands source (between now index pending)
  | ended {frames : Framer (Quantizer σ)} {stop : σ} {taken : List UInt8}
      (pending : Option Record) (hfin : frames.finished = true)
      (htaken : HandsOut source taken stop)
      (hasked : frames.source.source = (Source.pull stop).next) :
      Stands source ⟨frames, pending⟩

variable {d : TrackDecoder σ} {p : Pull (TrackDecoder σ) Event}

/-- A pull that comes back takes what its answer needs and stands again. -/
theorem Stands.takes (h : Stands source d) (hp : d.pull? = some p) :
    Takes d.source p.item p.next.source ∧ Stands source p.next
      ∧ (p.item = none → p = ⟨none, [], d⟩) := by
  rcases h with @⟨now, taken, index, _ | record, htaken⟩ | ⟨_ | record, hfin, htaken, hasked⟩
  · have houtcome := outcome now index
    rw [hp] at houtcome
    cases houtcome with
    | frame frame hindex hout hfree hsamples =>
        exact ⟨.frame _ hout hfree hsamples, .running _ _ (htaken.append hout), nofun⟩
    | lastFrame frame hindex hout hfree hsamples hend hfin hasked =>
        exact ⟨.lastFrame _ hout hfree hsamples hend hasked,
          .ended _ hfin (htaken.append hout) hasked, nofun⟩
    | failure hout hfree herr hfin hasked =>
        exact ⟨.failure hout hfree herr hasked, .ended _ hfin (htaken.append hout) hasked, nofun⟩
  · cases hp
    exact ⟨.record record, .running index none htaken, nofun⟩
  · rw [pull?_of_finished hfin] at hp
    cases hp
    exact ⟨.nothing, .ended none hfin htaken hasked, fun _ => rfl⟩
  · cases hp
    exact ⟨.record record, .ended none hfin htaken hasked, nofun⟩

/-- A pull does not come back if, and only if, it waits for a sync pattern
that its source will never hand out, and never ends either. -/
theorem Stands.pull?_eq_none_iff (h : Stands source d) :
    d.pull? = none ↔ d.pending = none ∧ d.frames.finished = false ∧ NeverSyncs d.source := by
  rcases h with @⟨now, taken, index, _ | record, htaken⟩ | ⟨_ | record, hfin, htaken, hasked⟩
  · refine ⟨fun hp => ⟨rfl, rfl, ?_⟩, fun ⟨_, _, hnever⟩ => hnever.pull?_eq_none index⟩
    have houtcome := outcome now index
    rw [hp] at houtcome
    cases houtcome with
    | never hnever => exact hnever
  · exact ⟨nofun, nofun⟩
  · rw [pull?_of_finished hfin]
    exact ⟨nofun, fun ⟨_, hrun, _⟩ => nomatch hfin.symm.trans hrun⟩
  · exact ⟨nofun, nofun⟩

/-- The source was asked for one answer after another, and for none after the
first that was no sample. -/
theorem Stands.asked (h : Stands source d) :
    ∃ asked, d.source = after asked source ∧ ∀ k, k + 1 < asked →
      ∃ sample, (Source.pull (after k source)).item = some (.ok sample) := by
  rcases h with @⟨now, taken, index, pending, htaken⟩
    | @⟨frames, stop, taken, pending, hfin, htaken, hasked⟩
  · exact ⟨taken.length, htaken.after_length.symm, fun k hk =>
      ⟨_, htaken.item_after (Nat.lt_of_succ_lt hk)⟩⟩
  · refine ⟨taken.length + 1, ?_, fun k hk => ⟨_, htaken.item_after (Nat.lt_of_succ_lt_succ hk)⟩⟩
    rw [after_add, htaken.after_length]
    exact hasked

/-! ## Two decoders -/

/-- Two decoders that stand alike, over sources that answer alike for as long
as they are asked. -/
inductive Alike : TrackDecoder σ → TrackDecoder τ → Prop
  | running {s : σ} {t : τ} (index : Nat) (pending : Option Record) (h : SameUntilStop s t) :
      Alike (between s index pending) (between t index pending)
  | ended {f : Framer (Quantizer σ)} {g : Framer (Quantizer τ)} (pending : Option Record)
      (hf : f.finished = true) (hg : g.finished = true) : Alike ⟨f, pending⟩ ⟨g, pending⟩

theorem NeverSyncs.congr {s : σ} {t : τ} (hnever : NeverSyncs s) (h : SameUntilStop s t) :
    NeverSyncs t := by
  intro n
  obtain ⟨samples, next, hlength, hout, hfree⟩ := hnever n
  obtain ⟨next', hout', -⟩ := h.handsOut hout
  exact ⟨samples, next', hlength, hout', hfree⟩

/-- What a source has to say behind its first answer that is no sample makes
no difference. -/
theorem Alike.pull? {d : TrackDecoder σ} {e : TrackDecoder τ} (h : Alike d e) :
    Option.Rel (fun p q => p.item = q.item ∧ Alike p.next q.next) d.pull? e.pull? := by
  rcases h with @⟨s, t, index, _ | record, hsame⟩ | ⟨_ | record, hf, hg⟩
  · generalize hp : (between s index none).pull? = p
    have houtcome := outcome s index
    rw [hp] at houtcome
    cases houtcome with
    | frame frame hindex hout hfree hsamples =>
        subst hindex
        obtain ⟨next, hout', hnext⟩ := hsame.handsOut hout
        rw [pull?_of_sync frame.index hout' hfree hsamples]
        exact .some ⟨rfl, .running _ _ hnext⟩
    | lastFrame frame hindex hout hfree hsamples hend hfin hasked =>
        subst hindex
        obtain ⟨stop, hout', hstop⟩ := hsame.handsOut hout
        rw [← hsamples] at hfree
        rw [pull?_of_end frame.index hout' (hstop.item_eq.trans hend) hfree, hsamples]
        exact .some ⟨rfl, .ended _ hfin rfl⟩
    | failure hout hfree herr hfin hasked =>
        obtain ⟨stop, hout', hstop⟩ := hsame.handsOut hout
        rw [pull?_of_failure index hout' (hstop.item_eq.trans herr) hfree]
        exact .some ⟨rfl, .ended _ hfin rfl⟩
    | never hnever =>
        rw [(hnever.congr hsame).pull?_eq_none]
        exact .none
  · exact .some ⟨rfl, .running index none hsame⟩
  · rw [pull?_of_finished hf, pull?_of_finished hg]
    exact .some ⟨rfl, .ended none hf hg⟩
  · exact .some ⟨rfl, .ended none hf hg⟩

/-! ## A run -/

/-- **A decoder is lazy and fused over any source.** Of any samples that come
first it gives the events of the frames that they complete, whatever comes
after them; if nothing comes, those of all their frames, and if a failure
comes, that failure, and from then on nothing. What it answers depends only
on the samples up to the first answer that is none, and on that answer: over
any other source that begins so it answers the same. Each pull takes from the
source what its answer needs, up to the sync pattern of the frame or up to the
end, and nothing for a record or for no answer. The source is not asked again
after its first answer that is no sample, though it may have more to give. A
decoder that answered nothing stays as it is and does so for ever. All that
keeps a pull from coming back is a source that hands out samples for ever and
no sync pattern among them. -/
theorem lazy_and_fused (source : σ) :
    let decoder := ofSource source
    (∀ samples now, HandsOut source samples now →
        (∃ d, Gives pull? decoder (completeEvents samples) d)
          ∧ ((Source.pull now).item = none → ∃ d, Gives pull? decoder (decodeCapture samples) d
            ∧ d.pull? = some ⟨none, [], d⟩)
          ∧ ∀ error, (Source.pull now).item = some (.error error) →
            ∃ failing log d, Gives pull? decoder (completeEvents samples) failing
              ∧ failing.pull? = some ⟨some (.error error), log, d⟩
              ∧ d.pull? = some ⟨none, [], d⟩)
      ∧ (∀ (τ : Type) [Source τ UInt8] (other : τ), SameUntilStop source other →
        ∀ n, items? pull? n decoder = items? pull? n (ofSource other))
      ∧ ∀ n d, after? pull? n decoder = some d →
        (∃ asked, d.source = after asked source ∧ ∀ k, k + 1 < asked →
            ∃ sample, (Source.pull (after k source)).item = some (.ok sample))
          ∧ (d.pull? = none
            ↔ d.pending = none ∧ d.frames.finished = false ∧ NeverSyncs d.source)
          ∧ ∀ p, d.pull? = some p → Takes d.source p.item p.next.source
            ∧ (p.item = none → p = ⟨none, [], d⟩
              ∧ ∀ m, items? pull? m d = some (List.replicate m none)) := by
  intro decoder
  refine ⟨fun samples now hout => ⟨?_, fun hend => ?_, fun error herr => ?_⟩,
    fun τ _ other hsame n => ?_, fun n d hd => ?_⟩
  · obtain ⟨next, index, last, -, hevents, -⟩ := gives_completeEvents hout
    exact ⟨_, hevents⟩
  · obtain ⟨d, hevents, -, hended⟩ := gives_decodeCapture hout hend
    exact ⟨d, hevents, hended⟩
  · obtain ⟨failing, log, d, hevents, hfailing, -, hended⟩ := gives_failed hout herr
    exact ⟨failing, log, d, hevents, hfailing, hended⟩
  · exact items?_congr (fun _ _ h => Alike.pull? h) (.running 0 none hsame) n
  · have hfirst : Stands source decoder := .running 0 none (.nil source)
    have hstands : Stands source d :=
      after?_induction (fun _ _ h hp => (h.takes hp).2.1) hfirst hd
    refine ⟨hstands.asked, hstands.pull?_eq_none_iff, fun p hp => ?_⟩
    obtain ⟨htakes, -, hnothing⟩ := hstands.takes hp
    refine ⟨htakes, fun hitem => ⟨hnothing hitem, items?_of_fixed hp hitem ?_⟩⟩
    rw [hnothing hitem]

/-- A source that has more to give behind its end, one that hands out the same
frame with its record for ever, and one that hands out the same sample for
ever. -/
theorem lazy_and_fused_without_end :
    let frame (index : Nat) : Event :=
      .frame { index, waveformLength := 25, bitsLength := 11, residue := 1 }
    let lastFrame : Event :=
      .frame { index := 1, waveformLength := 1, bitsLength := 0, residue := 0 }
    let record : Event := .record
      { kind := .addressMark, length := 1, check := some 15761, payload := [0xfe] }
    let samples : List UInt8 := [39, 53, 53, 53, 53, 39, 39, 106, 40]
    let later : List (Option (Except CaptureError UInt8)) :=
      [some (.ok 106), some (.ok 40), some (.error (.io "late"))]
    let ending : Script UInt8 := ⟨(Script.ofItems samples).answers ++ none :: later⟩
    let repeating := Tape.ofItems fun i => samples[i % 9]!
    let silent := Tape.ofItems fun _ => (80 : UInt8)
    items? pull? 5 (ofSource ending)
        = some [some (.ok (frame 0)), some (.ok record), some (.ok lastFrame), none, none]
      ∧ (∀ n d, after? pull? n (ofSource ending) = some d → later <:+ d.source.answers)
      ∧ items? pull? 4 (ofSource repeating)
        = some [some (.ok (frame 0)), some (.ok record), some (.ok (frame 1)), some (.ok record)]
      ∧ (ofSource silent).pull? = none := by
  intro frame lastFrame record samples later ending repeating silent
  have htaken := Script.handsOut_append samples (none :: later)
  have htwice := Tape.handsOut (fun i => samples[i % 9]!) 18
  have hevents : decodeCapture samples = [frame 0, record, lastFrame] := by decide +kernel
  have htwiceEvents : completeEvents ((List.range 18).map fun i => samples[i % 9]!)
      = [frame 0, record, frame 1, record] := by decide +kernel
  obtain ⟨hends, -, hruns⟩ := lazy_and_fused ending
  obtain ⟨hrepeats, -⟩ := lazy_and_fused repeating
  obtain ⟨-, -, hsilent⟩ := lazy_and_fused silent
  refine ⟨?_, fun n d hd => ?_, ?_, ?_⟩
  · obtain ⟨d, hgives, hended⟩ := (hends samples _ htaken).2.1 rfl
    rw [hevents] at hgives
    have hpulls := hgives.items? 2
    rw [items?_of_fixed hended rfl rfl] at hpulls
    exact hpulls
  · -- the tenth answer is no sample, so there is no eleventh
    obtain ⟨⟨asked, hsource, hasked⟩, -⟩ := hruns n d hd
    have hfew : asked ≤ 10 := by
      refine Nat.le_of_not_lt fun hmore => ?_
      obtain ⟨sample, hsample⟩ := hasked 9 hmore
      cases hsample
    rw [hsource, Script.answers_after]
    exact List.drop_suffix_drop_left ending.answers hfew
  · obtain ⟨d, hgives⟩ := (hrepeats _ _ htwice).1
    rw [htwiceEvents] at hgives
    exact hgives.items? 0
  · obtain ⟨-, hnever, -⟩ := hsilent 0 _ rfl
    refine hnever.mpr ⟨rfl, rfl, fun n => ⟨_, _, by simp, Tape.handsOut _ n, fun hsync => ?_⟩⟩
    have hmem := hsync.subset (List.mem_cons_self .. : 8 ∈ syncPattern)
    obtain ⟨sample, hsample, hperiod⟩ := List.mem_map.mp hmem
    obtain ⟨i, -, rfl⟩ := List.mem_map.mp hsample
    exact absurd hperiod (show quantize 80 ≠ 8 by decide)

end TrackDecoder

end FluxMarks
