import FluxMarks.Source.Basic

/-!
# A source of periods

Samples to clock periods, one for one. A failure goes through unchanged
and ends the stage: the source is not asked again. An answer of nothing
goes through as well and does not.
-/

namespace FluxMarks

/-- A source of samples, and whether it has failed. -/
structure Quantizer (σ : Type) where
  source : σ
  failed : Bool

namespace Quantizer

variable {σ : Type}

def ofSource (source : σ) : Quantizer σ :=
  { source, failed := false }

/-- The answer that a running stage makes of its source's answer. -/
def answer : Pull σ UInt8 → Pull (Quantizer σ) Nat
  | ⟨none, log, source⟩ => ⟨none, log, { source, failed := false }⟩
  | ⟨some (.error e), log, source⟩ => ⟨some (.error e), log, { source, failed := true }⟩
  | ⟨some (.ok sample), log, source⟩ =>
    ⟨some (.ok (quantize sample)), log, { source, failed := false }⟩

def pull [Source σ UInt8] (q : Quantizer σ) : Pull (Quantizer σ) Nat :=
  if q.failed then ⟨none, [], q⟩ else answer (Source.pull q.source)

instance [Source σ UInt8] : Source (Quantizer σ) Nat where
  pull := pull

instance [FiniteSource σ UInt8] : FiniteSource (Quantizer σ) Nat where
  remaining q := FiniteSource.remaining q.source
  remaining_pull_lt q period h := by
    change (pull q).item = _ at h
    change FiniteSource.remaining (pull q).next.source < _
    unfold pull at h ⊢
    split at h
    · simp at h
    · next hrun =>
      have law := FiniteSource.remaining_pull_lt q.source
      rw [if_neg hrun]
      revert h law
      rcases Source.pull q.source with ⟨_ | _ | sample, log, source⟩
      · simp [answer]
      · simp [answer]
      · intro _ law
        exact law sample rfl

end Quantizer

end FluxMarks
