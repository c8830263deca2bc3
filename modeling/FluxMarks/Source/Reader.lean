import FluxMarks.Source.Basic

/-!
# Reading samples in chunks

The samples of a capture come from a medium that is read a chunk at a
time. A read may deliver less than was asked for, may be interrupted and
has then to be repeated, may fail, and delivers nothing once the medium
has come to its end. The reader hands the samples out one by one, reads
only when it has none left, and never again after an end or a failure.
-/

namespace FluxMarks

/-- What a medium has in store for a read. -/
inductive ReadStep where
  /-- A stretch of samples that reads can take from, and which no read
  goes beyond. An empty stretch is the end of the medium. -/
  | stretch (samples : List UInt8)
  /-- The read is interrupted before it gets anything. -/
  | interrupted
  | failed (reason : String)
  deriving Repr, DecidableEq

def ReadStep.sampleCount : ReadStep → Nat
  | .stretch samples => samples.length
  | _ => 0

def ReadStep.totalSamples : List ReadStep → Nat
  | [] => 0
  | step :: medium => step.sampleCount + totalSamples medium

/-- The outcome of one read that was not interrupted. -/
inductive ReadOutcome where
  /-- Samples were read; none at the end of the medium. -/
  | samples (chunk : List UInt8)
  | failed (reason : String)
  deriving Repr, DecidableEq

/-- Puts the unread part of a stretch back onto the medium. -/
def putBack (unread : List UInt8) (medium : List ReadStep) : List ReadStep :=
  if unread = [] then medium else .stretch unread :: medium

/-- Reads at most `limit` samples, over any interruptions, and gives what
is left of the medium. -/
def readChunk (limit : Nat) : List ReadStep → ReadOutcome × List ReadStep
  | [] => (.samples [], [])
  | .interrupted :: medium => readChunk limit medium
  | .failed reason :: medium => (.failed reason, medium)
  | .stretch samples :: medium =>
    (.samples (samples.take limit), putBack (samples.drop limit) medium)

/-- The number of samples asked for when nothing else is said. -/
def defaultChunk : Nat := 4096

/-- A medium, the part of the last chunk that was not handed out yet, and
whether the end was reached. -/
structure SampleReader where
  medium : List ReadStep
  /-- The most samples asked for at a time; at least one. -/
  limit : Nat
  buffer : List UInt8
  done : Bool
  deriving Repr, DecidableEq

namespace SampleReader

/-- A reader that has read nothing yet. It asks for one sample at a time
at least. -/
def ofMedium (medium : List ReadStep) (chunk : Nat) : SampleReader :=
  { medium, limit := max chunk 1, buffer := [], done := false }

def refill (r : SampleReader) : Pull SampleReader UInt8 :=
  match readChunk r.limit r.medium with
  | (.failed reason, medium) =>
    ⟨some (.error (.io reason)), [.readFailed (.io reason)],
      { r with medium, done := true }⟩
  | (.samples [], medium) =>
    ⟨none, [.chunkRead 0], { r with medium, done := true }⟩
  | (.samples (sample :: buffer), medium) =>
    ⟨some (.ok sample), [.chunkRead (buffer.length + 1)], { r with medium, buffer }⟩

/-- Hands out the next sample, from the last chunk while that lasts. -/
def pull (r : SampleReader) : Pull SampleReader UInt8 :=
  if r.done then ⟨none, [], r⟩
  else
    match r.buffer with
    | sample :: buffer => ⟨some (.ok sample), [], { r with buffer }⟩
    | [] => r.refill

/-! ## What remains -/

theorem totalSamples_putBack (unread : List UInt8) (medium : List ReadStep) :
    ReadStep.totalSamples (putBack unread medium)
      = unread.length + ReadStep.totalSamples medium := by
  unfold putBack
  split
  · next h => simp [h]
  · simp [ReadStep.totalSamples, ReadStep.sampleCount]

/-- A read moves samples from the medium into its chunk and loses
none. -/
theorem totalSamples_readChunk {limit : Nat} {medium rest : List ReadStep}
    {chunk : List UInt8} (h : readChunk limit medium = (.samples chunk, rest)) :
    chunk.length + ReadStep.totalSamples rest = ReadStep.totalSamples medium := by
  induction medium with
  | nil => simp [readChunk] at h; simp [← h.1, ← h.2]
  | cons step medium ih =>
    cases step with
    | interrupted =>
      have := ih h
      simpa [ReadStep.totalSamples, ReadStep.sampleCount] using this
    | failed reason => simp [readChunk] at h
    | stretch samples =>
      simp only [readChunk, Prod.mk.injEq, ReadOutcome.samples.injEq] at h
      rw [← h.1, ← h.2, totalSamples_putBack]
      simp only [ReadStep.totalSamples, ReadStep.sampleCount, List.length_take,
        List.length_drop]
      omega

def remaining (r : SampleReader) : Nat :=
  r.buffer.length + ReadStep.totalSamples r.medium

theorem remaining_refill_lt {r : SampleReader} {sample : UInt8} (hb : r.buffer = [])
    (h : r.refill.item = some (.ok sample)) :
    r.refill.next.remaining < r.remaining := by
  unfold refill at h ⊢
  split at h
  · simp at h
  · simp at h
  · next first buffer medium heq =>
    have total := totalSamples_readChunk heq
    simp only [List.length_cons] at total
    simp only [remaining, hb, List.length_nil]
    omega

instance : FiniteSource SampleReader UInt8 where
  pull := pull
  remaining := remaining
  remaining_pull_lt r sample h := by
    unfold pull at h ⊢
    split at h
    · simp at h
    · split at h
      · next first buffer hb => simp [*, remaining]
      · next hb => simpa [*] using remaining_refill_lt hb h

end SampleReader

end FluxMarks
