import Mathlib.Data.List.Chain
import FluxMarks.Proofs.Code.RoundTrip
import FluxMarks.Proofs.Frame

/-!
# How far apart transitions lie

Periods reach across the borders of code words: from the last transition of
one word to the first of the next. What carries over a border is how many
gaps a word ends in, two or three, and this decides which periods can come
next (`Spaced`). A period of eight takes three gaps before the border and
four after it; only one word starts with four, and that word ends in three
again, so at least four cells follow. This is why no encoded frame contains
a sync pattern (`Spaced.syncFree`).
-/

namespace FluxMarks

open CodeWord Waveform

/-- The periods that the transitions of a code can be apart, where so many
gaps precede the first of them. -/
structure Spaced (gaps : Nat) (periods : List Nat) : Prop where
  first : ∃ p ∈ periods.head?, gaps + 1 ≤ p ∧ p ≤ gaps + 5
  range : ∀ p ∈ periods, 3 ≤ p ∧ p ≤ 8
  apart : periods.IsChain fun p q => p = 8 → 4 ≤ q
  last : ∃ p ∈ periods.getLast?, p = 3 ∨ p = 4

/-- A transition before spaced ones, with the gaps after it. Only three
gaps may follow on a period of eight. -/
theorem Spaced.cons {gaps trail period : Nat} {periods : List Nat}
    (h : Spaced trail periods)
    (hperiod : gaps + 1 ≤ period ∧ period ≤ gaps + 5 ∧ 3 ≤ period ∧ period ≤ 8
      ∧ (period = 8 → trail = 3)) :
    Spaced gaps (period :: periods) := by
  obtain ⟨hlow, hhigh, hthree, height, hlong⟩ := hperiod
  obtain ⟨next, hnext, hnext_low, -⟩ := h.first
  obtain ⟨rest, rfl⟩ : ∃ rest, periods = next :: rest := by
    cases periods with
    | nil => cases hnext
    | cons p rest => exact ⟨rest, by rw [Option.some.inj hnext]⟩
  refine ⟨⟨period, rfl, hlow, hhigh⟩, ?_, ?_, ?_⟩
  · intro p hp
    rcases List.mem_cons.mp hp with rfl | hp
    · exact ⟨hthree, height⟩
    · exact h.range p hp
  · refine List.IsChain.cons_cons (fun hp => ?_) h.apart
    have := hlong hp
    omega
  · rw [List.getLast?_cons_cons]
    exact h.last

/-- The periods of words and the closing transition. The induction is on
the words; what one leaves to the next is the number of gaps it ends in. -/
theorem spaced_words {words : List CodeWord} (h : words ⊆ table) {gaps : Nat}
    (hgaps : gaps = 2 ∨ gaps = 3) :
    Spaced gaps (periodsFrom gaps (words.flatMap pattern ++ [.transition])) := by
  induction words generalizing gaps with
  | nil =>
      refine ⟨⟨gaps + 1, rfl, by omega, by omega⟩, ?_, List.isChain_singleton _,
        gaps + 1, rfl, by omega⟩
      intro p hp
      obtain rfl := List.mem_singleton.mp hp
      omega
  | cons word words ih =>
      obtain ⟨hword, hwords⟩ := List.cons_subset.mp h
      have htwo := ih hwords (Or.inl rfl)
      have hthree := ih hwords (Or.inr rfl)
      -- a word ends in two gaps or in three, and that is all the next one sees
      simp only [table, List.mem_cons, List.not_mem_nil, or_false] at hword
      rcases hword with rfl | rfl | rfl | rfl | rfl | rfl | rfl
      · exact htwo.cons (by omega)
      · exact hthree.cons (by omega)
      · have hinner : Spaced 2 (3 :: _) := htwo.cons (by omega)
        exact hinner.cons (by omega)
      · exact htwo.cons (by omega)
      · exact hthree.cons (by omega)
      · have hinner : Spaced 2 (3 :: _) := htwo.cons (by omega)
        exact hinner.cons (by omega)
      · exact hthree.cons (by omega)

/-- Spaced periods contain no sync pattern: after eight comes at least
four. -/
theorem Spaced.syncFree {gaps : Nat} {periods : List Nat} (h : Spaced gaps periods) :
    SyncFree periods := by
  intro hsync
  have hchain := h.apart.infix hsync
  simp [syncPattern] at hchain

/-- The periods of an encoded frame. The lead-in counts as two gaps that
the sync pattern left. -/
theorem spaced_frameCells (bits : List Bool) :
    Spaced 2 (Waveform.periods ⟨frameCells bits⟩) := by
  obtain ⟨words, -, hsub, hcells, -⟩ := encodeBits_spec bits
  rw [Waveform.periods, if_pos (isClosed_frameCells bits), frameCells, hcells]
  exact spaced_words hsub (Or.inl rfl)

end FluxMarks
