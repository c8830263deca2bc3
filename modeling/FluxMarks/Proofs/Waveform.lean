import FluxMarks.Waveform

/-!
# Periods and drawings

A closed waveform is the drawing of its periods, so nothing is lost by
going over to periods, as the medium does.
-/

namespace FluxMarks

namespace Waveform

/-- The periods of closed cells, the first of them under way, draw the gaps
so far and then the cells. -/
theorem flatMap_periodCells_periodsFrom {cells : List Cell}
    (h : cells.getLast? = some .transition) (gaps : Nat) :
    (periodsFrom gaps cells).flatMap periodCells = List.replicate gaps .gap ++ cells := by
  induction cells generalizing gaps with
  | nil => cases h
  | cons cell cells ih =>
      cases hcells : cells with
      | nil =>
          rw [hcells, List.getLast?_singleton] at h
          obtain rfl := Option.some.inj h
          simp [periodsFrom, periodCells]
      | cons next rest =>
          have hrest : cells.getLast? = some .transition := by
            rwa [hcells, List.getLast?_cons_cons, ← hcells] at h
          rw [← hcells]
          cases cell with
          | gap => rw [periodsFrom, ih hrest, List.replicate_succ', List.append_assoc]; rfl
          | transition =>
              rw [periodsFrom, List.flatMap_cons, ih hrest]
              simp [periodCells]

theorem periodsFrom_ne_nil {cells : List Cell} (h : cells.getLast? = some .transition)
    (gaps : Nat) : periodsFrom gaps cells ≠ [] := by
  intro hnil
  have hdraw := flatMap_periodCells_periodsFrom h gaps
  rw [hnil, List.flatMap_nil] at hdraw
  rw [(List.append_eq_nil_iff.mp hdraw.symm).2] at h
  cases h

theorem periods_ne_nil {w : Waveform} (h : w.isClosed = true) : w.periods ≠ [] := by
  rw [periods, if_pos h]
  exact periodsFrom_ne_nil (isClosed_iff.mp h) 0

theorem flatMap_periodCells_periods {w : Waveform} (h : w.isClosed = true) :
    w.periods.flatMap periodCells = w.cells := by
  rw [periods, if_pos h]
  exact flatMap_periodCells_periodsFrom (isClosed_iff.mp h) 0

/-- A closed waveform is the drawing of its periods. -/
theorem ofPeriods_periods {w : Waveform} (h : w.isClosed = true) : ofPeriods w.periods = w := by
  obtain ⟨period, rest, hperiods⟩ := List.exists_cons_of_ne_nil (periods_ne_nil h)
  have hdraw := flatMap_periodCells_periods h
  rw [hperiods] at hdraw ⊢
  exact congrArg Waveform.mk hdraw

end Waveform

end FluxMarks
