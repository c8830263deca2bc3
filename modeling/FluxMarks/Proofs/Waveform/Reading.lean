import Mathlib.Data.Set.Function
import FluxMarks.Proofs.Waveform

/-!
# Reading drawings

Periods and closed waveforms are the same thing in two forms. Read off a
drawing of theirs, periods are what they were, but for a zero, which looks
like a one (`periods_ofPeriods`). A text is accepted exactly if it is a
closed waveform written out (`parse_eq_ok_iff`), and such a waveform is the
drawing of its periods. A program that counts in 32 bits has room for a
period as long as the gaps before its transition do not fill the counter
(`runsShorterThan_iff`), and then counts right (`map_toNat_countedPeriods`).
-/

namespace FluxMarks

theorem Cell.symbol_of_ofSymbol? {c : Char} {cell : Cell} (h : Cell.ofSymbol? c = some cell) :
    cell.symbol = c := by
  unfold Cell.ofSymbol? at h
  split at h
  · next hc => rw [← Option.some.inj h, hc]; rfl
  · split at h
    · next hc => rw [← Option.some.inj h, hc]; rfl
    · cases h

namespace Waveform

/-! ## Periods of drawings -/

theorem periodsFrom_replicate_append (gaps n : Nat) (cells : List Cell) :
    periodsFrom gaps (List.replicate n .gap ++ cells) = periodsFrom (gaps + n) cells := by
  induction n generalizing gaps with
  | zero => rfl
  | succ n ih =>
      rw [List.replicate_succ, List.cons_append, periodsFrom, ih, Nat.add_assoc, Nat.add_comm 1]

theorem periodsFrom_flatMap_periodCells (ps : List Nat) :
    periodsFrom 0 (ps.flatMap periodCells) = ps.map (max · 1) := by
  induction ps with
  | nil => rfl
  | cons p ps ih =>
      rw [List.flatMap_cons, periodCells, List.append_assoc, periodsFrom_replicate_append,
        List.singleton_append, periodsFrom, ih, List.map_cons]
      congr 1
      omega

/-- A period of zero is read as one. -/
theorem periods_ofPeriods {ps : List Nat} (h : ps ≠ []) :
    (ofPeriods ps).periods = ps.map (max · 1) := by
  obtain ⟨p, rest, rfl⟩ := List.exists_cons_of_ne_nil h
  rw [periods, if_pos (isClosed_ofPeriods _)]
  exact periodsFrom_flatMap_periodCells (p :: rest)

theorem pos_of_mem_periodsFrom {gaps p : Nat} {cells : List Cell}
    (h : p ∈ periodsFrom gaps cells) : 1 ≤ p := by
  fun_induction periodsFrom gaps cells with
  | case1 => cases h
  | case2 gaps cells ih => exact ih h
  | case3 gaps cells ih =>
      rcases List.mem_cons.mp h with rfl | h
      · omega
      · exact ih h

/-! ## Texts of drawings -/

theorem map_symbol_of_readCells {symbols : List Char} {cells : List Cell}
    (h : readCells symbols = .ok cells) : cells.map Cell.symbol = symbols := by
  induction symbols generalizing cells with
  | nil => rw [← Except.ok.inj h]; rfl
  | cons c rest ih =>
      rw [readCells] at h
      cases hcell : Cell.ofSymbol? c with
      | none => rw [hcell] at h; cases h
      | some cell =>
          rw [hcell] at h
          cases hrest : readCells rest with
          | error fault => rw [hrest] at h; cases h
          | ok more =>
              rw [hrest] at h
              rw [← Except.ok.inj h, List.map_cons, Cell.symbol_of_ofSymbol? hcell, ih hrest]

theorem parse_eq_ok_iff {text : String} {w : Waveform} :
    parse text = .ok w ↔ w.isClosed = true ∧ w.text = text := by
  constructor
  · intro h
    rw [parse] at h
    cases hread : readCells text.toList with
    | error fault => rw [hread] at h; cases h
    | ok cells =>
        rw [hread, Except.bind, ofCells] at h
        split at h
        · next hclosed =>
            obtain rfl := Except.ok.inj h
            exact ⟨hclosed, by rw [Waveform.text, Cell.draw, map_symbol_of_readCells hread,
              String.ofList_toList]⟩
        · cases h
  · rintro ⟨hclosed, rfl⟩
    exact parse_text hclosed

/-! ## Runs of gaps -/

/-- Nowhere are there so many gaps in a row. -/
def RunsShorterThan (n : Nat) (w : Waveform) : Prop := ¬List.replicate n .gap <:+: w.cells

theorem getLast?_of_gap_cons {cells : List Cell}
    (h : (Cell.gap :: cells).getLast? = some .transition) :
    cells.getLast? = some .transition := by
  cases cells with
  | nil => cases h
  | cons cell cells => rwa [List.getLast?_cons_cons] at h

/-- The gaps under way belong to a period, and with its transition that is
longer. -/
theorem exists_mem_periodsFrom_gt {cells : List Cell} (h : cells.getLast? = some .transition)
    (gaps : Nat) : ∃ p ∈ periodsFrom gaps cells, gaps < p := by
  fun_induction periodsFrom gaps cells with
  | case1 => cases h
  | case2 gaps cells ih =>
      obtain ⟨p, hp, hlt⟩ := ih (getLast?_of_gap_cons h)
      exact ⟨p, hp, Nat.lt_of_succ_lt hlt⟩
  | case3 gaps cells ih => exact ⟨gaps + 1, List.mem_cons_self .., Nat.lt_succ_self gaps⟩

/-- A run of gaps makes the period that it belongs to longer than itself. -/
theorem exists_mem_periodsFrom_of_infix {cells : List Cell} {n : Nat}
    (h : cells.getLast? = some .transition) (hn : 0 < n) (hrun : List.replicate n .gap <:+: cells)
    (gaps : Nat) : ∃ p ∈ periodsFrom gaps cells, n < p := by
  obtain ⟨before, after, rfl⟩ := hrun
  have hafter : after.getLast? = some .transition := by
    rw [List.getLast?_append, List.getLast?_append, List.getLast?_replicate,
      if_neg (Nat.ne_of_gt hn)] at h
    cases hlast : after.getLast? with
    | none => rw [hlast] at h; cases h
    | some cell => rwa [hlast] at h
  clear h
  -- whatever is ahead of the run only lengthens the period, or ends others before it
  induction before generalizing gaps with
  | nil =>
      rw [List.nil_append, periodsFrom_replicate_append]
      obtain ⟨p, hp, hlt⟩ := exists_mem_periodsFrom_gt hafter (gaps + n)
      exact ⟨p, hp, Nat.lt_of_le_of_lt (Nat.le_add_left n gaps) hlt⟩
  | cons cell before ih =>
      cases cell with
      | gap => exact ih (gaps + 1)
      | transition =>
          obtain ⟨p, hp, hlt⟩ := ih 0
          exact ⟨p, List.mem_cons_of_mem _ hp, hlt⟩

/-- Runs of gaps are shorter than a period may be long, since the transition
that ends the period counts as well. -/
theorem runsShorterThan_iff {w : Waveform} (h : w.isClosed = true) {n : Nat} (hn : 0 < n) :
    w.RunsShorterThan n ↔ ∀ p ∈ w.periods, p ≤ n := by
  constructor
  · intro hshort p hp
    refine Nat.le_of_not_lt fun hlong => hshort ?_
    have hrun : List.replicate n .gap <:+: periodCells p := by
      obtain ⟨more, rfl⟩ := Nat.exists_eq_add_of_lt hlong
      refine ⟨[], List.replicate more .gap ++ [.transition], ?_⟩
      rw [List.nil_append, ← List.append_assoc, List.replicate_append_replicate, periodCells,
        Nat.add_sub_cancel]
    have hdrawn : periodCells p <:+: w.cells := by
      rw [← flatMap_periodCells_periods h, List.flatMap_def]
      exact List.infix_of_mem_flatten (List.mem_map_of_mem hp)
    exact hrun.trans hdrawn
  · intro hbound hrun
    obtain ⟨p, hp, hlong⟩ := exists_mem_periodsFrom_of_infix (isClosed_iff.mp h) hn hrun 0
    rw [periods, if_pos h] at hbound
    exact Nat.not_lt.mpr (hbound p hp) hlong

/-- Every period fits into 32 bits exactly if no run of gaps fills them. -/
theorem runsShorterThan_iff_fits {w : Waveform} (h : w.isClosed = true) :
    w.RunsShorterThan (UInt32.size - 1) ↔ ∀ p ∈ w.periods, p < UInt32.size := by
  rw [runsShorterThan_iff h (by decide)]
  exact forall₂_congr fun p _ => Nat.le_sub_one_iff_lt (by decide)

/-! ## Counting in words -/

/-- The periods as a program finds them that counts in 32 bits: it takes off
the closing transition, cuts the rest at the others, and counts the gaps of
each run and one more. -/
def countedPeriods (w : Waveform) : List UInt32 :=
  if w.isClosed then
    (w.cells.dropLast.splitOn .transition).map fun run => UInt32.ofNat run.length + 1
  else []

/-- Periods are the runs that transitions cut out, each with its own
transition. The gaps under way are the beginning of the first run. -/
theorem periodsFrom_eq_map_splitOn (gaps : Nat) (cells : List Cell) :
    periodsFrom gaps (cells ++ [.transition])
      = ((List.replicate gaps Cell.gap ++ cells).splitOn .transition).map
        fun run => run.length + 1 := by
  have hgaps : ∀ n, Cell.transition ∉ List.replicate n .gap := by simp
  induction cells generalizing gaps with
  | nil =>
      rw [List.append_nil, List.splitOn_eq_singleton (hgaps gaps), List.map_singleton,
        List.length_replicate]
      rfl
  | cons cell cells ih =>
      cases cell with
      | gap =>
          rw [List.cons_append, periodsFrom, ih, List.replicate_succ', List.append_assoc]
          rfl
      | transition =>
          rw [List.cons_append, periodsFrom, ih,
            List.splitOn_append_cons_self_of_not_mem (hgaps gaps), List.map_cons,
            List.length_replicate]
          rfl

theorem map_toNat_countedPeriods {w : Waveform} (h : ∀ p ∈ w.periods, p < UInt32.size) :
    w.countedPeriods.map UInt32.toNat = w.periods := by
  by_cases hclosed : w.isClosed = true
  · obtain ⟨body, hbody⟩ := List.getLast?_eq_some_iff.mp (isClosed_iff.mp hclosed)
    have hruns : w.periods = (body.splitOn .transition).map fun run => run.length + 1 := by
      rw [periods, if_pos hclosed, hbody]
      exact periodsFrom_eq_map_splitOn 0 body
    rw [hruns] at h ⊢
    rw [countedPeriods, if_pos hclosed, hbody, List.dropLast_concat, List.map_map]
    refine List.map_congr_left fun run hrun => ?_
    have hfits : run.length + 1 < UInt32.size := h _ (List.mem_map_of_mem hrun)
    show (UInt32.ofNat run.length + 1).toNat = run.length + 1
    rw [UInt32.toNat_add, UInt32.toNat_ofNat', Nat.mod_eq_of_lt (Nat.lt_of_succ_lt hfits)]
    exact Nat.mod_eq_of_lt hfits
  · rw [countedPeriods, periods, if_neg hclosed, if_neg hclosed]
    rfl

/-! ## Both ways -/

theorem runsShorterThan_ofPeriods {ps : List Nat} (h : ∀ p ∈ ps, p < UInt32.size) :
    (ofPeriods ps).RunsShorterThan (UInt32.size - 1) := by
  rw [runsShorterThan_iff_fits (isClosed_ofPeriods ps)]
  cases ps with
  | nil => decide
  | cons first rest =>
      rw [periods_ofPeriods (List.cons_ne_nil _ _)]
      intro q hq
      obtain ⟨p, hp, rfl⟩ := List.mem_map.mp hq
      exact Nat.max_lt.mpr ⟨h p hp, by decide⟩

theorem pos_of_mem_periods {w : Waveform} (h : w.isClosed = true) {p : Nat} (hp : p ∈ w.periods) :
    1 ≤ p := by
  rw [periods, if_pos h] at hp
  exact pos_of_mem_periodsFrom hp

/-- Without zeros, drawing and reading undo each other. -/
theorem invOn_ofPeriods {drawings : Set Waveform} {lists : Set (List Nat)}
    (hclosed : ∀ w ∈ drawings, w.isClosed = true)
    (hpos : ∀ ps ∈ lists, ps ≠ [] ∧ ∀ p ∈ ps, 1 ≤ p) :
    Set.InvOn ofPeriods periods drawings lists := by
  refine ⟨fun w hw => ofPeriods_periods (hclosed w hw), fun ps hps => ?_⟩
  obtain ⟨hne, hone⟩ := hpos ps hps
  rw [periods_ofPeriods hne]
  exact (List.map_congr_left fun p hp => Nat.max_eq_left (hone p hp)).trans (List.map_id' ps)

end Waveform

open Waveform

/-- **Drawing and reading are inverse.** Periods that are drawn are read back
with each zero as a one; with no period at all the drawing is a lone
transition, and that is read as a one. The texts that are accepted are the
drawings of periods, and an accepted text is the drawing of the periods
that are read from it. So as long as every period fits into 32 bits, and
runs of gaps are as short as this demands, reading is a bijection between
accepted waveforms and non-empty lists of periods of one or more, and
counting in 32 bits gives the periods as they are. -/
theorem periods_bijOn_drawings :
    (∀ ps : List Nat, ps ≠ [] → (ofPeriods ps).periods = ps.map (max · 1))
    ∧ ((ofPeriods []).text = "|" ∧ (ofPeriods []).periods = [1])
    ∧ (∀ text, (∃ w, parse text = .ok w ∧ w.RunsShorterThan (UInt32.size - 1))
      ↔ ∃ ps : List Nat, (∀ p ∈ ps, p < UInt32.size) ∧ (ofPeriods ps).text = text)
    ∧ (∀ text w, parse text = .ok w →
      w.text = text ∧ (ofPeriods w.periods).text = text
      ∧ (w.RunsShorterThan (UInt32.size - 1) →
        w.countedPeriods.map UInt32.toNat = w.periods))
    ∧ Set.BijOn Waveform.periods
      {w | (∃ text, parse text = .ok w) ∧ w.RunsShorterThan (UInt32.size - 1)}
      {ps | ps ≠ [] ∧ ∀ p ∈ ps, 1 ≤ p ∧ p < UInt32.size} := by
  refine ⟨fun ps => periods_ofPeriods, ⟨rfl, rfl⟩, fun text => ⟨?_, ?_⟩, ?_, ?_⟩
  · rintro ⟨w, hparse, hshort⟩
    obtain ⟨hclosed, rfl⟩ := parse_eq_ok_iff.mp hparse
    exact ⟨w.periods, (runsShorterThan_iff_fits hclosed).mp hshort,
      congrArg Waveform.text (ofPeriods_periods hclosed)⟩
  · rintro ⟨ps, hfits, rfl⟩
    exact ⟨ofPeriods ps, parse_text (isClosed_ofPeriods ps), runsShorterThan_ofPeriods hfits⟩
  · intro text w hparse
    obtain ⟨hclosed, rfl⟩ := parse_eq_ok_iff.mp hparse
    exact ⟨rfl, congrArg Waveform.text (ofPeriods_periods hclosed), fun hshort =>
      map_toNat_countedPeriods ((runsShorterThan_iff_fits hclosed).mp hshort)⟩
  · refine (invOn_ofPeriods ?_ ?_).bijOn ?_ ?_
    · rintro w ⟨⟨text, hparse⟩, -⟩
      exact (parse_eq_ok_iff.mp hparse).1
    · rintro ps ⟨hne, hrange⟩
      exact ⟨hne, fun p hp => (hrange p hp).1⟩
    · rintro w ⟨⟨text, hparse⟩, hshort⟩
      obtain ⟨hclosed, -⟩ := parse_eq_ok_iff.mp hparse
      exact ⟨periods_ne_nil hclosed, fun p hp => ⟨pos_of_mem_periods hclosed hp,
        (runsShorterThan_iff_fits hclosed).mp hshort p hp⟩⟩
    · rintro ps ⟨-, hrange⟩
      exact ⟨⟨_, parse_text (isClosed_ofPeriods ps)⟩,
        runsShorterThan_ofPeriods fun p hp => (hrange p hp).2⟩

/-- A zero, a three and a one, drawn and read; and a text that no periods
draw, since no transition closes it. -/
theorem periods_bijOn_drawings_zero_period :
    let ps := [0, 3, 1]
    ps ≠ [] ∧ (∀ p ∈ ps, p < UInt32.size)
      ∧ (ofPeriods ps).text = "|--||"
      ∧ (ofPeriods ps).periods = [1, 3, 1]
      ∧ (∃ w, parse "|--||" = .ok w ∧ w.RunsShorterThan (UInt32.size - 1)
        ∧ (ofPeriods w.periods).text = "|--||"
        ∧ w.countedPeriods.map UInt32.toNat = w.periods)
      ∧ ¬∃ qs : List Nat, (∀ q ∈ qs, q < UInt32.size) ∧ (ofPeriods qs).text = "--|--" := by
  intro ps
  obtain ⟨hread, -, haccept, hdrawn, -⟩ := periods_bijOn_drawings
  have hne : ps ≠ [] := by decide
  have hfits : ∀ p ∈ ps, p < UInt32.size := by decide
  have htext : (ofPeriods ps).text = "|--||" := by decide
  obtain ⟨w, hparse, hshort⟩ := (haccept "|--||").mpr ⟨ps, hfits, htext⟩
  obtain ⟨-, htext', hcounted⟩ := hdrawn "|--||" w hparse
  refine ⟨hne, hfits, htext, hread ps hne, ⟨w, hparse, hshort, htext', hcounted hshort⟩, ?_⟩
  intro hopen
  obtain ⟨v, hv, -⟩ := (haccept "--|--").mpr hopen
  have hfault : parse "--|--" = .error .notClosed := by decide
  cases hfault.symm.trans hv

end FluxMarks
