import Mathlib.Data.List.Infix
import FluxMarks.Event
import FluxMarks.Proofs.Code.Parses
import FluxMarks.Proofs.Record

/-!
# Frames that go on

Whatever follows the first periods of a frame, what was decoded from them
stays. The transition that closes a short frame is drawn where the longer
one has a transition too (`Waveform.isPrefix_drop_leadIn`), words that were
found there are found again before any others, and from then on everything
is made from the front: bits, whole bytes, and the bytes that a record
shows.
-/

namespace FluxMarks

namespace Waveform

/-- The cells that are read from a frame come first among those that are
read from any longer one. A frame without periods has a cell of its own, but
it is not read. -/
theorem isPrefix_drop_leadIn (periods more : List Nat) :
    (ofPeriods periods).cells.drop leadIn <+: (ofPeriods (periods ++ more)).cells.drop leadIn := by
  cases periods with
  | nil => exact List.nil_prefix
  | cons period rest =>
      have hcells : (ofPeriods (period :: rest ++ more)).cells
          = (ofPeriods (period :: rest)).cells ++ more.flatMap periodCells :=
        List.flatMap_append
      rw [hcells]
      exact (List.prefix_append _ _).drop leadIn

end Waveform

theorem CodeWord.isPrefix_readAll_of_isPrefix {cells longer : List Cell} (h : cells <+: longer) :
    (readAll table cells).1 <+: (readAll table longer).1 := by
  obtain ⟨hsub, hcells, -⟩ := readAll_spec table cells
  have hbegin : (readAll table cells).1.flatMap pattern <+: cells := ⟨_, hcells⟩
  exact isPrefix_readAll hsub (hbegin.trans h)

theorem Frame.bits_isPrefix (i j : Nat) (periods more : List Nat) :
    (Frame.mk i periods).decoding.bits <+: (Frame.mk j (periods ++ more)).decoding.bits :=
  have hcells := Waveform.isPrefix_drop_leadIn periods more
  (CodeWord.isPrefix_readAll_of_isPrefix hcells).flatMap CodeWord.bits

theorem byteGroups_isPrefix {bits longer : List Bool} (h : bits <+: longer) :
    byteGroups bits <+: byteGroups longer := by
  obtain ⟨tail, rfl⟩ := h
  fun_induction byteGroups bits with
  | case1 b7 b6 b5 b4 b3 b2 b1 b0 rest ih =>
      simp only [List.cons_append, byteGroups]
      exact List.cons_prefix_cons.mpr ⟨rfl, ih⟩
  | case2 => exact List.nil_prefix

theorem assemble_isPrefix {bits longer : List Bool} (h : bits <+: longer) :
    assemble bits <+: assemble longer :=
  byteGroups_isPrefix (h.drop 1)

/-- More bytes make a longer record of the same kind, and it shows the same
bytes first. -/
theorem Record.classify?_of_isPrefix {bytes longer : List UInt8} (h : bytes <+: longer)
    {r : Record} (hr : classify? bytes = some r) :
    ∃ r', classify? longer = some r' ∧ r'.kind = r.kind ∧ r.length ≤ r'.length
      ∧ r.payload <+: r'.payload := by
  obtain ⟨mark, rest, rfl, hkind, hlength, hpayload, -⟩ := parts_of_classify? hr
  obtain ⟨tail, rfl⟩ := h
  obtain ⟨r', hr', hkind', hlength', hpayload', -⟩ := classify?_cons mark (rest ++ tail)
  have hsame : r'.kind = r.kind := hkind'.trans hkind.symm
  refine ⟨r', hr', hsame, ?_, ?_⟩
  · rw [hlength, hlength', ← List.cons_append, List.length_append]
    exact Nat.le_add_right ..
  · rw [hpayload, hpayload', hsame]
    exact (List.prefix_append (mark :: rest) tail).take r.kind.span

/-- **What follows takes nothing back.** The bits decoded from some periods
are the first of those decoded from the same periods and any others after
them, and so are the bytes; a record that was there becomes one of the same
kind, at least as long, whose payload begins with the old one. So two frames
that begin with the same periods agree on every bit that these are good for,
whatever else they hold. -/
theorem decoding_extends :
    (∀ (periods more : List Nat) (i j : Nat),
      let short : Frame := ⟨i, periods⟩
      let long : Frame := ⟨j, periods ++ more⟩
      short.decoding.bits <+: long.decoding.bits
      ∧ assemble short.decoding.bits <+: assemble long.decoding.bits
      ∧ ∀ r, short.record? = some r →
        ∃ r', long.record? = some r' ∧ r'.kind = r.kind ∧ r.length ≤ r'.length
          ∧ r.payload <+: r'.payload)
    ∧ ∀ (periods more others : List Nat) (i j k : Nat),
      let bits := (Frame.mk i periods).decoding.bits
      (Frame.mk j (periods ++ more)).decoding.bits.take bits.length = bits
      ∧ (Frame.mk k (periods ++ others)).decoding.bits.take bits.length = bits := by
  constructor
  · intro periods more i j short long
    have hbits := Frame.bits_isPrefix i j periods more
    have hbytes := assemble_isPrefix hbits
    exact ⟨hbits, hbytes, fun r hr => Record.classify?_of_isPrefix hbytes hr⟩
  · intro periods more others i j k bits
    have htake (n : Nat) (rest : List Nat) :
        (Frame.mk n (periods ++ rest)).decoding.bits.take bits.length = bits :=
      (List.prefix_iff_eq_take.mp (Frame.bits_isPrefix i n periods rest)).symm
    exact ⟨htake j more, htake k others⟩

/-- An ID field of which one byte is there, then another byte of it; and the
same periods before noise. -/
theorem decoding_extends_address_mark :
    let field : List Nat := [3, 4, 4, 4, 4, 3, 3, 3]
    let r : Record := { kind := .addressMark, length := 1, check := some 15761, payload := [0xfe] }
    (Frame.mk 0 field).record? = some r
      ∧ (∃ r', (Frame.mk 0 (field ++ [5, 4, 7, 4, 3])).record? = some r' ∧ r'.kind = .addressMark
        ∧ 1 ≤ r'.length ∧ [0xfe] <+: r'.payload)
      ∧ (Frame.mk 0 field).decoding.bits.length = 11
      ∧ (Frame.mk 1 (field ++ [5, 4, 7, 4, 3])).decoding.bits.take 11
        = (Frame.mk 2 (field ++ [0, 8, 60])).decoding.bits.take 11 := by
  intro field r
  have hr : (Frame.mk 0 field).record? = some r := by decide +kernel
  have hlen : (Frame.mk 0 field).decoding.bits.length = 11 := by decide +kernel
  obtain ⟨hlonger, hagree⟩ := decoding_extends
  obtain ⟨-, -, hrecord⟩ := hlonger field [5, 4, 7, 4, 3] 0 0
  obtain ⟨hmore, hothers⟩ := hagree field [5, 4, 7, 4, 3] [0, 8, 60] 0 1 2
  rw [hlen] at hmore hothers
  exact ⟨hr, hrecord r hr, hlen, hmore.trans hothers.symm⟩

end FluxMarks
