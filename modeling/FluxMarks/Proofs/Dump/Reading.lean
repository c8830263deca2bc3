import FluxMarks.Command.Report
import FluxMarks.Proofs.Dump
import FluxMarks.Proofs.Record

/-!
# Reading the dump back

A line of the dump tells all of a record. Tags and numbers are read field by
field; only the check needs the kind to be read, since `f` stands for none
and is a digit as well (`Record.ofLine?_line`). Lines end where they are made
to, so the dump of a capture gives back everything of its events that a line
shows (`readDump?_dumpText`): of a frame the length of its waveform, of a
record the record.
-/

namespace FluxMarks

open Command (textOfLines)

/-! ## Records -/

def RecordKind.ofTag? : String → Option RecordKind
  | "DM" => some .dataMark
  | "AM" => some .addressMark
  | "??" => some .unknown
  | _ => none

theorem RecordKind.ofTag?_tag (kind : RecordKind) : ofTag? kind.tag = some kind := by
  cases kind <;> rfl

/-- Reads what is written for the check of a record of some kind. -/
def RecordKind.readCheck? (kind : RecordKind) (text : String) : Option (Option Nat) :=
  match kind with
  | .unknown => if text = "f" then some none else none
  | .dataMark | .addressMark => (Hex.nat? text).map some

/-- The record that the fields of a line tell of. -/
def Record.ofFields? : List String → Option Record
  | ["6", tag, length, check, payload] => do
    let kind ← RecordKind.ofTag? tag
    let length ← decimal? length
    let check ← kind.readCheck? check
    let payload ← Hex.bytes? payload
    return { kind, length, check, payload }
  | _ => none

def Record.ofLine? (line : String) : Option Record :=
  Record.ofFields? (fieldsOf line)

/-- A check that is there exactly if the kind of the record has one. -/
theorem Record.readCheck?_checkText {r : Record} (h : r.check = r.kind.check? r.payload) :
    r.kind.readCheck? r.checkText = some r.check := by
  by_cases hkind : r.kind = .unknown
  · rw [hkind] at h ⊢
    simp [checkText, h, RecordKind.check?, RecordKind.readCheck?]
  · obtain ⟨check, hcheck⟩ := RecordKind.exists_check?_eq hkind r.payload
    have hread := Hex.nat?_ofNatPadded r.kind.checkDigits check
    rw [checkText, h, hcheck]
    cases hmark : r.kind with
    | unknown => exact absurd hmark hkind
    | addressMark => rw [hmark] at hread; simp [RecordKind.readCheck?, hread]
    | dataMark => rw [hmark] at hread; simp [RecordKind.readCheck?, hread]

theorem Record.ofFields?_fields {r : Record} (h : r.check = r.kind.check? r.payload) :
    Record.ofFields? r.fields = some r := by
  simp only [ofFields?, fields, RecordKind.ofTag?_tag, decimal?_toString, readCheck?_checkText h,
    Hex.bytes?_ofBytes, Option.bind_eq_bind, Option.bind_some]
  rfl

theorem Record.payload_ne_nil_of_classify? {bytes : List UInt8} {r : Record}
    (h : classify? bytes = some r) : r.payload ≠ [] := by
  obtain ⟨mark, rest, rfl, -, -, hpayload, -⟩ := parts_of_classify? h
  obtain ⟨n, hspan⟩ := r.kind.exists_span_eq_succ
  rw [hpayload, hspan]
  exact List.cons_ne_nil _ _

theorem Record.ofLine?_line {bytes : List UInt8} {r : Record} (h : classify? bytes = some r) :
    Record.ofLine? r.line = some r := by
  obtain ⟨-, -, -, -, -, -, hcheck⟩ := parts_of_classify? h
  rw [ofLine?, fieldsOf_line (payload_ne_nil_of_classify? h), ofFields?_fields hcheck]

/-! ## Checks -/

/-- The text that stands for the check of a record of some kind: fourteen
digits, four digits, or no check. -/
def RecordKind.WritesCheck (kind : RecordKind) (text : String) : Prop :=
  match kind with
  | .dataMark => text.length = 14 ∧ ∀ c ∈ text.toList, Hex.IsDigit c
  | .addressMark => text.length = 4 ∧ ∀ c ∈ text.toList, Hex.IsDigit c
  | .unknown => text = "f"

/-- A remainder fits into the digits that it is written with. Of the register
of the sector check that is true only because nothing ever stays in its upper
part. -/
theorem Record.writesCheck_checkText {r : Record} (h : r.check = r.kind.check? r.payload) :
    r.kind.WritesCheck r.checkText := by
  cases hkind : r.kind with
  | unknown =>
      rw [hkind] at h
      rw [checkText, h]
      rfl
  | addressMark =>
      rw [hkind] at h
      rw [checkText, h, hkind]
      exact ⟨Hex.length_ofNatPadded (BitVec.isLt _), fun _ => Hex.isDigit_of_mem_ofNatPadded⟩
  | dataMark =>
      rw [hkind] at h
      rw [checkText, h, hkind]
      refine ⟨Hex.length_ofNatPadded ?_, fun _ => Hex.isDigit_of_mem_ofNatPadded⟩
      rw [Ecc56.toNat_checksum]
      exact BitVec.isLt _

/-! ## Events -/

/-- What a line of the dump shows of an event. -/
inductive Shown where
  | frame (waveformLength : Nat)
  | record (record : Record)
  deriving Repr, DecidableEq

def Event.shown : Event → Shown
  | .frame d => .frame d.waveformLength
  | .record r => .record r

def Shown.ofLine? (line : String) : Option Shown :=
  match fieldsOf line with
  | ["4", length] => (decimal? length).map .frame
  | fields => (Record.ofFields? fields).map .record

theorem exists_classify?_of_mem_decodeCapture {samples : List UInt8} {r : Record}
    (h : Event.record r ∈ decodeCapture samples) :
    ∃ bytes, Record.classify? bytes = some r := by
  obtain ⟨frame, -, hframe⟩ := List.mem_flatMap.mp h
  rw [Frame.events, List.mem_cons] at hframe
  rcases hframe with heq | hrecord
  · cases heq
  · obtain ⟨r', hr', heq⟩ := Option.map_eq_some_iff.mp (Option.mem_toList.mp hrecord)
    cases heq
    exact ⟨_, hr'⟩

theorem Shown.ofLine?_line {samples : List UInt8} {event : Event}
    (h : event ∈ decodeCapture samples) : Shown.ofLine? event.line = some event.shown := by
  cases event with
  | frame d =>
      show Shown.ofLine? d.line = _
      simp only [ofLine?, d.fieldsOf_line, decimal?_toString]
      rfl
  | record r =>
      obtain ⟨bytes, hr⟩ := exists_classify?_of_mem_decodeCapture h
      have hread := Record.ofLine?_line hr
      have hfields := Record.fieldsOf_line (Record.payload_ne_nil_of_classify? hr)
      rw [Record.ofLine?, hfields] at hread
      show Shown.ofLine? r.line = _
      rw [ofLine?, hfields]
      show (Record.ofFields? r.fields).map Shown.record = _
      rw [hread]
      rfl

/-! ## Lines -/

/-- The lines of a text in which every line has its end. -/
def linesOf (text : String) : List String :=
  (text.toList.splitOn '\n').dropLast.map String.ofList

theorem linesOf_textOfLines {lines : List String} (h : ∀ line ∈ lines, '\n' ∉ line.toList) :
    linesOf (textOfLines lines) = lines := by
  induction lines with
  | nil => rfl
  | cons line rest ih =>
      have hline := h line (List.mem_cons_self ..)
      have hrest := ih fun other hother => h other (List.mem_cons_of_mem _ hother)
      have hcut : (textOfLines (line :: rest)).toList
          = line.toList ++ '\n' :: (textOfLines rest).toList := by
        simp [textOfLines]
      rw [linesOf, hcut, List.splitOn_append_cons_self_of_not_mem hline,
        List.dropLast_cons_of_ne_nil (List.splitOn_ne_nil _ _), List.map_cons,
        String.ofList_toList]
      exact congrArg (line :: ·) hrest

/-- The dump of a capture. -/
def dumpText (samples : List UInt8) : String :=
  textOfLines ((decodeCapture samples).map Event.line)

def readDump? (text : String) : Option (List Shown) :=
  (linesOf text).mapM Shown.ofLine?

theorem mapM_ofLine?_line {events : List Event}
    (h : ∀ event ∈ events, Shown.ofLine? event.line = some event.shown) :
    (events.map Event.line).mapM Shown.ofLine? = some (events.map Event.shown) := by
  induction events with
  | nil => rfl
  | cons event events ih =>
      have hrest := ih fun other hother => h other (List.mem_cons_of_mem _ hother)
      rw [List.map_cons, List.mapM_cons, h event (List.mem_cons_self ..), hrest]
      rfl

theorem readDump?_dumpText (samples : List UInt8) :
    readDump? (dumpText samples) = some ((decodeCapture samples).map Event.shown) := by
  rw [readDump?, dumpText, linesOf_textOfLines newline_not_mem_of_mem_lines]
  exact mapM_ofLine?_line fun _ => Shown.ofLine?_line

/-- **The dump loses nothing of the records.** What a record is can be read
off its line, however long it is: its check is written with all the digits
that its kind has, and as `f` when there is none. So the dump of a capture
tells how long the waveforms of its frames are and which records they hold,
in order, and captures with the same dump have these in common. -/
theorem dump_lossless :
    (∀ mark rest, ∃ r, Record.classify? (mark :: rest) = some r
      ∧ r.kind.WritesCheck r.checkText
      ∧ Record.ofLine? r.line = some r)
    ∧ (∀ samples, readDump? (dumpText samples) = some ((decodeCapture samples).map Event.shown))
    ∧ ∀ a b, dumpText a = dumpText b →
      (decodeCapture a).map Event.shown = (decodeCapture b).map Event.shown := by
  refine ⟨fun mark rest => ?_, readDump?_dumpText, fun a b h => ?_⟩
  · obtain ⟨r, hr, -, -, -, hcheck⟩ := Record.classify?_cons mark rest
    exact ⟨r, hr, Record.writesCheck_checkText hcheck, Record.ofLine?_line hr⟩
  · have ha := readDump?_dumpText a
    rw [h, readDump?_dumpText b] at ha
    exact (Option.some.inj ha).symm

/-- Two frames of seven cells, of which one gives two bits and the other is
noise: that does not show. -/
theorem dump_lossless_seven_cells :
    let a : List UInt8 := [40, 53]
    let b : List UInt8 := [27, 66]
    dumpText a = dumpText b ∧ decodeCapture a ≠ decodeCapture b
      ∧ (decodeCapture a).map Event.shown = (decodeCapture b).map Event.shown := by
  intro a b
  have ha : decodeCapture a
      = [.frame { index := 0, waveformLength := 7, bitsLength := 2, residue := 1 }] := by
    decide +kernel
  have hb : decodeCapture b
      = [.frame { index := 0, waveformLength := 7, bitsLength := 0, residue := 5 }] := by
    decide +kernel
  have hsame : dumpText a = dumpText b := by
    rw [dumpText, dumpText, ha, hb]
    rfl
  exact ⟨hsame, by rw [ha, hb]; decide, dump_lossless.2.2 a b hsame⟩

end FluxMarks
