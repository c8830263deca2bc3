import FluxMarks.Dump
import FluxMarks.Proofs.EventStream
import FluxMarks.Proofs.Text.Hex

/-!
# The fields of a line

A line of the dump can be taken apart again: nothing in it but the blanks
between its fields is a blank, or the end of a line, and no field is empty.
`fieldsOf` reads the fields, over as many blanks as there are, since a number
that is set flush right has some before it, and for the dump of a capture
they are those of its events (`map_fieldsOf_line_decodeCapture`).
-/

namespace FluxMarks

/-! ## Characters -/

/-- A letter, a digit or a question mark. -/
def IsFieldChar (c : Char) : Prop := c.isAlphanum = true ∨ c = '?'

instance : DecidablePred IsFieldChar :=
  fun c => inferInstanceAs (Decidable (c.isAlphanum = true ∨ c = '?'))

theorem IsFieldChar.ne {c d : Char} (hc : IsFieldChar c) (hd : ¬IsFieldChar d) : c ≠ d := by
  rintro rfl
  exact hd hc

theorem Hex.IsDigit.isFieldChar {c : Char} (h : Hex.IsDigit c) : IsFieldChar c :=
  Or.inl h.isAlphanum

/-! ## Numbers -/

theorem toList_toString (n : Nat) : (toString n).toList = Nat.toDigits 10 n := Nat.toList_repr

theorem toList_toString_ne_nil (n : Nat) : (toString n).toList ≠ [] := by
  rw [toList_toString]
  exact Nat.toDigits_ne_nil

theorem isDigit_of_mem_toString {n : Nat} {c : Char} (h : c ∈ (toString n).toList) :
    c.isDigit = true := by
  rw [toList_toString] at h
  exact Nat.isDigit_of_mem_toDigits (by decide) (Nat.le_refl _) h

theorem isAlphanum_of_mem_toString {n : Nat} {c : Char} (h : c ∈ (toString n).toList) :
    c.isAlphanum = true := by
  rw [Char.isAlphanum, isDigit_of_mem_toString h, Bool.or_true]

/-- Reads the number that a nonempty string of decimal digits stands for. -/
def decimal? (text : String) : Option Nat :=
  if text.toList ≠ [] ∧ text.toList.all Char.isDigit then
    some (Nat.ofDigitChars 10 text.toList 0)
  else none

theorem decimal?_toString (n : Nat) : decimal? (toString n) = some n := by
  have hall : (toString n).toList.all Char.isDigit = true :=
    List.all_eq_true.mpr fun _ hc => isDigit_of_mem_toString hc
  rw [decimal?, if_pos ⟨toList_toString_ne_nil n, hall⟩, toList_toString,
    Nat.ofDigitChars_ten_toDigits]

/-! ## Fields -/

/-- A text that is a field of a line: it has no blank in it, and is not
empty. -/
structure IsField (text : String) : Prop where
  ne_nil : text.toList ≠ []
  isFieldChar : ∀ c ∈ text.toList, IsFieldChar c

theorem IsField.blank_not_mem {text : String} (h : IsField text) : ' ' ∉ text.toList :=
  fun hmem => (h.isFieldChar _ hmem).ne (by decide) rfl

theorem IsField.newline_not_mem {text : String} (h : IsField text) : '\n' ∉ text.toList :=
  fun hmem => (h.isFieldChar _ hmem).ne (by decide) rfl

theorem isField_toString (n : Nat) : IsField (toString n) where
  ne_nil := toList_toString_ne_nil n
  isFieldChar _ hc := Or.inl (isAlphanum_of_mem_toString hc)

theorem RecordKind.isField_tag (kind : RecordKind) : IsField kind.tag := by
  cases kind with
  | dataMark => exact ⟨by decide, by simp [tag, IsFieldChar]⟩
  | addressMark => exact ⟨by decide, by simp [tag, IsFieldChar]⟩
  | unknown => exact ⟨by decide, by simp [tag, IsFieldChar]⟩

theorem Hex.isField_ofBytes {bytes : List UInt8} (hne : bytes ≠ []) :
    IsField (Hex.ofBytes bytes) where
  ne_nil := by
    obtain ⟨b, rest, rfl⟩ := List.exists_cons_of_ne_nil hne
    simp [Hex.ofBytes, Hex.byteDigits]
  isFieldChar _ hc := (isDigit_of_mem_ofBytes hc).isFieldChar

theorem Hex.isField_ofNatPadded (width n : Nat) : IsField (Hex.ofNatPadded width n) where
  ne_nil := by
    simp [Hex.ofNatPadded, Hex.paddedDigits, List.leftpad, Hex.digits_ne_nil]
  isFieldChar _ hc := (isDigit_of_mem_ofNatPadded hc).isFieldChar

theorem Record.isField_checkText (r : Record) : IsField r.checkText := by
  unfold checkText
  split
  · exact Hex.isField_ofNatPadded ..
  · exact ⟨by decide, by simp [IsFieldChar]⟩

/-! ## Lines -/

/-- The fields of a line, with any number of blanks between them. -/
def fieldsOf (line : String) : List String :=
  ((line.toList.splitOn ' ').filter (!·.isEmpty)).map String.ofList

theorem fieldsOf_of_isField {field : String} (h : IsField field) : fieldsOf field = [field] := by
  rw [fieldsOf, List.splitOn_eq_singleton h.blank_not_mem]
  simp [h.ne_nil]

theorem fieldsOf_append {field : String} (h : IsField field) (rest : String) :
    fieldsOf (field ++ " " ++ rest) = field :: fieldsOf rest := by
  have hcut : (field ++ " " ++ rest).toList = field.toList ++ ' ' :: rest.toList := by simp
  rw [fieldsOf, hcut, List.splitOn_append_cons_self_of_not_mem h.blank_not_mem]
  simp [fieldsOf, h.ne_nil]

theorem fieldsOf_blanks_append (n : Nat) (rest : String) :
    fieldsOf (String.ofList (List.replicate n ' ') ++ rest) = fieldsOf rest := by
  induction n with
  | zero => simp
  | succ n ih =>
      have hcut : (String.ofList (List.replicate (n + 1) ' ') ++ rest).toList
          = [] ++ ' ' :: (String.ofList (List.replicate n ' ') ++ rest).toList := by
        simp [List.replicate_succ]
      rw [fieldsOf, hcut, List.splitOn_append_cons_self_of_not_mem List.not_mem_nil]
      exact ih

theorem exists_alignedNumber_eq (width n : Nat) :
    ∃ k, alignedNumber width n = String.ofList (List.replicate k ' ') ++ toString n := by
  refine ⟨width - (toString n).toList.length, String.toList_inj.mp ?_⟩
  simp [alignedNumber, List.leftpad]

theorem fieldsOf_alignedNumber_append (width n : Nat) (rest : String) :
    fieldsOf (alignedNumber width n ++ " " ++ rest) = toString n :: fieldsOf rest := by
  obtain ⟨k, hk⟩ := exists_alignedNumber_eq width n
  have hnumber := fieldsOf_append (isField_toString n) rest
  rw [String.append_assoc] at hnumber
  rw [hk, String.append_assoc, String.append_assoc, fieldsOf_blanks_append, hnumber]

/-- The fields of the line of a record: the number of the line's kind, and
the four parts of the record. -/
def Record.fields (r : Record) : List String :=
  ["6", r.kind.tag, toString r.length, r.checkText, Hex.ofBytes r.payload]

def Event.fields : Event → List String
  | .frame d => ["4", toString d.waveformLength]
  | .record r => r.fields

theorem isField_four : IsField "4" := ⟨by decide, by simp [IsFieldChar]⟩

theorem isField_six : IsField "6" := ⟨by decide, by simp [IsFieldChar]⟩

theorem FrameDiagnostic.fieldsOf_line (d : FrameDiagnostic) :
    fieldsOf d.line = ["4", toString d.waveformLength] := by
  have hline : d.line = "4" ++ " " ++ toString d.waveformLength := rfl
  rw [hline, fieldsOf_append isField_four, fieldsOf_of_isField (isField_toString _)]

theorem Record.line_eq (r : Record) :
    r.line = "6" ++ " " ++ (r.kind.tag ++ " " ++ (alignedNumber 5 r.length ++ " "
      ++ (r.checkText ++ " " ++ Hex.ofBytes r.payload))) := by
  have hsix : "6 " = "6" ++ " " := rfl
  simp only [line, hsix, String.append_assoc]

theorem Record.fieldsOf_line {r : Record} (hne : r.payload ≠ []) : fieldsOf r.line = r.fields := by
  rw [line_eq, fieldsOf_append isField_six, fieldsOf_append r.kind.isField_tag,
    fieldsOf_alignedNumber_append, fieldsOf_append r.isField_checkText,
    fieldsOf_of_isField (Hex.isField_ofBytes hne), fields]

theorem newline_not_mem_alignedNumber (width n : Nat) :
    '\n' ∉ (alignedNumber width n).toList := by
  obtain ⟨k, hk⟩ := exists_alignedNumber_eq width n
  have hblanks : '\n' ∉ List.replicate k ' ' :=
    fun hmem => absurd (List.eq_of_mem_replicate hmem) (by decide)
  rw [hk, String.toList_append, String.toList_ofList, List.mem_append]
  exact fun h => h.elim hblanks (isField_toString n).newline_not_mem

/-- A line ends only where it is made to. -/
theorem Event.newline_not_mem_line (event : Event) : '\n' ∉ event.line.toList := by
  have hblank : '\n' ∉ " ".toList := by decide
  cases event with
  | frame d =>
      show '\n' ∉ ("4" ++ " " ++ toString d.waveformLength).toList
      simp only [String.toList_append, List.mem_append, not_or]
      exact ⟨⟨isField_four.newline_not_mem, hblank⟩, (isField_toString _).newline_not_mem⟩
  | record r =>
      have hpayload : '\n' ∉ (Hex.ofBytes r.payload).toList :=
        fun hmem => absurd (Hex.isDigit_of_mem_ofBytes hmem) (by decide)
      rw [line, Record.line_eq]
      simp only [String.toList_append, List.mem_append, not_or]
      exact ⟨⟨isField_six.newline_not_mem, hblank⟩, ⟨r.kind.isField_tag.newline_not_mem, hblank⟩,
        ⟨newline_not_mem_alignedNumber 5 r.length, hblank⟩,
        ⟨r.isField_checkText.newline_not_mem, hblank⟩, hpayload⟩

theorem newline_not_mem_of_mem_lines {events : List Event} :
    ∀ line ∈ events.map Event.line, '\n' ∉ line.toList := by
  intro line hline
  obtain ⟨event, -, rfl⟩ := List.mem_map.mp hline
  exact event.newline_not_mem_line

/-! ## The dump of a capture -/

/-- Every line of the dump of a capture gives the fields of its event back. -/
theorem map_fieldsOf_line_decodeCapture (samples : List UInt8) :
    ((decodeCapture samples).map Event.line).map fieldsOf
      = (decodeCapture samples).map Event.fields := by
  rw [List.map_map]
  refine List.map_congr_left fun event hevent => ?_
  cases event with
  | frame d => exact d.fieldsOf_line
  | record r =>
      obtain ⟨d, hfits⟩ := (blocks_decodeCapture samples).exists_fits hevent
      exact Record.fieldsOf_line hfits.payload_ne_nil

end FluxMarks
