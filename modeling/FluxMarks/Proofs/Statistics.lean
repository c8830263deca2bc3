import Mathlib.Algebra.BigOperators.Group.List.Basic
import Mathlib.Algebra.GroupWithZero.Nat
import FluxMarks.Statistics

/-!
# Counting events

An event adds to the counters what it has to add, whatever they hold by
then (`observe_add`). So the counters of events in a row are the sums of
those of their parts, field by field (`ofEvents_append`), and of any events
whatever the frames and the records are counted, and the cells summed up.
What is counted of frames or of marks of one kind is never more than there
are (`consistent_ofEvents`).
-/

namespace FluxMarks

def Event.isFrame : Event → Bool
  | .frame _ => true
  | .record _ => false

/-- A frame whose bits are good for no byte. -/
def Event.isEmptyFrame : Event → Bool
  | .frame d => assembledLength d.bitsLength == 0
  | .record _ => false

def Event.diagnostic? : Event → Option FrameDiagnostic
  | .frame d => some d
  | .record _ => none

def Event.record? : Event → Option Record
  | .frame _ => none
  | .record r => some r

/-- Whether a record carries a check. -/
def Record.isMark (r : Record) : Bool := r.kind != .unknown

/-- The records of some events that carry a check, in order. -/
def marksOf (events : List Event) : List Record :=
  (events.filterMap Event.record?).filter Record.isMark

theorem marksOf_append (xs ys : List Event) : marksOf (xs ++ ys) = marksOf xs ++ marksOf ys := by
  rw [marksOf, List.filterMap_append, List.filter_append]
  rfl

theorem marksOf_cons (event : Event) (events : List Event) :
    marksOf (event :: events) = marksOf [event] ++ marksOf events :=
  marksOf_append [event] events

@[simp] theorem Event.isFrame_frame (d : FrameDiagnostic) : (Event.frame d).isFrame = true := rfl

@[simp] theorem Event.isFrame_record (r : Record) : (Event.record r).isFrame = false := rfl

@[simp] theorem Event.isEmptyFrame_frame (d : FrameDiagnostic) :
    (Event.frame d).isEmptyFrame = (assembledLength d.bitsLength == 0) := rfl

@[simp] theorem Event.isEmptyFrame_record (r : Record) :
    (Event.record r).isEmptyFrame = false := rfl

namespace Statistics

theorem add_def (s t : Statistics) : s + t = s.add t := rfl

theorem observe_add (s t : Statistics) (event : Event) :
    (s + t).observe event = s + t.observe event := by
  cases event with
  | frame d => simp [observe, observeFrame, add_def, Statistics.add, Nat.add_assoc]
  | record r =>
      simp only [observe, observeRecord, add_def]
      cases r.kind <;> simp [Statistics.add, Nat.add_assoc]

theorem foldl_observe_add (s t : Statistics) (events : List Event) :
    events.foldl observe (s + t) = s + events.foldl observe t := by
  induction events generalizing t with
  | nil => rfl
  | cons event events ih => rw [List.foldl_cons, List.foldl_cons, observe_add, ih]

theorem ofEvents_append (xs ys : List Event) :
    ofEvents (xs ++ ys) = ofEvents xs + ofEvents ys := by
  calc ofEvents (xs ++ ys)
      = ys.foldl observe (ofEvents xs) := List.foldl_append
    _ = ys.foldl observe (ofEvents xs + {}) := rfl
    _ = ofEvents xs + ofEvents ys := foldl_observe_add ..

theorem ofEvents_cons (event : Event) (events : List Event) :
    ofEvents (event :: events) = ofEvents [event] + ofEvents events :=
  ofEvents_append [event] events

/-! ## Sums -/

theorem frames_ofEvents (events : List Event) :
    (ofEvents events).frames = events.countP Event.isFrame := by
  induction events with
  | nil => rfl
  | cons event events ih =>
      rw [ofEvents_cons, List.countP_cons, ← ih, Nat.add_comm]
      rcases event with d | ⟨_ | _ | _, length, check, payload⟩ <;> rfl

theorem emptyFrames_ofEvents (events : List Event) :
    (ofEvents events).emptyFrames = events.countP Event.isEmptyFrame := by
  have hcount : ∀ empty : Bool, empty.toNat = if empty then 1 else 0 := by decide
  induction events with
  | nil => rfl
  | cons event events ih =>
      rw [ofEvents_cons, List.countP_cons, ← ih]
      show (ofEvents [event]).emptyFrames + (ofEvents events).emptyFrames = _
      rcases event with d | ⟨_ | _ | _, length, check, payload⟩ <;>
        simp [Event.isEmptyFrame, ofEvents, observe, observeFrame, observeRecord, hcount,
          Nat.add_comm]

theorem records_add (s t : Statistics) : (s + t).records = s.records + t.records := by
  simp only [records, add_def, Statistics.add]
  omega

theorem records_ofEvents (events : List Event) :
    (ofEvents events).records = events.countP fun event => !event.isFrame := by
  induction events with
  | nil => rfl
  | cons event events ih =>
      rw [ofEvents_cons, records_add, List.countP_cons, ← ih, Nat.add_comm]
      rcases event with d | ⟨_ | _ | _, length, check, payload⟩ <;> rfl

/-- Every event is counted, and only once. -/
theorem frames_add_records (events : List Event) :
    (ofEvents events).frames + (ofEvents events).records = events.length := by
  rw [frames_ofEvents, records_ofEvents, List.length_eq_countP_add_countP Event.isFrame]
  simp only [Bool.not_eq_true, Bool.decide_eq_false]

theorem cells_ofEvents (events : List Event) :
    (ofEvents events).cells
      = ((events.filterMap Event.diagnostic?).map FrameDiagnostic.waveformLength).sum := by
  induction events with
  | nil => rfl
  | cons event events ih =>
      rw [ofEvents_cons, List.filterMap_cons]
      show (ofEvents [event]).cells + (ofEvents events).cells = _
      rw [ih]
      rcases event with d | ⟨_ | _ | _, length, check, payload⟩ <;>
        simp [Event.diagnostic?, ofEvents, observe, observeFrame, observeRecord]

/-! ## Marks -/

theorem marks_add (s t : Statistics) : (s + t).marks = s.marks + t.marks := by
  simp only [marks, add_def, Statistics.add]
  omega

theorem intactMarks_add (s t : Statistics) :
    (s + t).intactMarks = s.intactMarks + t.intactMarks := by
  simp only [intactMarks, add_def, Statistics.add]
  omega

theorem marks_ofEvents (events : List Event) :
    (ofEvents events).marks = (marksOf events).length := by
  induction events with
  | nil => rfl
  | cons event events ih =>
      rw [ofEvents_cons, marks_add, ih, marksOf_cons, List.length_append]
      rcases event with d | ⟨_ | _ | _, length, check, payload⟩ <;> rfl

/-- The two counters of intact marks together are short of no intact mark and
count nothing else. -/
theorem intactMarks_ofEvents (events : List Event) :
    (ofEvents events).intactMarks
      = (marksOf events).countP fun r => r.isIntact = some true := by
  have hcount : ∀ intact : Bool, intact.toNat = if intact then 1 else 0 := by decide
  induction events with
  | nil => rfl
  | cons event events ih =>
      rw [ofEvents_cons, intactMarks_add, ih, marksOf_cons, List.countP_append]
      congr 1
      rcases event with d | ⟨_ | _ | _, length, check, payload⟩
      · rfl
      · show _ = List.countP _ [_]
        simp [ofEvents, observe, observeRecord, intactMarks, hcount]
      · show _ = List.countP _ [_]
        simp [ofEvents, observe, observeRecord, intactMarks, hcount]
      · rfl

/-! ## Bounds -/

/-- What is counted of frames or of marks of one kind is not more than there
are. -/
structure Consistent (s : Statistics) : Prop where
  truncatedFrames_le : s.truncatedFrames ≤ s.frames
  intactDataMarks_le : s.intactDataMarks ≤ s.dataMarks
  intactAddressMarks_le : s.intactAddressMarks ≤ s.addressMarks

theorem Consistent.observe {s : Statistics} (h : s.Consistent) (event : Event) :
    (s.observe event).Consistent := by
  obtain ⟨htruncated, hdata, haddress⟩ := h
  rcases event with d | r
  · exact ⟨Nat.add_le_add htruncated (Bool.toNat_le _), hdata, haddress⟩
  · simp only [Statistics.observe, observeRecord]
    cases r.kind with
    | dataMark => exact ⟨htruncated, Nat.add_le_add hdata (Bool.toNat_le _), haddress⟩
    | addressMark => exact ⟨htruncated, hdata, Nat.add_le_add haddress (Bool.toNat_le _)⟩
    | unknown => exact ⟨htruncated, hdata, haddress⟩

theorem consistent_ofEvents (events : List Event) : (ofEvents events).Consistent := by
  suffices h : ∀ s : Statistics, s.Consistent → (events.foldl observe s).Consistent from
    h {} ⟨Nat.le_refl _, Nat.le_refl _, Nat.le_refl _⟩
  induction events with
  | nil => exact fun _ hs => hs
  | cons event events ih => exact fun s hs => ih _ (hs.observe event)

end Statistics

end FluxMarks
