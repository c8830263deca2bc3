import FluxMarks.Source.Script

/-!
# What a source hands out

A stage only ever sees the answers of its source, so what it does is stated
from those: `HandsOut` tells of a stretch of pulls that all answer with an
item and of the state they leave, and every stage has a lemma that turns
such a stretch of its source into one of its own. `Yields` tells the whole
life of a source that does not fail, however often it is pulled, and is
reached from a stretch by showing that nothing comes after it
(`HandsOut.yields`). A source that may fail as well is told by `Answers`, of
which `Yields` is the case without a failure and `Fails` the case with one at
the end.
-/

namespace FluxMarks

theorem Pull.item_of_item? {σ α : Type} {p : Pull σ α} {a : α} (h : p.item? = some a) :
    p.item = some (.ok a) := by
  unfold item? at h
  split at h
  · next heq => rw [heq, Option.some.inj h]
  · cases h

namespace Source

section

variable {σ α : Type} [Source σ α]

/-- Pulling hands out these items, one a pull, and leaves the last state. -/
inductive HandsOut : σ → List α → σ → Prop
  | nil (s : σ) : HandsOut s [] s
  | cons {s t : σ} {a : α} {items : List α} (hitem : (pull s).item = some (.ok a))
      (hrest : HandsOut (pull s).next items t) : HandsOut s (a :: items) t

/-- What is said during so many pulls. -/
def said (n : Nat) (s : σ) : List Message :=
  (pulls n s).flatMap Pull.log

/-- The pulls hand out these items, one each and in order, and nothing for
ever after. -/
def Yields (s : σ) (items : List α) : Prop :=
  ∀ n, (pulls n s).map Pull.item = (List.range n).map fun i => items[i]?.map .ok

/-- The pulls give these answers, one each and in order, and nothing for ever
after. -/
def Answers (s : σ) (answers : List (Except CaptureError α)) : Prop :=
  ∀ n, (pulls n s).map Pull.item = (List.range n).map fun i => answers[i]?

/-- The pulls hand out these items, fail once, and answer nothing for ever
after. -/
def Fails (s : σ) (items : List α) (error : CaptureError) : Prop :=
  Answers s (items.map .ok ++ [.error error])

/-- The state that so many pulls leave. -/
def after : Nat → σ → σ
  | 0, s => s
  | n + 1, s => after n (pull s).next

/-! ## Stretches of items -/

theorem HandsOut.append {s t u : σ} {xs ys : List α} (hx : HandsOut s xs t)
    (hy : HandsOut t ys u) : HandsOut s (xs ++ ys) u := by
  induction hx with
  | nil s => exact hy
  | cons hitem _ ih => exact .cons hitem (ih hy)

theorem handsOut_append_iff {s u : σ} {xs ys : List α} :
    HandsOut s (xs ++ ys) u ↔ ∃ t, HandsOut s xs t ∧ HandsOut t ys u := by
  refine ⟨fun h => ?_, fun ⟨t, hx, hy⟩ => hx.append hy⟩
  induction xs generalizing s with
  | nil => exact ⟨s, .nil s, h⟩
  | cons x xs ih =>
      cases h with
      | cons hitem hrest =>
          obtain ⟨t, hx, hy⟩ := ih hrest
          exact ⟨t, .cons hitem hx, hy⟩

theorem handsOut_singleton_iff {s t : σ} {a : α} :
    HandsOut s [a] t ↔ (pull s).item = some (.ok a) ∧ (pull s).next = t := by
  refine ⟨fun h => ?_, fun ⟨hitem, hnext⟩ => .cons hitem (hnext ▸ .nil _)⟩
  cases h with
  | cons hitem hrest =>
      cases hrest
      exact ⟨hitem, rfl⟩

theorem said_cons (n : Nat) (s : σ) : said (n + 1) s = (pull s).log ++ said n (pull s).next := rfl

/-- One more pull after a stretch adds what it says itself. -/
theorem HandsOut.said_succ {s t : σ} {items : List α} (h : HandsOut s items t) :
    said (items.length + 1) s = said items.length s ++ (pull t).log := by
  induction h with
  | nil s => exact List.append_nil _
  | cons _ _ ih => rw [List.length_cons, said_cons (_ + 1), ih, said_cons, List.append_assoc]

/-- States that answer alike hand out the same items, if any at all. -/
theorem HandsOut.congr {s s' t : σ} {items : List α} (h : HandsOut s items t)
    (hpull : pull s' = pull s) (hne : items ≠ []) : HandsOut s' items t := by
  cases h with
  | nil => exact absurd rfl hne
  | cons hitem hrest => exact .cons (hpull ▸ hitem) (hpull ▸ hrest)

/-! ## Whole lives -/

theorem yields_iff_answers {s : σ} {items : List α} :
    Yields s items ↔ Answers s (items.map .ok) := by
  simp only [Yields, Answers, List.getElem?_map]

theorem Answers.of_pull {s : σ} {answers : List (Except CaptureError α)}
    (hitem : (pull s).item = answers.head?) (h : Answers (pull s).next answers.tail) :
    Answers s answers := by
  intro n
  cases n with
  | zero => rfl
  | succ n =>
      rw [pulls, List.map_cons, hitem, h n, List.range_succ_eq_map, List.map_cons, List.map_map,
        List.head?_eq_getElem?]
      simp [List.getElem?_tail, Function.comp_def]

/-- A state that answers nothing and stays as it is has nothing to give. -/
theorem answers_nil {s : σ} (hitem : (pull s).item = none) (hnext : (pull s).next = s) :
    Answers s [] := by
  intro n
  induction n with
  | zero => rfl
  | succ n ih =>
      rw [pulls, List.map_cons, hitem, hnext, ih, List.range_succ_eq_map, List.map_cons,
        List.map_map]
      rfl

theorem HandsOut.answers {s t : σ} {items : List α} {answers : List (Except CaptureError α)}
    (h : HandsOut s items t) (ht : Answers t answers) :
    Answers s (items.map .ok ++ answers) := by
  induction h with
  | nil s => exact ht
  | cons hitem _ ih => exact .of_pull hitem (ih ht)

theorem Yields.of_pull {s : σ} {items : List α}
    (hitem : (pull s).item = items.head?.map .ok) (h : Yields (pull s).next items.tail) :
    Yields s items := by
  rw [yields_iff_answers, List.map_tail] at h
  rw [yields_iff_answers]
  exact .of_pull (by rw [hitem, List.head?_map]) h

theorem yields_nil {s : σ} (hitem : (pull s).item = none) (hnext : (pull s).next = s) :
    Yields s [] :=
  yields_iff_answers.mpr (answers_nil hitem hnext)

theorem HandsOut.yields {s t : σ} {items : List α} (h : HandsOut s items t)
    (ht : Yields t []) : Yields s items := by
  have hanswers := h.answers (yields_iff_answers.mp ht)
  rwa [List.map_nil, List.append_nil, ← yields_iff_answers] at hanswers

/-! ## States -/

theorem HandsOut.after_length {s t : σ} {items : List α} (h : HandsOut s items t) :
    after items.length s = t := by
  induction h with
  | nil s => rfl
  | cons _ _ ih => exact ih

theorem HandsOut.item_after {s t : σ} {items : List α} (h : HandsOut s items t) {k : Nat}
    (hk : k < items.length) : (pull (after k s)).item = some (.ok items[k]) := by
  induction h generalizing k with
  | nil s => cases hk
  | cons hitem _ ih =>
      cases k with
      | zero => exact hitem
      | succ k => exact ih (Nat.lt_of_succ_lt_succ hk)

theorem after_add (m n : Nat) (s : σ) : after (m + n) s = after n (after m s) := by
  induction m generalizing s with
  | zero => rw [Nat.zero_add, after]
  | succ m ih => rw [Nat.succ_add, after, after, ih]

theorem after_of_next_eq {s : σ} (h : (pull s).next = s) (n : Nat) : after n s = s := by
  induction n with
  | zero => rfl
  | succ n ih => rw [after, h, ih]

/-- A pull that leaves a state which no pull changes is the last to change
anything. -/
theorem HandsOut.after_of_fixed {s t u : σ} {items : List α} (h : HandsOut s items t)
    (hnext : (pull t).next = u) (hfixed : (pull u).next = u) {n : Nat}
    (hn : items.length < n) : after n s = u := by
  obtain ⟨k, rfl⟩ := Nat.exists_eq_add_of_lt hn
  rw [Nat.add_assoc, after_add, h.after_length, Nat.add_comm, after_add]
  show after k (pull t).next = u
  rw [hnext, after_of_next_eq hfixed]

theorem after_succ (n : Nat) (s : σ) : after (n + 1) s = (pull (after n s)).next :=
  after_add n 1 s

/-- What every pull preserves holds after any number of them. -/
theorem after_induction {P : σ → Prop} (hstep : ∀ s, P s → P (pull s).next) {s : σ}
    (hs : P s) (n : Nat) : P (after n s) := by
  induction n generalizing s with
  | zero => exact hs
  | succ n ih => exact ih (hstep s hs)

end

variable {σ α : Type}

/-! ## To the end -/

section

variable [FiniteSource σ α]

theorem drain_of_item {s : σ} {a : α} (h : (pull s).item = some (.ok a)) :
    drain s = pull s :: drain (pull s).next := by
  rw [drain]
  split
  · rfl
  · next hno => exact absurd h (hno a)

theorem drain_of_stop {s : σ} (h : (pull s).item? = none) : drain s = [pull s] := by
  rw [drain]
  split
  · next a hitem => simp [Pull.item?, hitem] at h
  · rfl

theorem HandsOut.filterMap_drain {s t : σ} {items : List α} (h : HandsOut s items t)
    (ht : (pull t).item? = none) : (drain s).filterMap Pull.item? = items := by
  induction h with
  | nil s => rw [drain_of_stop ht, List.filterMap_cons, ht, List.filterMap_nil]
  | cons hitem _ ih =>
      rw [drain_of_item hitem, List.filterMap_cons, Pull.item?, hitem, ih ht]

theorem HandsOut.findSome?_drain {s t : σ} {items : List α} (h : HandsOut s items t)
    (ht : (pull t).item? = none) : (drain s).findSome? Pull.error? = (pull t).error? := by
  induction h with
  | nil s => rw [drain_of_stop ht, List.findSome?_singleton]
  | cons hitem _ ih =>
      rw [drain_of_item hitem, List.findSome?_cons, Pull.error?, hitem, ih ht]

end

/-! ## Pulls that may not come back -/

section

variable {step : σ → Option (Pull σ α)}

/-- The pulls come back with these items, one a pull, and leave the last
state. -/
inductive Gives (step : σ → Option (Pull σ α)) : σ → List α → σ → Prop
  | nil (s : σ) : Gives step s [] s
  | cons {s t : σ} {p : Pull σ α} {a : α} {items : List α} (hpull : step s = some p)
      (hitem : p.item = some (.ok a)) (hrest : Gives step p.next items t) :
      Gives step s (a :: items) t

/-- The answers of so many pulls, if they all come back. -/
def items? (step : σ → Option (Pull σ α)) :
    Nat → σ → Option (List (Option (Except CaptureError α)))
  | 0, _ => some []
  | n + 1, s => (step s).bind fun p => (items? step n p.next).map (p.item :: ·)

/-- The state that so many pulls leave, if they all come back. -/
def after? (step : σ → Option (Pull σ α)) : Nat → σ → Option σ
  | 0, s => some s
  | n + 1, s => (step s).bind fun p => after? step n p.next

theorem Gives.append {s t u : σ} {xs ys : List α} (hx : Gives step s xs t)
    (hy : Gives step t ys u) : Gives step s (xs ++ ys) u := by
  induction hx with
  | nil s => exact hy
  | cons hpull hitem _ ih => exact .cons hpull hitem (ih hy)

/-- The answers of a stretch of pulls, and of so many more. -/
theorem Gives.items? {s t : σ} {items : List α} (h : Gives step s items t) (n : Nat) :
    items? step (items.length + n) s
      = (items? step n t).map ((items.map fun a => some (.ok a)) ++ ·) := by
  induction h with
  | nil s =>
      rw [List.length_nil, Nat.zero_add]
      exact Option.map_id'.symm
  | @cons s t p a items hpull hitem _ ih =>
      rw [List.length_cons, Nat.add_right_comm, Source.items?, hpull, Option.bind_some, ih,
        Option.map_map, hitem]
      rfl

/-- Where every pull comes back, the items are handed out. -/
theorem Gives.handsOut [Source σ α] (hstep : ∀ s, step s = some (pull s)) {s t : σ}
    {items : List α} (h : Gives step s items t) : HandsOut s items t := by
  induction h with
  | nil s => exact .nil s
  | cons hpull hitem _ ih =>
      cases (hstep _).symm.trans hpull
      exact .cons hitem ih

/-- What every pull that comes back preserves holds after any number of
them. -/
theorem after?_induction {P : σ → Prop} (hstep : ∀ s p, P s → step s = some p → P p.next)
    {s t : σ} (hs : P s) {n : Nat} (h : after? step n s = some t) : P t := by
  induction n generalizing s with
  | zero =>
      cases h
      exact hs
  | succ n ih =>
      obtain ⟨p, hpull, hlater⟩ := Option.bind_eq_some_iff.mp h
      exact ih (hstep s p hs hpull) hlater

/-- Two stages that answer alike for one pull, and stay alike over it, answer
alike for ever. -/
theorem items?_congr {τ : Type} {step' : τ → Option (Pull τ α)} {R : σ → τ → Prop}
    (hstep : ∀ s t, R s t →
      Option.Rel (fun p q => p.item = q.item ∧ R p.next q.next) (step s) (step' t))
    {s : σ} {t : τ} (h : R s t) (n : Nat) : items? step n s = items? step' n t := by
  induction n generalizing s t with
  | zero => rfl
  | succ n ih =>
      have hone := hstep s t h
      rw [items?, items?]
      revert hone
      rcases step s with _ | p <;> rcases step' t with _ | q <;> intro hone
      · rfl
      · cases hone
      · cases hone
      · obtain ⟨hitem, hnext⟩ : p.item = q.item ∧ R p.next q.next := by cases hone; assumption
        rw [Option.bind_some, Option.bind_some, hitem, ih hnext]

/-- A state that answers nothing and stays as it is does so for ever. -/
theorem items?_of_fixed {s : σ} {p : Pull σ α} (hpull : step s = some p)
    (hitem : p.item = none) (hnext : p.next = s) (n : Nat) :
    items? step n s = some (List.replicate n none) := by
  induction n with
  | zero => rfl
  | succ n ih => rw [items?, hpull, Option.bind_some, hnext, ih, hitem]; rfl

end

end Source

/-! ## Scripts and tapes -/

theorem Script.handsOut_append {α : Type} (items : List α)
    (later : List (Option (Except CaptureError α))) :
    Source.HandsOut (⟨(Script.ofItems items).answers ++ later⟩ : Script α) items ⟨later⟩ := by
  induction items with
  | nil => exact .nil _
  | cons item items ih => exact .cons rfl ih

theorem Script.handsOut {α : Type} (items : List α) :
    Source.HandsOut (Script.ofItems items) items ⟨[]⟩ := by
  have hout := Script.handsOut_append items []
  rwa [List.append_nil] at hout

theorem Script.answers_after {α : Type} (s : Script α) (n : Nat) :
    (Source.after n s).answers = s.answers.drop n := by
  induction n generalizing s with
  | zero => rfl
  | succ n ih =>
      obtain ⟨_ | ⟨answer, rest⟩⟩ := s
      · exact (ih ⟨[]⟩).trans List.drop_nil
      · exact ih ⟨rest⟩

theorem Tape.handsOut {α : Type} (items : Nat → α) (n : Nat) :
    Source.HandsOut (Tape.ofItems items) ((List.range n).map items)
      ⟨(Tape.ofItems items).answers, n⟩ := by
  induction n with
  | zero => exact .nil _
  | succ n ih =>
      rw [List.range_succ, List.map_append, List.map_singleton]
      exact ih.append (Source.handsOut_singleton_iff.mpr ⟨rfl, rfl⟩)

end FluxMarks
