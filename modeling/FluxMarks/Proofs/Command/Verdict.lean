import FluxMarks.Proofs.Command.Session

/-!
# What the summary says of the marks

The verdict compares sums of counters, and sums could agree by chance. They
do not: the two counters of intact marks together count the intact marks of
the capture (`Statistics.intactMarks_ofEvents`), and so are as many as all
marks only if every mark is intact (`Verdict.ofStatistics_ofEvents`). No
other line of the summary reads like a verdict, and no verdict like another
(`mem_summaryLines_iff`), so what the summary says can be taken at its word.
-/

namespace FluxMarks.Command

/-! ## The verdict -/

namespace Verdict

variable {events : List Event}

/-- The verdict on the marks of some events, in terms of the marks. -/
theorem ofStatistics_ofEvents (events : List Event) :
    ofStatistics (.ofEvents events)
      = if marksOf events = [] then .noMarks
        else if ∀ r ∈ marksOf events, r.isIntact = some true then
          .allIntact (marksOf events).length
        else .someDamaged (Statistics.ofEvents events).intactRate := by
  have hnone : (marksOf events).length = 0 ↔ marksOf events = [] := List.length_eq_zero_iff
  have hall : (marksOf events).countP (fun r => r.isIntact = some true) = (marksOf events).length
      ↔ ∀ r ∈ marksOf events, r.isIntact = some true := by
    rw [List.countP_eq_length]
    simp only [decide_eq_true_eq]
  simp only [ofStatistics, Statistics.marks_ofEvents, Statistics.intactMarks_ofEvents, hnone, hall]

theorem ofStatistics_eq_noMarks_iff :
    ofStatistics (.ofEvents events) = .noMarks ↔ marksOf events = [] := by
  rw [ofStatistics_ofEvents]
  grind

theorem ofStatistics_eq_allIntact_iff {n : Nat} :
    ofStatistics (.ofEvents events) = .allIntact n
      ↔ marksOf events ≠ [] ∧ (∀ r ∈ marksOf events, r.isIntact = some true)
        ∧ n = (marksOf events).length := by
  rw [ofStatistics_ofEvents]
  grind

theorem exists_ofStatistics_eq_someDamaged_iff :
    (∃ rate, ofStatistics (.ofEvents events) = .someDamaged rate)
      ↔ ∃ r ∈ marksOf events, r.isIntact ≠ some true := by
  rw [ofStatistics_ofEvents]
  by_cases hnone : marksOf events = []
  · simp [hnone]
  · rw [if_neg hnone]
    split
    · next hall => exact iff_of_false nofun fun ⟨r, hr, hbad⟩ => hbad (hall r hr)
    · next hall =>
        push Not at hall
        exact iff_of_true ⟨_, rfl⟩ hall

/-- A rate is given only where there is something to divide by. -/
theorem rate_eq {s : Statistics} {rate : Float} (h : ofStatistics s = .someDamaged rate) :
    s.marks ≠ 0 ∧ rate = s.intactRate
      ∧ s.intactRate = s.intactMarks.toFloat / s.marks.toFloat * 100 := by
  rw [ofStatistics] at h
  split at h
  · cases h
  · next hmarks =>
      split at h
      · cases h
      · cases h
        exact ⟨hmarks, rfl, if_neg hmarks⟩

end Verdict

/-! ## Lines -/

/-- The last character of a line, which tells verdicts from the other lines
of a summary. -/
def lastChar? (line : String) : Option Char := line.toList.getLast?

theorem lastChar?_append (line : String) {ending : String} {c : Char}
    (h : lastChar? ending = some c) : lastChar? (line ++ ending) = some c := by
  rw [lastChar?, String.toList_append, List.getLast?_append, ← lastChar?, h]
  rfl

/-- Whether a line may be a verdict, going by its end. -/
def EndsLikeVerdict (line : String) : Prop :=
  lastChar? line = some 't' ∨ lastChar? line = some 'd'

theorem not_endsLikeVerdict {line : String} {c : Char} (h : lastChar? line = some c)
    (ht : c ≠ 't') (hd : c ≠ 'd') : ¬EndsLikeVerdict line := by
  rw [EndsLikeVerdict, h]
  simp [ht, hd]

theorem not_endsLikeVerdict_append_toString (line : String) (n : Nat) :
    ¬EndsLikeVerdict (line ++ toString n) := by
  have hne := (isField_toString n).ne_nil
  have hdigit := isDigit_of_mem_toString (List.getLast_mem hne)
  have hlast := lastChar?_append line (List.getLast?_eq_some_getLast hne)
  refine not_endsLikeVerdict hlast ?_ ?_
  · intro h
    rw [h] at hdigit
    cases hdigit
  · intro h
    rw [h] at hdigit
    cases hdigit

theorem Verdict.endsLikeVerdict_line (colours : Bool) (v : Verdict) :
    EndsLikeVerdict (v.line colours) := by
  cases v with
  | noMarks => exact Or.inr (lastChar?_append _ (by decide))
  | allIntact marks => exact Or.inl (lastChar?_append _ (lastChar?_append _ (by decide)))
  | someDamaged rate => exact Or.inl (lastChar?_append _ (lastChar?_append _ (by decide)))

theorem not_endsLikeVerdict_append_coloured (line : String) (colours : Bool) (n : Nat) :
    ¬EndsLikeVerdict (line ++ coloured colours .yellow (toString n)) := by
  cases colours with
  | false => exact not_endsLikeVerdict_append_toString line n
  | true =>
      have hlast := lastChar?_append line
        (lastChar?_append ("\x1b[33m" ++ toString n) (by decide : lastChar? "\x1b[0m" = some 'm'))
      exact not_endsLikeVerdict hlast (by decide) (by decide)

/-- The verdict is the only line of a summary that ends like one. -/
theorem mem_summaryLines_iff {colours : Bool} {s : Statistics} {line : String}
    (h : EndsLikeVerdict line) :
    line ∈ summaryLines colours s ↔ line = (Verdict.ofStatistics s).line colours := by
  have hclose (text : String) : ¬EndsLikeVerdict (text ++ " intact)") :=
    not_endsLikeVerdict (lastChar?_append text (by decide : _ = some ')')) (by decide) (by decide)
  simp only [summaryLines, List.mem_cons, List.not_mem_nil, or_false]
  constructor
  · rintro (rfl | rfl | rfl | rfl | rfl | rfl | rfl | rfl | rfl | rfl)
    · simp [EndsLikeVerdict, lastChar?] at h
    · exact absurd h (not_endsLikeVerdict (by decide : _ = some '=') (by decide) (by decide))
    · exact absurd h (not_endsLikeVerdict_append_toString _ _)
    · exact absurd h (not_endsLikeVerdict_append_toString _ _)
    · split at h
      · exact absurd h (not_endsLikeVerdict_append_toString _ _)
      · exact absurd h (not_endsLikeVerdict_append_coloured _ _ _)
    · exact absurd h (not_endsLikeVerdict_append_toString _ _)
    · exact absurd h (hclose _)
    · exact absurd h (hclose _)
    · exact absurd h (not_endsLikeVerdict_append_toString _ _)
    · rfl
  · rintro rfl
    simp

/-! ## Texts -/

theorem toString_injective {m n : Nat} (h : toString m = toString n) : m = n := by
  have hread := decimal?_toString m
  rw [h, decimal?_toString n] at hread
  exact (Option.some.inj hread).symm

/-- The line of a good verdict. -/
def goodLine (colours : Bool) (text : String) : String :=
  coloured colours .green "✓" ++ " " ++ text

/-- The line of a verdict that is not good. -/
def badLine (colours : Bool) (text : String) : String :=
  coloured colours .red "✗" ++ " " ++ text

theorem goodLine_ne_badLine (colours : Bool) (good bad : String) :
    goodLine colours good ≠ badLine colours bad := by
  intro h
  cases colours with
  | false =>
      have hsign := congrArg (fun line => line.toList.head?) h
      simp [goodLine, badLine, coloured] at hsign
  | true =>
      -- the signs follow the numbers of their colours
      have hsign := congrArg (fun line => line.toList[3]?) h
      simp [goodLine, badLine, coloured, Colour.code] at hsign

theorem badLine_noMarks_ne (colours : Bool) (percent : String) :
    badLine colours "No address or data marks found"
      ≠ badLine colours (percent ++ "% of marks intact") := by
  intro h
  have hlast := congrArg lastChar? ((String.append_right_inj _).mp h)
  rw [lastChar?_append percent (by decide : _ = some 't')] at hlast
  exact absurd hlast (by decide)

section

variable {colours : Bool} {s : Statistics}

theorem goodLine_mem_summaryLines_iff {n : Nat} :
    goodLine colours s!"All {n} marks intact" ∈ summaryLines colours s
      ↔ Verdict.ofStatistics s = .allIntact n := by
  refine (mem_summaryLines_iff (Verdict.endsLikeVerdict_line colours (.allIntact n))).trans ?_
  cases Verdict.ofStatistics s with
  | noMarks => exact iff_of_false (goodLine_ne_badLine _ _ _) nofun
  | someDamaged rate => exact iff_of_false (goodLine_ne_badLine _ _ _) nofun
  | allIntact marks =>
      refine ⟨fun h => ?_, fun h => congrArg (Verdict.line colours) h.symm⟩
      have htext : "All " ++ toString n ++ " marks intact"
          = "All " ++ toString marks ++ " marks intact" := (String.append_right_inj _).mp h
      have hnumber := (String.append_right_inj _).mp ((String.append_left_inj _).mp htext)
      rw [toString_injective hnumber]

theorem badLine_mem_summaryLines_iff :
    badLine colours "No address or data marks found" ∈ summaryLines colours s
      ↔ Verdict.ofStatistics s = .noMarks := by
  refine (mem_summaryLines_iff (Verdict.endsLikeVerdict_line colours .noMarks)).trans ?_
  cases Verdict.ofStatistics s with
  | noMarks => exact iff_of_true rfl rfl
  | allIntact marks => exact iff_of_false (goodLine_ne_badLine _ _ _).symm nofun
  | someDamaged rate => exact iff_of_false (badLine_noMarks_ne _ _) nofun

theorem percent_mem_summaryLines_iff {percent : String} :
    badLine colours (percent ++ "% of marks intact") ∈ summaryLines colours s
      ↔ (∃ rate, Verdict.ofStatistics s = .someDamaged rate)
        ∧ percent = Text.fixedText 2 s.intactRate := by
  have hends : EndsLikeVerdict (badLine colours (percent ++ "% of marks intact")) :=
    Or.inl (lastChar?_append _ (lastChar?_append _ (by decide)))
  rw [mem_summaryLines_iff hends]
  cases hverdict : Verdict.ofStatistics s with
  | noMarks => exact iff_of_false (fun h => badLine_noMarks_ne _ _ h.symm) nofun
  | allIntact marks => exact iff_of_false (fun h => goodLine_ne_badLine _ _ _ h.symm) nofun
  | someDamaged rate =>
      obtain ⟨-, rfl, -⟩ := Verdict.rate_eq hverdict
      refine ⟨fun h => ⟨⟨_, rfl⟩, ?_⟩, fun ⟨_, h⟩ => congrArg (badLine colours <| · ++ _) h⟩
      have htext : percent ++ "% of marks intact"
          = Text.fixedText 2 s.intactRate ++ "% of marks intact" := (String.append_right_inj _).mp h
      exact (String.append_left_inj _).mp htext

end

/-! ## The summary -/

/-- The last thing that a run lets out is its summary, if one was asked for. -/
theorem Session.exists_emissions_report {session : Session} {s : Statistics}
    (h : session.result = .ok s) {options : Options} (hstats : options.stats = true)
    (colours : Bool) :
    ∃ before, (session.report options colours).emissions
      = before ++ (summaryLines colours s).map .note := by
  refine ⟨session.beginning options ++ session.shown
    ++ (session.lastLog.filterMap (shownMessage options.verbose)
      ++ [.output (Outlet.ofLines session.lines).waiting]), ?_⟩
  rw [report, ending, h]
  simp only [hstats, if_true, List.append_assoc]

/-- **The verdict of the summary is sound.** A run that read its capture
without a failure, and could write what it was to write, ends with the summary,
if it was asked for one, and the summary says that all of so many marks are
intact if and only if there is a mark among the records of the dump, all of
them are intact, and they are so many; it says that there are no marks if and
only if there are none. It gives a percentage if and only if some mark is not
intact, and then to two places the rate, which is a quotient by the number of
marks, and that is not zero. -/
theorem summary_verdict_sound (d : Directory) (input : String) (json : Option String)
    {medium : List ReadStep} (hread : (Reading.ofMedium medium).failure = none)
    (haccepts : d.Accepts (Session.start input json (.ok medium))) :
    let events := (Reading.ofMedium medium).events
    let marks := marksOf events
    let s := Statistics.ofEvents events
    let session := (d.runOpened input json (.ok medium)).1
    session.lines = events.map Event.line ∧ session.result = .ok s
      ∧ ∀ colours,
        let summary := summaryLines colours s
        (∀ options : Options, options.stats = true →
          ∃ before, (session.report options colours).emissions = before ++ summary.map .note)
        ∧ (∀ n, goodLine colours s!"All {n} marks intact" ∈ summary
          ↔ marks ≠ [] ∧ (∀ r ∈ marks, r.isIntact = some true) ∧ n = marks.length)
        ∧ (badLine colours "No address or data marks found" ∈ summary ↔ marks = [])
        ∧ (∀ percent, badLine colours (percent ++ "% of marks intact") ∈ summary
          ↔ (∃ r ∈ marks, r.isIntact ≠ some true) ∧ percent = Text.fixedText 2 s.intactRate)
        ∧ ∀ rate, Verdict.ofStatistics s = .someDamaged rate →
          (∃ r ∈ marks, r.isIntact ≠ some true) ∧ s.marks = marks.length ∧ s.marks ≠ 0
            ∧ rate = s.intactRate
            ∧ s.intactRate = s.intactMarks.toFloat / s.marks.toFloat * 100 := by
  intro events marks s session
  have hsession := Session.start_of_reading input json hread
  obtain ⟨hlines, hresult⟩ := Directory.runOpened_of_accepts haccepts
  rw [hsession] at hlines hresult
  refine ⟨hlines, hresult, fun colours => ?_⟩
  intro summary
  refine ⟨fun options hstats => Session.exists_emissions_report hresult hstats colours,
    fun n => ?_, ?_, fun percent => ?_, fun rate hrate => ?_⟩
  · exact goodLine_mem_summaryLines_iff.trans Verdict.ofStatistics_eq_allIntact_iff
  · exact badLine_mem_summaryLines_iff.trans Verdict.ofStatistics_eq_noMarks_iff
  · exact percent_mem_summaryLines_iff.trans
      (and_congr_left' Verdict.exists_ofStatistics_eq_someDamaged_iff)
  · exact ⟨Verdict.exists_ofStatistics_eq_someDamaged_iff.mp ⟨rate, hrate⟩,
      Statistics.marks_ofEvents events, Verdict.rate_eq hrate⟩

/-- An intact ID field by itself, and followed by the beginning of another. -/
theorem summary_verdict_sound_one_damaged :
    let field : List UInt8 := [39, 53, 53, 53, 53, 39, 39, 39, 66, 39, 39, 39, 66, 39, 39, 39, 39,
      39, 39, 53, 106, 93, 93, 53, 66, 39]
    let whole : List ReadStep := [.stretch field]
    let mixed : List ReadStep :=
      [.stretch field, .interrupted, .stretch [106, 40, 39, 53, 53, 53, 53, 39, 39]]
    let summaryOf colours medium :=
      summaryLines colours (.ofEvents (Reading.ofMedium medium).events)
    (Reading.ofMedium whole).failure = none ∧ (Reading.ofMedium mixed).failure = none
      ∧ goodLine false "All 1 marks intact" ∈ summaryOf false whole
      ∧ (marksOf (Reading.ofMedium mixed).events).map Record.isIntact = [some true, some false]
      ∧ badLine true
        (Text.fixedText 2 (Statistics.ofEvents (Reading.ofMedium mixed).events).intactRate
          ++ "% of marks intact") ∈ summaryOf true mixed := by
  intro field whole mixed summaryOf
  have hreading (script : List ReadStep) (hscript : ∀ step ∈ script, step.Delivers) :
      (Reading.ofMedium script).events = decodeCapture (script.flatMap ReadStep.samples)
        ∧ (Reading.ofMedium script).failure = none := by
    have hall := Reading.ofMedium_of_script hscript (Or.inl rfl)
    rwa [List.append_nil] at hall
  obtain ⟨hwhole, hwholeRead⟩ := hreading whole (by simp [whole, field, ReadStep.Delivers])
  obtain ⟨hmixed, hmixedRead⟩ := hreading mixed (by simp [mixed, field, ReadStep.Delivers])
  have hwholeMarks : (marksOf (Reading.ofMedium whole).events).map Record.isIntact
      = [some true] := by
    rw [hwhole]
    decide +kernel
  have hmixedMarks : (marksOf (Reading.ofMedium mixed).events).map Record.isIntact
      = [some true, some false] := by
    rw [hmixed]
    decide +kernel
  obtain ⟨mark, hmark, hintact⟩ := List.map_eq_singleton_iff.mp hwholeMarks
  obtain ⟨damaged, hmem, hfalse⟩ := List.mem_map.mp
    (hmixedMarks ▸ List.mem_cons_of_mem _ (List.mem_singleton_self _) :
      some false ∈ (marksOf (Reading.ofMedium mixed).events).map Record.isIntact)
  let d : Directory := { path := "/captures", files := [], workingPath := "/captures" }
  obtain ⟨-, -, hgood⟩ :=
    summary_verdict_sound d "track.raw" none hwholeRead Directory.accepts_start_none
  obtain ⟨-, -, hbad⟩ :=
    summary_verdict_sound d "track.raw" none hmixedRead Directory.accepts_start_none
  refine ⟨hwholeRead, hmixedRead, (hgood false).2.1 1 |>.mpr ?_, hmixedMarks,
    ((hbad true).2.2.2.1 _).mpr ⟨⟨damaged, hmem, by rw [hfalse]; decide⟩, rfl⟩⟩
  rw [hmark]
  simpa using hintact

end FluxMarks.Command
