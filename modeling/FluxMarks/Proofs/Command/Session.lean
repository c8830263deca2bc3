import FluxMarks.Proofs.Command.Directory
import FluxMarks.Proofs.Command.RecordFile
import FluxMarks.Proofs.Source.Reader

/-!
# What a run lets out

A run pulls events from its medium and makes three things of them on the
way: the lines of the dump, the statistics, and the entries of the file of
records. `Directory.run_of_script` says that all three are those of the
capture decoded in memory, however the medium is read, and that the file,
read back, has for every line of a record the entry with the fields of that
line.
-/

namespace FluxMarks.Command

open Source

/-! ## Reading the capture -/

/-- What was decoded is what the decoder hands out before it stops, and the
reading failed if the decoder did. -/
theorem Reading.ofMedium_of_handsOut {medium : List ReadStep} {events : List Event}
    {stop : TrackDecoder SampleReader} (h : HandsOut (decodeMedium medium) events stop)
    (hstop : (pull stop).item? = none) :
    (Reading.ofMedium medium).events = events
      ∧ (Reading.ofMedium medium).failure = (pull stop).error? :=
  ⟨h.filterMap_drain hstop, h.findSome?_drain hstop⟩

theorem Reading.ofMedium_of_script {script tail : List ReadStep}
    (hscript : ∀ step ∈ script, step.Delivers) (htail : AtEnd tail) :
    (Reading.ofMedium (script ++ tail)).events
        = decodeCapture (script.flatMap ReadStep.samples)
      ∧ (Reading.ofMedium (script ++ tail)).failure = none := by
  obtain ⟨left, hleft, hout⟩ :=
    @SampleReader.handsOut_script defaultChunk tail (by decide) script hscript
  obtain ⟨later, hread⟩ := readChunk_of_atEnd htail defaultChunk
  rw [hread] at hleft
  have hend := congrArg Pull.item (SampleReader.pull_of_nothing hleft)
  obtain ⟨ended, hevents, -, hended⟩ := TrackDecoder.handsOut_decodeCapture hout hend
  have hstop : (pull ended).item? = none := by rw [hended]; rfl
  obtain ⟨hall, hfailure⟩ := Reading.ofMedium_of_handsOut hevents hstop
  rw [hended] at hfailure
  exact ⟨hall, hfailure⟩

/-- A stretch is read whole, and one without a sample is the end of its medium
already. -/
theorem Reading.ofMedium_stretch (samples : List UInt8) :
    (Reading.ofMedium [.stretch samples]).events = decodeCapture samples
      ∧ (Reading.ofMedium [.stretch samples]).failure = none := by
  by_cases hempty : samples = []
  · have hend : AtEnd [.stretch samples] := Or.inr ⟨[], by rw [hempty]⟩
    have hread := @Reading.ofMedium_of_script [] _ nofun hend
    rwa [hempty] at hread ⊢
  · have hdelivers : ∀ step ∈ [ReadStep.stretch samples], step.Delivers := by
      intro step hstep
      obtain rfl := List.mem_singleton.mp hstep
      exact hempty
    have hread := Reading.ofMedium_of_script hdelivers (Or.inl rfl)
    rwa [List.append_nil, List.flatMap_singleton] at hread

/-! ## The file of records -/

/-- The fields of the line that tells of the same record. -/
def RecordEntry.fields (e : RecordEntry) : List String :=
  ["6", e.tag, toString e.length, e.check, e.payload]

theorem Reading.entries_eq (r : Reading) :
    r.entries = (r.events.filterMap Event.record?).map .ofRecord := by
  rw [entries, List.map_filterMap]
  refine List.filterMap_congr fun event _ => ?_
  cases event <;> rfl

theorem RecordEntry.isPlain_ofRecord {r : Record} (hne : r.payload ≠ []) :
    (RecordEntry.ofRecord r).IsPlain where
  tag := r.kind.isField_tag
  check := r.isField_checkText
  payload := Hex.isField_ofBytes hne

theorem isPlain_of_mem_entries {events : List Event} (h : Blocks 0 events) :
    ∀ e ∈ (events.filterMap Event.record?).map RecordEntry.ofRecord, e.IsPlain := by
  intro e he
  obtain ⟨r, hr, rfl⟩ := List.mem_map.mp he
  obtain ⟨event, hevent, hrecord⟩ := List.mem_filterMap.mp hr
  cases event with
  | frame d => cases hrecord
  | record r' =>
      cases hrecord
      obtain ⟨d, hfits⟩ := h.exists_fits hevent
      exact RecordEntry.isPlain_ofRecord hfits.payload_ne_nil

/-- The lines of records are those whose first field says so. -/
theorem filter_map_fields (events : List Event) :
    (events.map Event.fields).filter (fun fields => fields.head? = some "6")
      = ((events.filterMap Event.record?).map RecordEntry.ofRecord).map RecordEntry.fields := by
  induction events with
  | nil => rfl
  | cons event events ih =>
      rw [List.map_cons]
      cases event with
      | frame d => exact (List.filter_cons_of_neg (by simp [Event.fields])).trans ih
      | record r =>
          rw [List.filter_cons_of_pos (by simp [Event.fields, Record.fields]), ih]
          rfl

/-- A session over reads that deliver is that of the events the same samples
have in memory. -/
theorem Session.start_of_script (input : String) (json : Option String)
    {script tail : List ReadStep} (hscript : ∀ step ∈ script, step.Delivers)
    (htail : AtEnd tail) :
    start input json (.ok (script ++ tail)) =
      let events := decodeCapture (script.flatMap ReadStep.samples)
      { lines := events.map Event.line
        log := .fileStarted input :: (Reading.ofMedium (script ++ tail)).log
        toWrite := json.map fun path =>
          (path, RecordFile.text ((events.filterMap Event.record?).map .ofRecord))
        result := .ok (.ofEvents events) } := by
  obtain ⟨hevents, hfailure⟩ := Reading.ofMedium_of_script hscript htail
  rw [start_of_reading input json hfailure, Reading.entries_eq, hevents]

/-! ## The output -/

theorem Report.output_append (xs ys : List Emission) (code : UInt8) :
    (⟨xs ++ ys, code⟩ : Report).output
      = (⟨xs, code⟩ : Report).output ++ (⟨ys, code⟩ : Report).output := by
  simp only [output, List.filterMap_append, String.join_append]

theorem Report.output_of_errors {emissions : List Emission} (code : UInt8)
    (h : ∀ emission ∈ emissions, ∃ text, emission = .errors text) :
    (⟨emissions, code⟩ : Report).output = "" := by
  rw [output, List.filterMap_eq_nil_iff.mpr]
  · rfl
  · intro emission hmem
    obtain ⟨text, rfl⟩ := h emission hmem
    rfl

theorem Report.output_notes (lines : List String) (code : UInt8) :
    (⟨lines.map .note, code⟩ : Report).output = "" := by
  refine Report.output_of_errors code fun emission hmem => ?_
  obtain ⟨line, -, rfl⟩ := List.mem_map.mp hmem
  exact ⟨_, rfl⟩

theorem exists_errors_of_mem_log {verbose : Bool} {log : List Message} {emission : Emission}
    (h : emission ∈ log.filterMap (shownMessage verbose)) : ∃ text, emission = .errors text := by
  obtain ⟨message, -, hshown⟩ := List.mem_filterMap.mp h
  unfold shownMessage at hshown
  split at hshown
  · cases hshown
    exact ⟨_, rfl⟩
  · cases hshown

namespace Session

/-- The log, the summary and the reason of a failure are no output: only the
dump is, and what the file of records shows of itself. -/
theorem output_report (s : Session) (options : Options) (colours : Bool) (h : s.shown = []) :
    (s.report options colours).output = textOfLines s.lines := by
  have hlog (log : List Message) :
      (⟨log.filterMap (shownMessage options.verbose), s.exitCode⟩ : Report).output = "" :=
    Report.output_of_errors _ fun _ => exists_errors_of_mem_log
  have hdump (text : String) : (⟨[.output text], s.exitCode⟩ : Report).output = text := by
    simp [Report.output]
  rw [report, beginning, ending, h]
  simp only [List.append_nil, Report.output_append, hlog, Report.output_notes, hdump,
    String.empty_append, String.append_empty]
  exact Outlet.sent_append_waiting_ofLines s.lines

end Session

namespace Directory

open Session

/-- **The command agrees with the decoder.** If reads deliver or are repeated
until one gets nothing, and the file of records, if one is asked for, can be
written, the run is successful. Its output, but for what the file of records
may show of itself there, is the lines of the events that the same samples
have in memory, one for each and each with its end; the fields of a line are
those of its event. The statistics are those of the same events. The file of
records is written to the path that was asked for, from where it can be read
if it is in the directory, where no other file is changed. It reads back as
one entry for every line of a record, in the same order, with the fields of
that line, which says of the record whether it is intact. A path that gives
those reads is run so, and what the command lets out is the report of that
run. -/
theorem run_of_script (d : Directory) (input : String) (json : Option String)
    {script tail : List ReadStep} (hscript : ∀ step ∈ script, step.Delivers)
    (htail : AtEnd tail) (haccepts : d.Accepts (start input json (.ok (script ++ tail)))) :
    let events := decodeCapture (script.flatMap ReadStep.samples)
    let session := start input json (.ok (script ++ tail))
    let run := d.runOpened input json (.ok (script ++ tail))
    let done := run.1
    done.lines = events.map Event.line
      ∧ done.lines.map fieldsOf = events.map Event.fields
      ∧ (∀ line ∈ done.lines, '\n' ∉ line.toList)
      ∧ (∀ options colours,
        (({ done with shown := [] } : Session).report options colours).output
            = textOfLines done.lines
          ∧ (done.report options colours).exitCode = 0)
      ∧ done.result = .ok (Statistics.ofEvents events)
      ∧ session.toWrite.map Prod.fst = json
      ∧ (∀ path text, session.toWrite = some (path, text) →
        d.writeFile path text = .ok (run.2, done.shown)
          ∧ (∀ name, d.nameAt? path = some name →
            done.shown = [] ∧ run.2.fileAt? path = some text.toUTF8.toList
              ∧ ∀ other, other ≠ name → run.2.content? other = d.content? other)
          ∧ (d.nameAt? path = none → run.2 = d)
          ∧ ∃ entries, RecordFile.read? text = some entries
            ∧ (done.lines.map fieldsOf).filter (fun fields => fields.head? = some "6")
              = entries.map RecordEntry.fields
            ∧ entries.map RecordEntry.intact
              = (events.filterMap Event.record?).map Record.isIntact)
      ∧ (json = none → done.shown = [] ∧ run.2 = d)
      ∧ (d.openFile input = .ok (script ++ tail) → d.run input json = run
        ∧ ∀ colours arguments options, Request.ofArguments arguments = .dump options →
          options.input = input → options.json = json →
          d.execute colours arguments = (done.report options colours, run.2)) := by
  intro events session run done
  have hsession : session = _ := start_of_script input json hscript htail
  obtain ⟨hsameLines, hsameResult⟩ := runOpened_of_accepts haccepts
  have hlines : done.lines = events.map Event.line :=
    hsameLines.trans (congrArg Session.lines hsession)
  have hresult : done.result = .ok (Statistics.ofEvents events) :=
    hsameResult.trans (congrArg Session.result hsession)
  have hfields : done.lines.map fieldsOf = events.map Event.fields := by
    rw [hlines]
    exact map_fieldsOf_line_decodeCapture _
  refine ⟨hlines, hfields, hlines ▸ newline_not_mem_of_mem_lines,
    fun options colours => ⟨?_, ?_⟩, hresult, ?_, ?_, ?_, ?_⟩
  · exact output_report _ options colours rfl
  · show done.exitCode = 0
    rw [exitCode, hresult]
  · rw [hsession]
    cases json <;> rfl
  · intro path text htext
    have hwrite : d.writeFile path text = .ok (run.2, done.shown) :=
      writeFile_of_accepts haccepts htext
    refine ⟨hwrite, fun name hname => fileAt?_of_writeFile hname hwrite,
      fun hname => eq_of_writeFile hname hwrite,
      (events.filterMap Event.record?).map .ofRecord, ?_, ?_, ?_⟩
    · rw [hsession] at htext
      obtain ⟨_, -, hpath⟩ := Option.map_eq_some_iff.mp htext
      cases hpath
      exact RecordFile.read?_text (isPlain_of_mem_entries (blocks_decodeCapture _))
    · rw [hfields]
      exact filter_map_fields events
    · rw [List.map_map]
      rfl
  · rintro rfl
    exact d.runOpened_of_no_path
  · intro hopen
    have hrun : d.run input json = run := run_of_openFile hopen json
    refine ⟨hrun, ?_⟩
    rintro colours arguments options hrequest rfl rfl
    rw [execute_of_dump hrequest, hrun]

/-- A frame with the beginning of an ID field, read in two parts, and the same
capture as a file, by the command. -/
theorem run_of_script_address_mark :
    let capture : List UInt8 := [39, 53, 53, 53, 53, 39, 39]
    let script : List ReadStep := [.stretch [39, 53, 53], .interrupted, .stretch [53, 53, 39, 39]]
    let d : Directory :=
      { path := "/captures", files := [("track.raw", capture)], workingPath := "/captures" }
    let run := d.runOpened "track.raw" (some "records.json") (.ok script)
    (∀ step ∈ script, step.Delivers)
      ∧ d.Accepts (start "track.raw" (some "records.json") (.ok script))
      ∧ run.1.lines = ["4 25", "6 AM     1 3d91 fe"]
      ∧ run.1.lines.map fieldsOf = [["4", "25"], ["6", "AM", "1", "3d91", "fe"]]
      ∧ run.1.result = .ok { frames := 1, cells := 25, addressMarks := 1 }
      ∧ (∃ text entries, run.2.fileAt? "records.json" = some text.toUTF8.toList
        ∧ run.2.content? "track.raw" = some capture
        ∧ RecordFile.read? text = some entries
        ∧ entries.map RecordEntry.fields = [["6", "AM", "1", "3d91", "fe"]]
        ∧ entries.map RecordEntry.intact = [some false])
      ∧ (d.execute false ["track.raw"]).1.output = "4 25\n6 AM     1 3d91 fe\n" := by
  intro capture script d run
  have hscript : ∀ step ∈ script, step.Delivers := by
    simp [script, ReadStep.Delivers]
  have hevents : decodeCapture (script.flatMap ReadStep.samples)
      = [.frame { index := 0, waveformLength := 25, bitsLength := 11, residue := 1 },
        .record { kind := .addressMark, length := 1, check := some 15761, payload := [0xfe] }] := by
    decide +kernel
  have hdump : (decodeCapture (script.flatMap ReadStep.samples)).map Event.line
      = ["4 25", "6 AM     1 3d91 fe"] := by
    rw [hevents]
    decide +kernel
  have hplace : d.nameAt? "records.json" = some "records.json" := by decide +kernel
  have haccepts : d.Accepts (start "track.raw" (some "records.json") (.ok (script ++ []))) := by
    refine accepts_start fun path hpath => ?_
    cases hpath
    exact exists_writeFile hplace (by decide)
  obtain ⟨hlines, hfields, -, -, hresult, hpath, hfile, -, -⟩ :=
    run_of_script d "track.raw" (some "records.json") hscript (Or.inl rfl) haccepts
  rw [List.append_nil, hevents] at hfields hresult hfile
  rw [List.append_nil] at hlines hpath haccepts
  have hshown : run.1.lines.map fieldsOf = [["4", "25"], ["6", "AM", "1", "3d91", "fe"]] :=
    hfields.trans (by decide +kernel)
  obtain ⟨⟨path, text⟩, htext, rfl⟩ := Option.map_eq_some_iff.mp hpath
  obtain ⟨-, hname, -, entries, hread, hentries, hintact⟩ := hfile _ text htext
  obtain ⟨-, hcontent, hothers⟩ := hname "records.json" hplace
  refine ⟨hscript, haccepts, hlines.trans hdump, hshown, hresult,
    ⟨text, entries, hcontent, ?_, hread, ?_, hintact⟩, ?_⟩
  · rw [hothers "track.raw" (by decide)]
    rfl
  · rw [← hentries, hshown]
    rfl
  · -- the file holds the same samples in one stretch
    have hwhole : ∀ step ∈ [ReadStep.stretch capture], step.Delivers := by
      simp [capture, ReadStep.Delivers]
    obtain ⟨hlines, -, -, hreport, -, -, -, hnone, hopen⟩ :=
      run_of_script d "track.raw" none hwhole (Or.inl rfl) accepts_start_none
    have hopened : d.openFile "track.raw" = .ok [.stretch capture] :=
      openFile_of_fileAt? (by decide +kernel)
    have hsame : [ReadStep.stretch capture].flatMap ReadStep.samples
        = script.flatMap ReadStep.samples := rfl
    rw [hsame, hdump] at hlines
    have houtput := (hreport ⟨"track.raw", none, false, false⟩ false).1
    rw [← (hnone rfl).1] at houtput
    rw [(hopen hopened).2 false ["track.raw"] ⟨"track.raw", none, false, false⟩ rfl rfl rfl]
    exact houtput.trans (congrArg textOfLines hlines)

end Directory

end FluxMarks.Command
