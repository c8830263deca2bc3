import FluxMarks.Command.Directory

/-!
# Files and runs

What writing to a path does to a directory: the file of that name holds the
text from then on, the other files what they held, and every path leads where
it led (`Directory.place_put`). And what a run makes of a session: its lines
are those of the session in any case, and it ends as the session did unless
the file of records cannot be written.
-/

namespace FluxMarks.Command

/-! ## Sessions -/

namespace Session

variable {medium : List ReadStep}

theorem start_of_reading (input : String) (json : Option String)
    (h : (Reading.ofMedium medium).failure = none) :
    start input json (.ok medium) =
      { lines := (Reading.ofMedium medium).events.map Event.line
        log := .fileStarted input :: (Reading.ofMedium medium).log
        toWrite := json.map fun path =>
          (path, RecordFile.text (Reading.ofMedium medium).entries)
        result := .ok (.ofEvents (Reading.ofMedium medium).events) } := by
  simp only [start, h]

theorem start_of_failure (input : String) (json : Option String) {error : CaptureError}
    (h : (Reading.ofMedium medium).failure = some error) :
    start input json (.ok medium) =
      { lines := (Reading.ofMedium medium).events.map Event.line
        log := .fileStarted input :: (Reading.ofMedium medium).log
        toWrite := none
        result := .error ⟨"Failed to read input file: " ++ input, error.message⟩ } := by
  simp only [start, h]

end Session

/-! ## Files -/

/-- The name of the file that is at a place or could be made there. -/
def Place.name? : Place → Option String
  | .file name _ | .free name => some name
  | _ => none

namespace Directory

variable {d after : Directory} {name : String} {content : List UInt8} {way names rest : List String}
  {path text : String} {shown : List Emission}

/-- The name of the file in the directory that a path leads to, if it leads to
one or to where one could be made. -/
def nameAt? (d : Directory) (text : String) : Option String :=
  match Path.ofText text with
  | .ok path => (d.place path).name?
  | .error _ => none

theorem content?_put_self (d : Directory) (name : String) (content : List UInt8) :
    (d.put name content).content? name = some content :=
  List.lookup_cons_self

theorem content?_put_of_ne {other : String} (h : other ≠ name) :
    (d.put name content).content? other = d.content? other := by
  obtain ⟨-, files, -⟩ := d
  show ((name, content) :: files.filter fun file => file.1 != name).lookup other
    = files.lookup other
  rw [List.lookup_cons, beq_false_of_ne h]
  show (files.filter fun file => file.1 != name).lookup other = files.lookup other
  induction files with
  | nil => rfl
  | cons file files ih =>
      obtain ⟨own, held⟩ := file
      by_cases hown : own = name
      · rw [List.filter_cons_of_neg (by simp [hown]), ih, List.lookup_cons,
          beq_false_of_ne (hown ▸ h)]
      · rw [List.filter_cons_of_pos (by simp [hown]), List.lookup_cons, List.lookup_cons, ih]

/-- Where one name leads that goes to a file or to a place for one. -/
theorem exists_of_name?_atName {own : String} (h : (d.atName way own rest).name? = some name) :
    way = Path.namesOf d.path ∧ own = name ∧ rest.isEmpty = true := by
  unfold atName at h
  split at h
  · next hway =>
      split at h
      · unfold atFile at h
        split at h
        · next hrest => exact ⟨hway, Option.some.inj h, hrest⟩
        · cases h
      · unfold atUnknown at h
        split at h
        · cases h
        · split at h
          · next hrest => exact ⟨hway, Option.some.inj h, hrest⟩
          · cases h
  · split at h
    · unfold atFile at h
      split at h <;> cases h
    · split at h
      · unfold atUnknown at h
        split at h
        · cases h
        · split at h <;> cases h
      · cases h

theorem atName_put {own : String} (h : (d.atName way own rest).name? = some name) :
    (d.put name content).atName way own rest = .file name content := by
  obtain ⟨hway, rfl, hrest⟩ := exists_of_name?_atName h
  have hway' : way = Path.namesOf (d.put own content).path := hway
  rw [atName, if_pos hway', content?_put_self]
  exact if_pos hrest

theorem follow_put (h : (d.follow way names).name? = some name) :
    (d.put name content).follow way names = .file name content := by
  fun_induction follow d way names with
  | case1 way => cases h
  | case2 way rest ih => exact ih h
  | case3 way rest ih => exact ih h
  | case4 way own rest hdot hdots target hlink ih =>
      rw [follow.eq_4 _ _ _ _ hdot hdots, hlink]
      exact ih h
  | case5 way own rest hdot hdots hlink hdir ih =>
      rw [follow.eq_4 _ _ _ _ hdot hdots, hlink]
      exact (if_pos hdir).trans (ih h)
  | case6 way own rest hdot hdots hlink hdir =>
      rw [follow.eq_4 _ _ _ _ hdot hdots, hlink]
      exact (if_neg hdir).trans (atName_put h)

theorem place_put {path : Path} (h : (d.place path).name? = some name) :
    (d.put name content).place path = .file name content :=
  follow_put h

theorem writeFile_of_nameAt? (text : String) (h : d.nameAt? path = some name) :
    ∃ p, Path.ofText path = .ok p ∧ (d.place p).name? = some name
      ∧ d.writeFile path text = if p.endsInSlash then .error .isDirectory
        else .ok (d.put name text.toUTF8.toList, []) := by
  unfold nameAt? at h
  unfold writeFile
  rcases hpath : Path.ofText path with fault | p <;> simp only [hpath] at h ⊢
  · cases h
  · refine ⟨p, rfl, h, ?_⟩
    rcases hplace : d.place p <;> rw [hplace] at h <;> cases h <;> rfl

theorem endsInSlash_of_ofText {p : Path} (h : Path.ofText path = .ok p) :
    p.endsInSlash = (path.toList.getLast? == some '/') := by
  unfold Path.ofText at h
  split at h
  · cases h
  · split at h
    · cases h
    · split at h <;> cases h
      rfl

/-- A file can be written, unless its path asks for a directory. -/
theorem exists_writeFile (hname : d.nameAt? path = some name)
    (hslash : path.toList.getLast? ≠ some '/') (text : String) :
    ∃ written, d.writeFile path text = .ok written := by
  obtain ⟨p, hpath, -, hwritten⟩ := writeFile_of_nameAt? text hname
  refine ⟨_, hwritten.trans (if_neg ?_)⟩
  rw [endsInSlash_of_ofText hpath, beq_iff_eq]
  exact hslash

/-- What is written to the path of a file can be read from there, and the
other files keep what they had. -/
theorem fileAt?_of_writeFile (hname : d.nameAt? path = some name)
    (hwrite : d.writeFile path text = .ok (after, shown)) :
    shown = [] ∧ after.fileAt? path = some text.toUTF8.toList
      ∧ ∀ other, other ≠ name → after.content? other = d.content? other := by
  obtain ⟨p, hpath, hplace, hwritten⟩ := writeFile_of_nameAt? text hname
  rw [hwrite] at hwritten
  split at hwritten
  · cases hwritten
  · next hslash =>
      cases hwritten
      refine ⟨rfl, ?_, fun other hother => content?_put_of_ne hother⟩
      simp only [fileAt?, openFile, hpath, place_put hplace, if_neg hslash]

/-- Nothing else that can be written to is in the directory. -/
theorem eq_of_writeFile (hname : d.nameAt? path = none)
    (hwrite : d.writeFile path text = .ok (after, shown)) : after = d := by
  unfold nameAt? at hname
  unfold writeFile at hwrite
  rcases hpath : Path.ofText path with fault | p <;> simp only [hpath] at hname hwrite
  · cases hwrite
  cases hplace : d.place p <;> simp only [hplace] at hname hwrite
  case file | free => cases hname
  case directory | insideFile | nowhere => cases hwrite
  case elsewhere =>
    split at hwrite <;> cases hwrite
    rfl
  case overlong => split at hwrite <;> cases hwrite
  case fixture kind =>
    split at hwrite
    · cases hwrite
    · cases hshown : kind.write text with
      | error fault => simp [hshown, Except.map] at hwrite
      | ok shown =>
        rw [hshown] at hwrite
        cases hwrite
        rfl

theorem openFile_of_fileAt? (h : d.fileAt? path = some content) :
    d.openFile path = .ok [.stretch content] := by
  unfold fileAt? at h
  split at h
  · next hopen => rw [hopen, Option.some.inj h]
  · cases h

/-! ## Runs -/

section

variable {input : String} {json : Option String} {opened : Except String (List ReadStep)}

open Session

/-- If a session has a file of records to write, it can be written. -/
def Accepts (d : Directory) (s : Session) : Prop :=
  ∀ path text, s.toWrite = some (path, text) → ∃ written, d.writeFile path text = .ok written

theorem eq_some_of_toWrite (h : (start input json opened).toWrite = some (path, text)) :
    json = some path := by
  rcases opened with cause | medium
  · cases h
  rcases hfailure : (Reading.ofMedium medium).failure with _ | error
  · rw [start_of_reading input json hfailure] at h
    obtain ⟨_, rfl, hpath⟩ := Option.map_eq_some_iff.mp h
    cases hpath
    rfl
  · rw [start_of_failure input json hfailure] at h
    cases h

theorem accepts_start
    (h : ∀ path, json = some path → ∀ text, ∃ written, d.writeFile path text = .ok written) :
    d.Accepts (start input json opened) :=
  fun path text htext => h path (eq_some_of_toWrite htext) text

theorem accepts_start_none : d.Accepts (start input none opened) := by
  refine accepts_start fun path hpath => ?_
  cases hpath

theorem shown_start : (start input json opened).shown = [] := by
  rcases opened with cause | medium
  · rfl
  rcases hfailure : (Reading.ofMedium medium).failure with _ | error
  · rw [start_of_reading input json hfailure]
  · rw [start_of_failure input json hfailure]

theorem runOpened_of_nothing_to_write (d : Directory)
    (h : (start input json opened).toWrite = none) :
    d.runOpened input json opened = (start input json opened, d) := by
  simp only [runOpened, h]

/-- A run that no file of records is asked of leaves the directory alone. -/
theorem runOpened_of_no_path (d : Directory) :
    (d.runOpened input none opened).1.shown = [] ∧ (d.runOpened input none opened).2 = d := by
  have hnothing : (start input none opened).toWrite = none := by
    refine Option.eq_none_iff_forall_not_mem.mpr fun _ hwrite => ?_
    cases eq_some_of_toWrite hwrite
  rw [d.runOpened_of_nothing_to_write hnothing]
  exact ⟨shown_start, rfl⟩

theorem runOpened_of_written (hwrite : (start input json opened).toWrite = some (path, text))
    (hwritten : d.writeFile path text = .ok (after, shown)) :
    d.runOpened input json opened
      = ((start input json opened).written path (.ok shown), after) := by
  simp only [runOpened, hwrite, hwritten]

/-- A run that can write its file of records does not fail in the end. -/
theorem runOpened_of_accepts (h : d.Accepts (start input json opened)) :
    (d.runOpened input json opened).1.lines = (start input json opened).lines
      ∧ (d.runOpened input json opened).1.result = (start input json opened).result := by
  rcases hwrite : (start input json opened).toWrite with _ | ⟨path, text⟩
  · rw [d.runOpened_of_nothing_to_write hwrite]
    exact ⟨rfl, rfl⟩
  · obtain ⟨⟨after, shown⟩, hwritten⟩ := h path text hwrite
    rw [runOpened_of_written hwrite hwritten]
    exact ⟨rfl, rfl⟩

/-- What a run leaves of the directory is what writing the file of records makes
of it. -/
theorem writeFile_of_accepts (h : d.Accepts (start input json opened))
    (hwrite : (start input json opened).toWrite = some (path, text)) :
    d.writeFile path text
      = .ok ((d.runOpened input json opened).2, (d.runOpened input json opened).1.shown) := by
  obtain ⟨⟨after, shown⟩, hwritten⟩ := h path text hwrite
  rw [runOpened_of_written hwrite hwritten, hwritten]
  rfl

end

theorem run_of_openFile {medium : List ReadStep} (h : d.openFile path = .ok medium)
    (json : Option String) : d.run path json = d.runOpened path json (.ok medium) := by
  rw [run, h]
  rfl

theorem execute_of_dump {arguments : List String} {options : Options}
    (h : Request.ofArguments arguments = .dump options) (colours : Bool) :
    d.execute colours arguments = ((d.run options.input options.json).1.report options colours,
      (d.run options.input options.json).2) := by
  simp only [execute, h]

end Directory

end FluxMarks.Command
