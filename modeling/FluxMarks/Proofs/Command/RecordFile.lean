import FluxMarks.Command.RecordFile
import FluxMarks.Proofs.Dump

/-!
# Reading the file of records back

The file of records is JSON, and is read as such: its characters make
lexemes, among which the layout of the file leaves no trace, and the lexemes
make an array of objects, from which the parts of an entry are taken by their
names. Reading has nothing of how the file is written, and gives back what
was written (`RecordFile.read?_text`).
-/

namespace FluxMarks.Command

/-! ## Lexemes -/

inductive Lexeme where
  | openArray
  | closeArray
  | openObject
  | closeObject
  | comma
  | colon
  /-- What stands between quotation marks. -/
  | text (text : String)
  /-- A number, a truth value, or `null`. -/
  | word (word : String)
  /-- Something that is not read. -/
  | broken
  deriving Repr, DecidableEq

def Lexeme.ofMark : Char → Lexeme
  | '[' => .openArray
  | ']' => .closeArray
  | '\x7b' => .openObject
  | '\x7d' => .closeObject
  | ',' => .comma
  | ':' => .colon
  | _ => .broken

/-- A lexeme that has been begun, with the characters it has by now, last one
first. Between two lexemes it is a word without any. -/
inductive Begun where
  | text (held : List Char)
  | word (held : List Char)

def endWord (held : List Char) : List Lexeme :=
  if held.isEmpty then [] else [.word (String.ofList held.reverse)]

/-- Reads characters into lexemes. A string with an escape in it is not
read. -/
def lexemesFrom : Begun → List Char → List Lexeme
  | .text _, [] => [.broken]
  | .word held, [] => endWord held
  | .text held, c :: rest =>
    if c = '"' then .text (String.ofList held.reverse) :: lexemesFrom (.word []) rest
    else if c = '\\' then [.broken]
    else lexemesFrom (.text (c :: held)) rest
  | .word held, c :: rest =>
    if c.isAlphanum then lexemesFrom (.word (c :: held)) rest
    else if c = '"' then endWord held ++ lexemesFrom (.text []) rest
    else if c.isWhitespace then endWord held ++ lexemesFrom (.word []) rest
    else endWord held ++ .ofMark c :: lexemesFrom (.word []) rest

/-- A text is read as these lexemes, whatever follows it. -/
def Lexes (text : String) (lexemes : List Lexeme) : Prop :=
  ∀ rest, lexemesFrom (.word []) (text.toList ++ rest) = lexemes ++ lexemesFrom (.word []) rest

theorem Lexes.append {s t : String} {xs ys : List Lexeme} (hs : Lexes s xs) (ht : Lexes t ys) :
    Lexes (s ++ t) (xs ++ ys) := by
  intro rest
  rw [String.toList_append, List.append_assoc, hs, ht, List.append_assoc]

theorem lexemesFrom_text {chars : List Char} (h : ∀ c ∈ chars, IsFieldChar c)
    (held rest : List Char) :
    lexemesFrom (.text held) (chars ++ rest)
      = lexemesFrom (.text (chars.reverse ++ held)) rest := by
  induction chars generalizing held with
  | nil => rfl
  | cons c chars ih =>
      have hc := h c (List.mem_cons_self ..)
      have hquote : c ≠ '"' := hc.ne (by decide)
      have hescape : c ≠ '\\' := hc.ne (by decide)
      rw [List.cons_append, lexemesFrom, if_neg hquote, if_neg hescape,
        ih fun d hd => h d (List.mem_cons_of_mem _ hd)]
      simp

theorem lexemesFrom_word {chars : List Char} (h : ∀ c ∈ chars, c.isAlphanum = true)
    (held rest : List Char) :
    lexemesFrom (.word held) (chars ++ rest)
      = lexemesFrom (.word (chars.reverse ++ held)) rest := by
  induction chars generalizing held with
  | nil => rfl
  | cons c chars ih =>
      rw [List.cons_append, lexemesFrom, if_pos (h c (List.mem_cons_self ..)),
        ih fun d hd => h d (List.mem_cons_of_mem _ hd)]
      simp

theorem lexes_quoted {text : String} (h : IsField text) :
    Lexes (RecordFile.quoted text) [.text text] := by
  intro rest
  have hchars : (RecordFile.quoted text).toList ++ rest = '"' :: (text.toList ++ '"' :: rest) := by
    simp [RecordFile.quoted]
  rw [hchars]
  show lexemesFrom (.text []) (text.toList ++ '"' :: rest) = _
  rw [lexemesFrom_text h.isFieldChar, lexemesFrom, if_pos rfl, List.append_nil,
    List.reverse_reverse, String.ofList_toList]
  rfl

theorem Lexes.append_quoted {s text : String} {xs : List Lexeme} (hs : Lexes s xs)
    (h : IsField text) :
    Lexes (s ++ RecordFile.quoted text ++ ",\n") (xs ++ [.text text, .comma]) := by
  have hcomma : Lexes ",\n" [.comma] := fun _ => rfl
  rw [String.append_assoc]
  exact hs.append ((lexes_quoted h).append hcomma)

/-- A word has to be followed by something that ends it. -/
theorem Lexes.append_word {s word : String} {xs : List Lexeme} (hs : Lexes s xs)
    (hne : word.toList ≠ []) (h : ∀ c ∈ word.toList, c.isAlphanum = true) :
    Lexes (s ++ word ++ ",\n") (xs ++ [.word word, .comma]) := by
  rw [String.append_assoc]
  refine hs.append fun rest => ?_
  have hchars : (word ++ ",\n").toList ++ rest = word.toList ++ ',' :: '\n' :: rest := by simp
  rw [hchars, lexemesFrom_word h, List.append_nil]
  show endWord word.toList.reverse ++ .comma :: lexemesFrom (.word []) rest = _
  simp [endWord, hne]

/-! ## Entries -/

/-- A member of an object: its name, and the lexeme that is its value. -/
abbrev Member := String × Lexeme

namespace Lexeme

def text? : Lexeme → Option String
  | .text s => some s
  | _ => none

def number? : Lexeme → Option Nat
  | .word s => decimal? s
  | _ => none

def verdict? : Lexeme → Option (Option Bool)
  | .word "true" => some (some true)
  | .word "false" => some (some false)
  | .word "null" => some none
  | _ => none

end Lexeme

/-- The entry that an object stands for, if it has all members of one. -/
def RecordEntry.ofMembers? (members : List Member) : Option RecordEntry := do
  let tag ← (← members.lookup "tag").text?
  let length ← (← members.lookup "length").number?
  let check ← (← members.lookup "check").text?
  let intact ← (← members.lookup "intact").verdict?
  let payload ← (← members.lookup "payload").text?
  return { tag, length, check, intact, payload }

namespace RecordFile

/-- Reads the members of an object, going on from those already `held`, and
then the objects after it, to the end of the array. -/
def readFrom (held : List Member) : List Lexeme → Option (List RecordEntry)
  | .text name :: .colon :: value :: .comma :: rest => readFrom (held ++ [(name, value)]) rest
  | .text name :: .colon :: value :: .closeObject :: .comma :: .openObject :: rest => do
    let entry ← RecordEntry.ofMembers? (held ++ [(name, value)])
    let entries ← readFrom [] rest
    return entry :: entries
  | [.text name, .colon, value, .closeObject, .closeArray] => do
    let entry ← RecordEntry.ofMembers? (held ++ [(name, value)])
    return [entry]
  | _ => none

/-- Reads a text as an array of entries. -/
def read? (text : String) : Option (List RecordEntry) :=
  match lexemesFrom (.word []) text.toList with
  | [.openArray, .closeArray] => some []
  | .openArray :: .openObject :: rest => readFrom [] rest
  | _ => none

end RecordFile

/-! ## Back -/

/-- An entry whose texts can stand between quotation marks as they are. -/
structure RecordEntry.IsPlain (e : RecordEntry) : Prop where
  tag : IsField e.tag
  check : IsField e.check
  payload : IsField e.payload

theorem Lexeme.verdict?_verdict (intact : Option Bool) :
    Lexeme.verdict? (.word (RecordFile.verdict intact)) = some intact := by
  rcases intact with _ | _ | _ <;> rfl

namespace RecordEntry

def members (e : RecordEntry) : List Member :=
  [("tag", .text e.tag), ("length", .word (toString e.length)), ("check", .text e.check),
    ("intact", .word (RecordFile.verdict e.intact)), ("payload", .text e.payload)]

/-- The lexemes of an entry after the bracket that opens it. -/
def lexemes (e : RecordEntry) : List Lexeme :=
  [.text "tag", .colon, .text e.tag, .comma,
    .text "length", .colon, .word (toString e.length), .comma,
    .text "check", .colon, .text e.check, .comma,
    .text "intact", .colon, .word (RecordFile.verdict e.intact), .comma,
    .text "payload", .colon, .text e.payload, .closeObject]

theorem ofMembers?_members (e : RecordEntry) : ofMembers? e.members = some e := by
  have htag : e.members.lookup "tag" = some (.text e.tag) := rfl
  have hlength : e.members.lookup "length" = some (.word (toString e.length)) := rfl
  have hcheck : e.members.lookup "check" = some (.text e.check) := rfl
  have hintact : e.members.lookup "intact" = some (.word (RecordFile.verdict e.intact)) := rfl
  have hpayload : e.members.lookup "payload" = some (.text e.payload) := rfl
  simp only [ofMembers?, htag, hlength, hcheck, hintact, hpayload, Option.bind_eq_bind,
    Option.bind_some, Lexeme.text?, Lexeme.number?, decimal?_toString, Lexeme.verdict?_verdict]
  rfl

end RecordEntry

namespace RecordFile

theorem verdict_ne_nil (intact : Option Bool) : (verdict intact).toList ≠ [] := by
  rcases intact with _ | _ | _ <;> simp [verdict]

theorem isAlphanum_of_mem_verdict (intact : Option Bool) :
    ∀ c ∈ (verdict intact).toList, c.isAlphanum = true := by
  rcases intact with _ | _ | _ <;> simp [verdict]

theorem lexes_entryText {e : RecordEntry} (h : e.IsPlain) :
    Lexes (entryText e) (.openObject :: e.lexemes) := by
  have hopen : Lexes "  \x7b\n" [.openObject] := fun _ => rfl
  have htag : Lexes "    \"tag\": " [.text "tag", .colon] := fun _ => rfl
  have hlength : Lexes "    \"length\": " [.text "length", .colon] := fun _ => rfl
  have hcheck : Lexes "    \"check\": " [.text "check", .colon] := fun _ => rfl
  have hintact : Lexes "    \"intact\": " [.text "intact", .colon] := fun _ => rfl
  have hpayload : Lexes "    \"payload\": " [.text "payload", .colon] := fun _ => rfl
  have hline : Lexes "\n" [] := fun _ => rfl
  have hclose : Lexes "  \x7d" [.closeObject] := fun _ => rfl
  have hfirst := (hopen.append htag).append_quoted h.tag
  have hsecond := (hfirst.append hlength).append_word (isField_toString e.length).ne_nil
    fun _ hc => isAlphanum_of_mem_toString hc
  have hthird := (hsecond.append hcheck).append_quoted h.check
  have hfourth := (hthird.append hintact).append_word (verdict_ne_nil e.intact)
    (isAlphanum_of_mem_verdict e.intact)
  have hfifth := (hfourth.append hpayload).append (lexes_quoted h.payload)
  exact (hfifth.append hline).append hclose

/-- The lexemes of a file after the bracket that opens its first entry. -/
def lexemes : RecordEntry → List RecordEntry → List Lexeme
  | e, [] => e.lexemes ++ [.closeArray]
  | e, next :: rest => e.lexemes ++ .comma :: .openObject :: lexemes next rest

theorem lexes_entries {e : RecordEntry} {rest : List RecordEntry} (he : e.IsPlain)
    (hrest : ∀ next ∈ rest, next.IsPlain) :
    Lexes (",\n".intercalate ((e :: rest).map entryText) ++ "\n]")
      (.openObject :: lexemes e rest) := by
  induction rest generalizing e with
  | nil => exact (lexes_entryText he).append (fun _ => rfl : Lexes "\n]" [.closeArray])
  | cons next rest ih =>
      have hcomma : Lexes ",\n" [.comma] := fun _ => rfl
      have hnext := ih (hrest next (List.mem_cons_self ..)) fun other hother =>
        hrest other (List.mem_cons_of_mem _ hother)
      have hall := (lexes_entryText he).append (hcomma.append hnext)
      simp only [List.map_cons, String.intercalate_cons_cons, String.append_assoc]
      exact hall

theorem readFrom_lexemes (e : RecordEntry) (rest : List RecordEntry) :
    readFrom [] (lexemes e rest) = some (e :: rest) := by
  induction rest generalizing e with
  | nil =>
      show (RecordEntry.ofMembers? e.members).bind (fun entry => some [entry]) = _
      rw [RecordEntry.ofMembers?_members, Option.bind_some]
  | cons next rest ih =>
      show (RecordEntry.ofMembers? e.members).bind (fun entry =>
        (readFrom [] (lexemes next rest)).bind fun entries => some (entry :: entries)) = _
      rw [RecordEntry.ofMembers?_members, ih, Option.bind_some, Option.bind_some]

/-- **What is written is read back.** -/
theorem read?_text {entries : List RecordEntry} (h : ∀ e ∈ entries, e.IsPlain) :
    read? (text entries) = some entries := by
  cases entries with
  | nil => rfl
  | cons e rest =>
      have hopen : Lexes "[\n" [.openArray] := fun _ => rfl
      have hfile := hopen.append (lexes_entries (h e (List.mem_cons_self ..)) fun next hnext =>
        h next (List.mem_cons_of_mem _ hnext))
      have hlexemes : lexemesFrom (.word []) (text (e :: rest)).toList
          = .openArray :: .openObject :: lexemes e rest := by
        have hall := hfile []
        rwa [List.append_nil, ← String.append_assoc, show lexemesFrom (.word []) [] = [] from rfl,
          List.append_nil] at hall
      rw [read?, hlexemes]
      exact readFrom_lexemes e rest

end RecordFile

end FluxMarks.Command
