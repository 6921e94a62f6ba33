import Yuviz.Python.Dict
import Mathlib.Data.Nat.Notation

/-!
# CSV files

What `csv.reader` makes of the text of a file, in its default dialect: fields
are separated by commas, and a field in quotes may hold commas, line breaks and,
doubled, quotes. The text is read line by line, each line character by
character; a record ends with its line unless a quote is open.
-/

namespace Yuviz.Python.Csv

inductive ReaderState
  | startRecord
  | startField
  | inField
  | inQuotedField
  | quoteInQuotedField
  | eatCrnl
  deriving DecidableEq

/-- A record that is being read. -/
structure Reader where
  state : ReaderState := .startRecord
  field : List Char := []
  fields : List String := []

/-- `csv.Error`. -/
inductive Error
  | fieldLarger
  | newLineInUnquoted
  deriving DecidableEq

def Error.message : Error → String
  | fieldLarger => "field larger than field limit (131072)"
  | newLineInUnquoted =>
    "new-line character seen in unquoted field - do you need to open the file with newline=''?"

/-- `csv.field_size_limit()`. -/
def fieldSizeLimit : ℕ := 131072

namespace Reader

def saveField (r : Reader) : Reader :=
  { r with fields := r.fields ++ [String.ofList r.field], field := [] }

def addChar (r : Reader) (c : Char) : Except Error Reader :=
  if fieldSizeLimit ≤ r.field.length then .error .fieldLarger
  else .ok { r with field := r.field ++ [c] }

/-- The field ends, and the record with it. -/
def endRecord (r : Reader) : Option Char → Reader
  | none => { r.saveField with state := .startRecord }
  | some _ => { r.saveField with state := .eatCrnl }

/-- The end of a line, or a character that ends one. -/
def isEnd (c : Option Char) : Bool := c = none || c = some '\n' || c = some '\r'

/-- The first character of a field. -/
def start (r : Reader) (c : Option Char) : Except Error Reader :=
  if isEnd c then .ok (r.endRecord c)
  else match c with
    | some '"' => .ok { r with state := .inQuotedField }
    | some ',' => .ok { r.saveField with state := .startField }
    | some c => { r with state := .inField }.addChar c
    | none => .ok r

/-- `parse_process_char`, where nothing is the end of a line. -/
def process (r : Reader) (c : Option Char) : Except Error Reader :=
  match r.state with
  | .startRecord =>
    if c = none then .ok r
    else if isEnd c then .ok { r with state := .eatCrnl }
    else r.start c
  | .startField => r.start c
  | .inField =>
    if isEnd c then .ok (r.endRecord c)
    else match c with
      | some ',' => .ok { r.saveField with state := .startField }
      | some c => r.addChar c
      | none => .ok r
  | .inQuotedField =>
    match c with
    | none => .ok r
    | some '"' => .ok { r with state := .quoteInQuotedField }
    | some c => r.addChar c
  | .quoteInQuotedField =>
    if isEnd c then .ok (r.endRecord c)
    else match c with
      | some '"' => { r with state := .inQuotedField }.addChar '"'
      | some ',' => .ok { r.saveField with state := .startField }
      | some c => { r with state := .inField }.addChar c
      | none => .ok r
  | .eatCrnl =>
    match c with
    | none => .ok { r with state := .startRecord }
    | some c => if isEnd c then .ok r else .error .newLineInUnquoted

end Reader

/-- The records of the rest of a text, up to an error. -/
def records (r : Reader) : List Char → List (List String) × Option Error
  | [] => (if r.field ≠ [] ∨ r.state = .inQuotedField then [r.saveField.fields] else [], none)
  | c :: s =>
    match r.process (some c) with
    | .error e => ([], some e)
    | .ok r =>
      if c = '\n' ∨ s = [] then
        -- The line is over.
        match r.process none with
        | .error e => ([], some e)
        | .ok r =>
          if r.state = .startRecord then
            let rest := records {} s
            (r.fields :: rest.1, rest.2)
          else records r s
      else records r s

/-- `csv.reader(io.StringIO(text))`. -/
def reader (text : List Char) : List (List String) × Option Error := records {} text

variable {r r' : Reader} {c : Char} {s : List Char}

/-- A character in the middle of a line. -/
theorem records_cons_of_ne (h : r.process (some c) = .ok r') (hc : c ≠ '\n') (hs : s ≠ []) :
    records r (c :: s) = records r' s := by
  rw [records, h]
  dsimp only
  rw [if_neg (not_or.2 ⟨hc, hs⟩)]

/-- A character after which a quote is open. -/
theorem records_cons_of_inQuotedField (h : r.process (some c) = .ok r')
    (hr' : r'.state = .inQuotedField) : records r (c :: s) = records r' s := by
  have hline : r'.process none = .ok r' := by
    rw [Reader.process, hr']
  rw [records, h]
  dsimp only
  split_ifs
  · rw [hline]
    dsimp only
    rw [if_neg (by rw [hr']; decide)]
  · rfl

/-- The last character of a record. -/
theorem records_newline {r'' : Reader} (h : r.process (some '\n') = .ok r')
    (hline : r'.process none = .ok r'') (hr'' : r''.state = .startRecord) :
    records r ('\n' :: s) = (r''.fields :: (records {} s).1, (records {} s).2) := by
  simp only [records, h, hline, hr'', true_or, if_true]

/-! ### Quoted fields -/

/-- A text between quotes. -/
def escape (s : List Char) : List Char := s.flatMap fun c => if c = '"' then ['"', '"'] else [c]

theorem addChar_of_lt (h : r.field.length < fieldSizeLimit) (c : Char) :
    r.addChar c = .ok { r with field := r.field ++ [c] } :=
  if_neg (Nat.not_le.2 h)

/-- What a quoted field holds is read as it is, whatever it is. -/
theorem records_escape (p : List Char) {field : List Char} {fields : List String} {s : List Char}
    (hlen : field.length + p.length ≤ fieldSizeLimit) :
    records ⟨.inQuotedField, field, fields⟩ (escape p ++ '"' :: s) =
      records ⟨.inQuotedField, field ++ p, fields⟩ ('"' :: s) := by
  induction p generalizing field with
  | nil =>
    rw [List.append_nil]
    rfl
  | cons c p ih =>
    rw [List.length_cons] at hlen
    have hroom : field.length < fieldSizeLimit := by omega
    have hlen' : (field ++ [c]).length + p.length ≤ fieldSizeLimit := by
      rw [List.length_append, List.length_singleton]
      omega
    rw [List.append_cons field c p, ← ih hlen', escape, List.flatMap_cons, List.append_assoc]
    change records _ (_ ++ (escape p ++ '"' :: s)) = _
    by_cases hc : c = '"'
    · -- The first quote may close the field, the second shows that it does not.
      subst hc
      rw [if_pos rfl, List.cons_append, List.cons_append, List.nil_append]
      have hfirst : (⟨.inQuotedField, field, fields⟩ : Reader).process (some '"') =
          .ok ⟨.quoteInQuotedField, field, fields⟩ := rfl
      have hsecond : (⟨.quoteInQuotedField, field, fields⟩ : Reader).process (some '"') =
          .ok ⟨.inQuotedField, field ++ ['"'], fields⟩ :=
        addChar_of_lt (r := ⟨.inQuotedField, field, fields⟩) hroom '"'
      rw [records_cons_of_ne hfirst (by decide) (List.cons_ne_nil _ _),
        records_cons_of_inQuotedField hsecond rfl]
    · have hchar : (⟨.inQuotedField, field, fields⟩ : Reader).process (some c) =
          .ok ⟨.inQuotedField, field ++ [c], fields⟩ := by
        rw [← addChar_of_lt (r := ⟨.inQuotedField, field, fields⟩) hroom c]
        unfold Reader.process
        dsimp only
        split
        · contradiction
        · rename_i h
          exact absurd (Option.some.inj h) hc
        · rename_i h
          rw [Option.some.inj h]
      rw [if_neg hc, List.singleton_append, records_cons_of_inQuotedField hchar rfl]

/-- The record of one quoted field. -/
theorem records_quoted {p : List Char} (hlen : p.length ≤ fieldSizeLimit) (s : List Char) :
    records {} ('"' :: (escape p ++ '"' :: '\n' :: s)) =
      ([String.ofList p] :: (records {} s).1, (records {} s).2) := by
  have hopen : ({} : Reader).process (some '"') = .ok ⟨.inQuotedField, [], []⟩ := rfl
  have hclose : (⟨.inQuotedField, p, []⟩ : Reader).process (some '"') =
      .ok ⟨.quoteInQuotedField, p, []⟩ := rfl
  have hnewline : (⟨.quoteInQuotedField, p, []⟩ : Reader).process (some '\n') =
      .ok ⟨.eatCrnl, [], [String.ofList p]⟩ := rfl
  have hline : (⟨.eatCrnl, [], [String.ofList p]⟩ : Reader).process none =
      .ok ⟨.startRecord, [], [String.ofList p]⟩ := rfl
  rw [records_cons_of_inQuotedField hopen rfl,
    records_escape p (by rw [List.length_nil, Nat.zero_add]; exact hlen), List.nil_append,
    records_cons_of_ne hclose (by decide) (List.cons_ne_nil _ _)]
  exact records_newline hnewline hline rfl

end Yuviz.Python.Csv
