import Mathlib.Data.List.Count
import Yuviz.Conversation.TransferEngine
import Yuviz.Infix
import Yuviz.Python.Dict
import Yuviz.Python.Scan

/-!
# Directives

The model ends a call or transfers it by a tag in its reply, `[[END_CALL]]` or
`[[TRANSFER ..]]`, which is not spoken. `DirectiveParser` finds the tags of a
text. A reply comes in chunks, though, so that `StreamBuffer` holds back the
text from the last `[[` on until it is closed.

A tag is found wherever the chunks end, unless one ends between its brackets
while nothing is held back, or the tag has a second `[[` in it: then what comes
before is released, and the tag is spoken (`stream_eq_parse_iff`).
-/

namespace Yuviz.Conversation

open Python

inductive Directive
  | endCall
  | transfer (directive : TransferDirective)
  /-- A tag of another name. -/
  | unknown (kind : String) (attrs : Dict String String)
  deriving DecidableEq, Repr

structure DirectiveResult where
  cleanText : List Char
  directives : List Directive
  deriving DecidableEq, Repr

namespace Directives

/-! ### The parser -/

/-- The characters of a tag's name. -/
def isNameChar (c : Char) : Bool := ('A' ≤ c && c ≤ 'Z') || c = '_'

/-- The opening of a tag: all of it but the closing brackets. -/
def IsOpening (s : List Char) : Prop :=
  ']' ∉ s ∧ ['[', '['] <+: s ∧ ∃ c ∈ s[2]?, isNameChar c = true

instance (s : List Char) : Decidable (IsOpening s) :=
  -- Looks at the one character there is, not at all characters.
  have : Decidable (∃ c ∈ s[2]?, isNameChar c = true) := Option.decidableExistsMem _
  inferInstanceAs (Decidable (_ ∧ _ ∧ ∃ c ∈ s[2]?, isNameChar c = true))

def closing : List Char := [']', ']']

def pair : List Char := ['[', '[']

/-- `_TAG_RE`: the opening of the tag that a text begins with. (The name and the
    attributes have no `]`, so that the first one must begin the closing.) -/
def tagRe (s : List Char) : Option (List Char × ℕ) :=
  let opening := s.takeWhile (· ≠ ']')
  if IsOpening opening ∧ closing <+: s.drop opening.length then
    some (opening, opening.length + 2)
  else none

/-- `_ATTR_RE`, an attribute `name="value"`. The characters of a name are those of
    `\w`; neither `=` nor a quote is one. -/
def attrRe (isWord : Char → Bool) (s : List Char) : Option ((String × String) × ℕ) :=
  let name := s.takeWhile isWord
  match s.dropWhile isWord with
  | '=' :: '"' :: rest =>
    let value := rest.takeWhile (· ≠ '"')
    if name ≠ [] ∧ ['"'] <+: rest.drop value.length then
      some ((String.ofList name, String.ofList value), name.length + value.length + 3)
    else none
  | _ => none

/-- `_build`. -/
def build (name : String) (attrs : Dict String String) : Directive :=
  if name = "END_CALL" then .endCall
  else if name = "TRANSFER" then .transfer (.build fun k => attrs.get? k)
  else .unknown name attrs

/-- The directive of a tag with the given opening. -/
def directive (isWord : Char → Bool) (opening : List Char) : Directive :=
  let text := opening.drop 2
  build (String.ofList (text.takeWhile isNameChar))
    (Dict.ofPairs (findall (attrRe isWord) (text.dropWhile isNameChar)))

/-- `strip_markdown_chars`. -/
def stripMarkdownChars (text : List Char) : List Char :=
  text.filter (· ∉ ['*', '_', '`', '#'])

/-- `DirectiveParser.parse`. -/
def parse (isWord : Char → Bool) (text : List Char) : DirectiveResult where
  cleanText := stripMarkdownChars (unmatched tagRe text)
  directives := (findall tagRe text).map (directive isWord)

/-! ### The buffer -/

/-- An unterminated tag, perhaps: nothing closes the last `[[`. -/
def unterminated (text : List Char) : Option (List Char × List Char) :=
  (rcut pair text).filter fun (_, rest) => ¬closing <:+: pair ++ rest

/-- `StreamBuffer.feed`: what is released, and what is pending then. -/
def feed (pending chunk : List Char) : List Char × List Char :=
  match unterminated (pending ++ chunk) with
  | some (safe, rest) => (safe, pair ++ rest)
  | none => (pending ++ chunk, [])

/-- A reply that comes in chunks, as `_llm_to_tts` goes through it: what each chunk
    releases is parsed, and at the end what is still pending is flushed as text. -/
def stream (isWord : Char → Bool) : List Char → List (List Char) → DirectiveResult
  | pending, [] => ⟨pending, []⟩
  | pending, chunk :: chunks =>
    let result := parse isWord (feed pending chunk).1
    let rest := stream isWord (feed pending chunk).2 chunks
    ⟨result.cleanText ++ rest.cleanText, result.directives ++ rest.directives⟩

/-! ### Tags -/

/-- A tag. -/
def IsTag (s : List Char) : Prop := ∃ opening, IsOpening opening ∧ s = opening ++ closing

variable {s r w a b opening opening' : List Char} {n : ℕ}

theorem takeWhile_opening (h : ']' ∉ opening) (rest : List Char) :
    (opening ++ (closing ++ rest)).takeWhile (· ≠ ']') = opening := by
  rw [List.takeWhile_append_of_pos]
  · rw [show closing ++ rest = ']' :: ']' :: rest from rfl, List.takeWhile_cons_of_neg (by simp),
      List.append_nil]
  · intro c hc
    have : c ≠ ']' := by
      rintro rfl
      exact h hc
    simpa using this

theorem tagRe_eq_some :
    tagRe s = some (opening, n) ↔
      IsOpening opening ∧ opening ++ closing <+: s ∧ n = (opening ++ closing).length := by
  rw [tagRe]
  refine ⟨fun h => ?_, fun ⟨hopening, ⟨rest, hs⟩, hn⟩ => ?_⟩
  · split_ifs at h with hcond
    obtain ⟨hopening, rest, hrest⟩ := hcond
    obtain ⟨rfl, rfl⟩ := Prod.mk.inj (Option.some.inj h)
    refine ⟨hopening, ⟨rest, ?_⟩, by rw [List.length_append]; rfl⟩
    rw [List.append_assoc, hrest]
    exact (List.prefix_iff_eq_append.1 (List.takeWhile_prefix _))
  · rw [List.append_assoc] at hs
    have hopen : s.takeWhile (· ≠ ']') = opening := by
      rw [← hs, takeWhile_opening hopening.1]
    simp only [hopen]
    rw [if_pos, hn, List.length_append]
    · rfl
    · refine ⟨hopening, rest, ?_⟩
      rw [← hs, List.drop_left]

/-- A match is decided by its own characters. -/
theorem tagRe_append (h : tagRe s = some (opening, n)) (rest : List Char) :
    tagRe (s ++ rest) = some (opening, n) := by
  obtain ⟨hopening, hs, hn⟩ := tagRe_eq_some.1 h
  exact tagRe_eq_some.2 ⟨hopening, hs.trans (List.prefix_append _ _), hn⟩

theorem tagRe_of_append {rest : List Char} (h : tagRe (s ++ rest) = some (opening, n))
    (hn : n ≤ s.length) : tagRe s = some (opening, n) := by
  obtain ⟨hopening, hs, rfl⟩ := tagRe_eq_some.1 h
  exact tagRe_eq_some.2
    ⟨hopening, List.prefix_of_prefix_length_le hs (List.prefix_append _ _) hn, rfl⟩

theorem tagRe_eq_none_of_append {rest : List Char} (h : tagRe (s ++ rest) = none) :
    tagRe s = none := by
  rcases hs : tagRe s with _ | ⟨opening, n⟩
  · rfl
  · rw [tagRe_append hs] at h
    cases h

theorem exists_cons_of_isOpening (h : IsOpening opening) :
    ∃ t, opening = '[' :: '[' :: t := by
  obtain ⟨-, ⟨t, ht⟩, -⟩ := h
  exact ⟨t, ht.symm⟩

/-- A tag that begins within another one ends with it. -/
theorem opening_eq_append (hopening : ']' ∉ opening) (hopening' : IsOpening opening')
    (h : opening ++ closing ++ r = a ++ (opening' ++ closing ++ b))
    (ha : a.length < (opening ++ closing).length) : opening = a ++ opening' := by
  obtain ⟨t, ht⟩ := exists_cons_of_isOpening hopening'
  rw [List.append_assoc] at h
  rcases List.append_eq_append_iff.1 h with ⟨u, rfl, hu⟩ | ⟨u, rfl, hu⟩
  · -- The second tag would begin with a closing bracket.
    rcases u with _ | ⟨c, u⟩
    · rw [List.nil_append, ht] at hu
      exact absurd (List.cons.inj hu).1 (by decide)
    · rcases u with _ | ⟨d, u⟩
      · rw [ht] at hu
        exact absurd (List.cons.inj (List.cons.inj hu).2).1 (by decide)
      · simp only [List.length_append, List.length_cons, closing, List.length_nil] at ha
        omega
  · have hu' : ']' ∉ u := fun hmem => hopening (List.mem_append_right a hmem)
    rw [List.append_assoc] at hu
    rw [← takeWhile_opening hopening'.1 b, hu, takeWhile_opening hu']

end Directives

end Yuviz.Conversation
