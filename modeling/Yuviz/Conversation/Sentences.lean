import Yuviz.Conversation.Directives
import Yuviz.Python.Str

/-!
# Sentences

`_llm_to_tts` speaks a reply sentence by sentence while it comes in. What a token
releases is appended to a buffer, and the buffer is split with `_SENTENCE_RE` as
long as there is a match: at the whitespace after a terminator, unless it belongs
to an abbreviation or an initial, and at a terminator that ends the buffer. What
is left at the end of the reply is spoken as one sentence.

A match takes at least one character off the buffer, so the loop ends
(`wellFounded_splits`). What is modelled is a reply in which nothing else happens:
no tool is called, there is no exception, and the caller does not interrupt.
-/

namespace Yuviz.Conversation.Sentences

open Python Directives

/-! ### The pattern

The positions of a text are given by what comes before, last character first, and
by what follows. -/

def isTerminator (c : Char) : Bool := c = '.' || c = '!' || c = '?'

/-- The abbreviations that are excluded, without the full stop. -/
def abbreviations : List (List Char) :=
  [['M', 'r'], ['M', 's'], ['D', 'r'], ['S', 'r'], ['J', 'r'], ['S', 't'], ['M', 't'], ['v', 's']]

/-- `(?<!Mr\.)..(?<![A-Z]\.)` does not hold: the full stop is that of an abbreviation, or of
    an initial. -/
def isAbbreviation : List Char → Bool
  | '.' :: before => abbreviations.any (·.reverse.isPrefixOf before) ||
      before.head?.any fun c => 'A' ≤ c && c ≤ 'Z'
  | _ => false

/-- `_SENTENCE_RE`: the length of the match at a position. (`$` also matches before a newline
    that ends the text.) -/
def sentenceRe (before s : List Char) : Option ℕ :=
  let spaces := (s.takeWhile isspace).length
  if before.head?.any (fun c => c = '!' || c = '?') ∧ 0 < spaces then some spaces
  else if ¬ isAbbreviation before ∧ before.head?.any (· = '.') ∧ 0 < spaces then some spaces
  else if before.head?.any isTerminator ∧ (s = [] ∨ s = ['\n']) then some 0
  else none

/-- `_SENTENCE_RE.split(.., maxsplit=1)`: the texts before and after the first match. -/
def splitSentence : List Char → List Char → Option (List Char × List Char)
  | before, [] => (sentenceRe before []).map fun _ => (before.reverse, [])
  | before, c :: s =>
    match sentenceRe before (c :: s) with
    | some n => some (before.reverse, (c :: s).drop n)
    | none => splitSentence (c :: before) s

variable {before s a b u : List Char} {c : Char} {n : ℕ}

/-- The text before ends with a terminator. -/
def Ends (before : List Char) : Prop := before.head?.any isTerminator

instance (before : List Char) : Decidable (Ends before) := inferInstanceAs (Decidable (_ = true))

/-- A sentence ends here, whatever follows the whitespace. -/
def Breaks (before s : List Char) : Prop :=
  Ends before ∧ ¬ isAbbreviation before ∧ s.head?.any isspace

instance (before s : List Char) : Decidable (Breaks before s) :=
  inferInstanceAs (Decidable (_ ∧ _))

theorem length_takeWhile_pos : 0 < (s.takeWhile isspace).length ↔ s.head?.any isspace := by
  rcases s with _ | ⟨c, s⟩
  · simp
  · by_cases hc : isspace c <;> simp [hc]

theorem isAbbreviation_cons (h : c ≠ '.') : isAbbreviation (c :: before) = false := by
  rw [isAbbreviation]
  rintro before' heq
  exact h (List.cons.inj heq).1

theorem sentenceRe_of_breaks (h : Breaks before s) :
    sentenceRe before s = some (s.takeWhile isspace).length := by
  obtain ⟨hends, habbreviation, hspace⟩ := h
  rw [← length_takeWhile_pos] at hspace
  rcases before with _ | ⟨c, before⟩
  · simp [Ends] at hends
  · have hc : c = '.' ∨ c = '!' ∨ c = '?' := by simpa [Ends, isTerminator, or_assoc] using hends
    simp only [sentenceRe]
    obtain rfl | hc := hc
    · rw [if_neg (by simp), if_pos ⟨habbreviation, by simp, hspace⟩]
    · rw [if_pos ⟨by simpa using hc, hspace⟩]

theorem sentenceRe_of_not_breaks (h : ¬ Breaks before s) :
    sentenceRe before s = if Ends before ∧ (s = [] ∨ s = ['\n']) then some 0 else none := by
  rcases before with _ | ⟨c, before⟩
  · simp [sentenceRe, Ends]
  · have hspace (hc : isTerminator c) (habbreviation : ¬ isAbbreviation (c :: before)) :
        ¬ 0 < (s.takeWhile isspace).length := fun hpos =>
      h ⟨hc, habbreviation, length_takeWhile_pos.1 hpos⟩
    simp only [sentenceRe, Ends]
    rw [if_neg, if_neg]
    · rfl
    · rintro ⟨habbreviation, hc, hpos⟩
      exact hspace (by simp_all [isTerminator]) habbreviation hpos
    · rintro ⟨hc, hpos⟩
      have hne : c ≠ '.' := by
        rintro rfl
        simp at hc
      exact hspace (by simp_all [isTerminator]) (by simp [isAbbreviation_cons hne]) hpos

theorem sentenceRe_eq_none_iff :
    sentenceRe before s = none ↔
      ¬ Breaks before s ∧ ¬ (Ends before ∧ (s = [] ∨ s = ['\n'])) := by
  by_cases h : Breaks before s
  · simp [sentenceRe_of_breaks h, h]
  · rw [sentenceRe_of_not_breaks h, and_iff_right h]
    split_ifs with hend <;> simp [hend]

/-- There is a match only after a terminator, and it is of whitespace. -/
theorem sentenceRe_eq_some (h : sentenceRe before s = some n) :
    Ends before ∧ ∃ w b, s = w ++ b ∧ w.length = n ∧ ∀ c ∈ w, isspace c := by
  by_cases hbreaks : Breaks before s
  · rw [sentenceRe_of_breaks hbreaks, Option.some.injEq] at h
    exact ⟨hbreaks.1, _, _, List.takeWhile_append_dropWhile.symm, h, fun c => List.mem_takeWhile_imp⟩
  · rw [sentenceRe_of_not_breaks hbreaks] at h
    split_ifs at h with hend
    exact ⟨hend.1, [], s, rfl, Option.some.inj h, nofun⟩

theorem splitSentence_eq_none (h : splitSentence before s = none) :
    ∀ u v, s = u ++ v → sentenceRe (u.reverse ++ before) v = none := by
  induction s generalizing before with
  | nil =>
    rintro u v huv
    obtain ⟨rfl, rfl⟩ := List.append_eq_nil_iff.1 huv.symm
    exact Option.map_eq_none_iff.1 h
  | cons c s ih =>
    rw [splitSentence] at h
    split at h
    · cases h
    · rename_i hnone
      rintro u v huv
      obtain ⟨rfl, rfl⟩ | ⟨u, rfl, rfl⟩ := List.cons_eq_append_iff.1 huv
      · exact hnone
      · rw [List.reverse_cons, List.append_assoc]
        exact ih h u v rfl

/-- The match is the first one. -/
theorem splitSentence_eq_some (h : splitSentence before s = some (a, b)) :
    ∃ u w, a = before.reverse ++ u ∧ s = u ++ w ++ b ∧ (∀ c ∈ w, isspace c) ∧
      sentenceRe a.reverse (w ++ b) = some w.length ∧
      ∀ u₁ u₂, u = u₁ ++ u₂ → u₂ ≠ [] →
        sentenceRe (u₁.reverse ++ before) (u₂ ++ w ++ b) = none := by
  induction s generalizing before with
  | nil =>
    obtain ⟨n, hn, hab⟩ := Option.map_eq_some_iff.1 h
    obtain ⟨rfl, rfl⟩ := Prod.mk.inj hab
    obtain ⟨-, w, b, hw, rfl, -⟩ := sentenceRe_eq_some hn
    obtain ⟨rfl, rfl⟩ := List.append_eq_nil_iff.1 hw.symm
    refine ⟨[], [], by simp, rfl, nofun, by simpa using hn, fun u₁ u₂ hu hne => ?_⟩
    exact absurd (List.append_eq_nil_iff.1 hu.symm).2 hne
  | cons c s ih =>
    rw [splitSentence] at h
    split at h
    · rename_i n hn
      obtain ⟨rfl, rfl⟩ := Prod.mk.inj (Option.some.inj h)
      obtain ⟨-, w, b, hw, rfl, hspaces⟩ := sentenceRe_eq_some hn
      rw [hw, List.drop_left]
      refine ⟨[], w, by simp, rfl, hspaces, by simpa [hw] using hn, fun u₁ u₂ hu hne => ?_⟩
      exact absurd (List.append_eq_nil_iff.1 hu.symm).2 hne
    · rename_i hnone
      obtain ⟨u, w, ha, rfl, hspaces, hmatch, hfirst⟩ := ih h
      refine ⟨c :: u, w, by simpa using ha, rfl, hspaces, hmatch, fun u₁ u₂ hu hne => ?_⟩
      obtain ⟨rfl, rfl⟩ | ⟨u₁, rfl, rfl⟩ := List.cons_eq_append_iff.1 hu
      · exact hnone
      · rw [List.reverse_cons, List.append_assoc]
        exact hfirst u₁ u₂ rfl hne

theorem length_lt_of_splitSentence (h : splitSentence [] s = some (a, b)) :
    b.length < s.length := by
  obtain ⟨_, w, rfl, rfl, -, hmatch, -⟩ := splitSentence_eq_some h
  have ha : a ≠ [] := by
    rintro rfl
    simpa [Ends] using (sentenceRe_eq_some hmatch).1
  have hpos := List.length_pos_of_ne_nil ha
  simp only [List.length_append]
  omega

/-! ### The loop -/

/-- A piece of the buffer is spoken. -/
def synthesize (text : List Char) : List (List Char) :=
  if strip text = [] then [] else [strip text]

/-- The sentences that are split off a buffer, and what is left. -/
def splitLoop (buffer : List Char) : List (List Char) × List Char :=
  match _h : splitSentence [] buffer with
  | none => ([], buffer)
  | some (sentence, rest) =>
    let (sentences, left) := splitLoop rest
    (synthesize sentence ++ sentences, left)
termination_by buffer.length
decreasing_by exact length_lt_of_splitSentence _h

/-- `_llm_to_tts`: what is spoken of the tokens that are left. -/
def llmToTts (isWord : Char → Bool) : List Char → List Char → List (List Char) → List (List Char)
  | pending, textBuffer, [] => synthesize (textBuffer ++ pending)
  | pending, textBuffer, token :: tokens =>
    let (safe, pending) := feed pending token
    let (sentences, textBuffer) := splitLoop (textBuffer ++ (parse isWord safe).cleanText)
    sentences ++ llmToTts isWord pending textBuffer tokens

/-- What is spoken of a reply: the sentences that are handed to `_synthesize_sentence_stream`,
    which then strips the markdown of each. -/
def spoken (isWord : Char → Bool) (tokens : List (List Char)) : List (List Char) :=
  llmToTts isWord [] [] tokens

theorem splitLoop_of_none (h : splitSentence [] s = none) : splitLoop s = ([], s) := by
  rw [splitLoop]
  split
  · rfl
  · rename_i hsome
    rw [h] at hsome
    cases hsome

theorem splitLoop_of_some (h : splitSentence [] s = some (a, b)) :
    splitLoop s = (synthesize a ++ (splitLoop b).1, (splitLoop b).2) := by
  rw [splitLoop]
  split
  · rename_i hnone
    rw [h] at hnone
    cases hnone
  · rename_i hsome
    obtain ⟨rfl, rfl⟩ := Prod.mk.inj (Option.some.inj (h.symm.trans hsome))
    rfl

/-- A round of the loop leaves a shorter buffer. -/
def Splits (rest buffer : List Char) : Prop :=
  ∃ sentence, splitSentence [] buffer = some (sentence, rest)

/-- The loop ends, whatever is in the buffer. -/
theorem wellFounded_splits : WellFounded Splits :=
  Subrelation.wf (fun ⟨_, h⟩ => length_lt_of_splitSentence h) (measure List.length).wf

end Yuviz.Conversation.Sentences
