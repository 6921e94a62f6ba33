import Yuviz.Conversation.Directives.Streaming
import Yuviz.Conversation.Sentences
import Yuviz.Python.Words

/-!
# Everything is spoken, once

The loop drops nothing of the buffer but whitespace (`ink_splitLoop`), so that what
is spoken is what the tokens release, in order. That is the reply without its
directives if and only if every token keeps the tags that it ends within
(`spokenOnce_iff`): a directive that is cut in two is spoken.
-/

namespace Yuviz.Conversation.Sentences

open Python Directives

/-- A text without its whitespace. -/
def black (text : List Char) : List Char := text.filter (!isspace ·)

/-- A text without its whitespace and its markdown characters. -/
def ink (text : List Char) : List Char := black (stripMarkdownChars text)

/-- The loop ends, and what is spoken is the text of the reply without its directives. -/
def SpokenOnce (isWord : Char → Bool) (tokens : List (List Char)) : Prop :=
  WellFounded Splits ∧
    ink (spoken isWord tokens).flatten = ink (parse isWord tokens.flatten).cleanText

variable {s t w : List Char} {isWord : Char → Bool} {tokens : List (List Char)}

theorem black_append (s t : List Char) : black (s ++ t) = black s ++ black t :=
  List.filter_append s t

theorem black_eq_nil_iff : black w = [] ↔ ∀ c ∈ w, isspace c := by
  simp [black]

theorem ink_eq (s : List Char) : ink s = stripMarkdownChars (black s) := List.filter_comm _ _ s

/-- The characters of two texts are those of one and then of the other. -/
theorem ink_append (s t : List Char) : ink (s ++ t) = ink s ++ ink t := by
  rw [ink, stripMarkdownChars_append, black_append]
  rfl

theorem ink_stripMarkdownChars (s : List Char) : ink (stripMarkdownChars s) = ink s := by
  rw [ink, stripMarkdownChars_idem]
  rfl

theorem count_ink (s : List Char) : (ink s).count '[' = s.count '[' := by
  rw [ink, black, List.count_filter (by decide), count_stripMarkdownChars]

theorem black_strip (s : List Char) : black (strip s) = black s := by
  obtain ⟨v, w, hs, hv, hw⟩ := exists_strip s
  conv_rhs => rw [hs]
  rw [black_append, black_append, black_eq_nil_iff.2 hv, black_eq_nil_iff.2 hw, List.append_nil,
    List.nil_append]

/-- What is spoken of a piece has all of it but blanks. -/
theorem black_synthesize (s : List Char) : black (synthesize s).flatten = black s := by
  rw [synthesize, ← black_strip s]
  split_ifs with hnil
  · rw [hnil]
    rfl
  · rw [List.flatten_singleton]

/-- The loop drops nothing but whitespace, and keeps the order. -/
theorem black_splitLoop (s : List Char) :
    black (splitLoop s).1.flatten ++ black (splitLoop s).2 = black s := by
  induction s using wellFounded_splits.induction with
  | _ s ih =>
    rcases hsplit : splitSentence [] s with _ | ⟨a, b⟩
    · rw [splitLoop_of_none hsplit]
      rfl
    · have hrest := ih b ⟨a, hsplit⟩
      obtain ⟨u, w, rfl, rfl, hw, -⟩ := splitSentence_eq_some hsplit
      rw [splitLoop_of_some hsplit, List.flatten_append, black_append, List.append_assoc, hrest,
        black_synthesize, black_append, black_append, black_eq_nil_iff.2 hw, List.append_nil]

/-- No character is lost where a buffer is split, -/
theorem ink_splitLoop (s : List Char) :
    ink (splitLoop s).1.flatten ++ ink (splitLoop s).2 = ink s := by
  rw [ink_eq, ink_eq, ink_eq, ← stripMarkdownChars_append, black_splitLoop]

/-- and so none is lost of a reply. -/
theorem ink_llmToTts (pending textBuffer : List Char) (tokens : List (List Char)) :
    ink (llmToTts isWord pending textBuffer tokens).flatten =
      ink (textBuffer ++ (stream isWord pending tokens).cleanText) := by
  induction tokens generalizing pending textBuffer with
  | nil => rw [ink_eq, ink_eq, llmToTts, black_synthesize, stream]
  | cons token tokens ih =>
    rw [llmToTts, stream]
    dsimp only
    rw [List.flatten_append, ink_append, ih, ink_append, ← List.append_assoc, ink_splitLoop,
      ← ink_append, List.append_assoc]

theorem allKeepTags_of_spokenOnce (h : SpokenOnce isWord tokens) : AllKeepTags [] tokens := by
  by_contra hkeeps
  have hlt := openings_lt_count_stream isWord hkeeps
  have hink := h.2
  rw [spoken, ink_llmToTts] at hink
  have hcount := congrArg (List.count '[') hink
  rw [count_ink, count_ink, count_cleanText_parse, List.nil_append] at hcount
  rw [List.nil_append] at hlt
  omega

/-- Everything that the model says is spoken, once and in order, if and only if every token
    keeps the tags that it ends within. -/
theorem spokenOnce_iff (isWord : Char → Bool) (tokens : List (List Char)) :
    SpokenOnce isWord tokens ↔ AllKeepTags [] tokens := by
  refine ⟨allKeepTags_of_spokenOnce, fun h => ⟨wellFounded_splits, ?_⟩⟩
  have hstream := ((stream_eq_parse_iff_of_pending isWord (by decide) tokens).2 h).1
  rw [spoken, ink_llmToTts, List.nil_append, ← ink_stripMarkdownChars, hstream, List.nil_append]

/-- The token ends between the brackets, and the directive is spoken. -/
theorem not_spokenOnce : ¬ ∀ (isWord : Char → Bool) (tokens : List (List Char)),
    SpokenOnce isWord tokens := by
  intro h
  obtain ⟨hkeeps, -⟩ := allKeepTags_of_spokenOnce
    (h Char.isAlphanum ["Bye [".toList, "[END_CALL]]".toList])
  have hkept := hkeeps "Bye ".toList ['['] "[END_CALL]]".toList [] (by decide)
    (by decide) ⟨"[[END_CALL".toList, by decide, by decide⟩ nofun
    (by decide)
  rw [Keeps, if_pos rfl] at hkept
  exact absurd hkept (by decide)

end Yuviz.Conversation.Sentences
