import Yuviz.Python.Regex
import Yuviz.Python.Words

/-!
# Chunking

A text is taken apart at its blank lines, and the words of the paragraphs are
packed into chunks of at most `chunkSize`. Every chunk but the first begins with
the last words of the one before.
-/

namespace Yuviz.Knowledge

open Python

structure Chunk where
  content : List Char
  tokenCount : ℕ
  deriving DecidableEq

def Chunk.ofWords (words : List (List Char)) : Chunk where
  content := [' '].intercalate words
  tokenCount := words.length

/-- `\n\s*\n`. There is no `\b` in it, and so no matter what a word is. -/
def paragraphRe : Regex := .all [.char (· = '\n'), .spaces, .char (· = '\n')]

/-- `words[-n:] if n else []`. -/
def lastWords (n : ℕ) (words : List (List Char)) : List (List Char) :=
  words.drop (words.length - n)

section

variable {chunkSize chunkOverlap : ℕ}

theorem length_lastWords_append_drop_lt (hoverlap : chunkOverlap < chunkSize)
    {words : List (List Char)} (h : chunkSize < words.length) :
    (lastWords chunkOverlap (words.take chunkSize) ++ words.drop chunkSize).length <
      words.length := by
  rw [lastWords, List.length_append, List.length_drop, List.length_drop, List.length_take]
  omega

/-- The loop that takes full chunks from the words, and what is left of them. -/
def splitLong (hoverlap : chunkOverlap < chunkSize) (currentWords : List (List Char)) :
    List Chunk × List (List Char) :=
  if _h : chunkSize < currentWords.length then
    let head := currentWords.take chunkSize
    let next := splitLong hoverlap (lastWords chunkOverlap head ++ currentWords.drop chunkSize)
    (Chunk.ofWords head :: next.1, next.2)
  else ([], currentWords)
termination_by currentWords.length
decreasing_by exact length_lastWords_append_drop_lt hoverlap _h

/-- The chunks, and the words that are in none yet, after another paragraph. -/
def packParagraph (hoverlap : chunkOverlap < chunkSize) (packed : List Chunk × List (List Char))
    (paragraph : List Char) : List Chunk × List (List Char) :=
  let paraWords := words paragraph
  let packed :=
    if packed.2 ≠ [] ∧ chunkSize < packed.2.length + paraWords.length then
      (packed.1 ++ [Chunk.ofWords packed.2], lastWords chunkOverlap packed.2 ++ paraWords)
    else (packed.1, packed.2 ++ paraWords)
  let next := splitLong hoverlap packed.2
  (packed.1 ++ next.1, next.2)

/-- The paragraphs that are not blank. -/
def paragraphs (text : List Char) : List (List Char) :=
  ((paragraphRe.split (fun _ => false) text).map strip).filter (· ≠ [])

end

def chunkText (text : List Char) (chunkSize : ℕ := 200) (chunkOverlap : ℕ := 40)
    (hoverlap : chunkOverlap < chunkSize := by decide) : List Chunk :=
  if paragraphs text = [] then []
  else
    let packed := (paragraphs text).foldl (packParagraph hoverlap) ([], [])
    if packed.2 ≠ [] then packed.1 ++ [Chunk.ofWords packed.2] else packed.1

/-! ### A single word -/

section

variable {word : List Char} (hne : word ≠ []) (hspace : ∀ c ∈ word, isspace c = false)

include hne hspace in
theorem paragraphs_of_word : paragraphs word = [word] := by
  have hsplit : paragraphRe.split (fun _ => false) word = [word] := by
    refine Regex.split_eq_singleton fun x hx => ?_
    obtain ⟨before, rest⟩ := x
    cases rest with
    | nil => rfl
    | cons c rest =>
      have hc : c ≠ '\n' := by
        rintro rfl
        exact absurd (hspace _ (hx.subset List.mem_cons_self)) (by decide)
      simp [paragraphRe, Regex.all, Regex.run, hc]
  have hstrip : strip word = word := by
    rw [strip, List.dropWhile_eq_self_iff.2, List.rdropWhile_eq_self_iff.2]
    · intro _
      simpa using hspace _ (List.getLast_mem _)
    · intro hlength
      simpa using hspace _ (List.getElem_mem _)
  rw [paragraphs, hsplit, List.map_singleton, hstrip]
  exact List.filter_cons_of_pos (by simpa using hne)

include hne hspace in
/-- A text without spaces is one chunk, however long it is. -/
theorem chunkText_of_word : chunkText word = [⟨word, 1⟩] := by
  have hpack : packParagraph (by decide : 40 < 200) ([], []) word = ([], [word]) := by
    simp [packParagraph, words_of_word hne hspace, splitLong]
  simp [chunkText, paragraphs_of_word hne hspace, hpack, Chunk.ofWords]

end

/-! ### The size of the chunks -/

section

variable {chunkSize chunkOverlap : ℕ} {hoverlap : chunkOverlap < chunkSize}
  {packed : List Chunk × List (List Char)}

/-- No chunk so far is too long, nor are the words that are left. -/
def Fits (chunkSize : ℕ) (packed : List Chunk × List (List Char)) : Prop :=
  (∀ c ∈ packed.1, c.tokenCount ≤ chunkSize) ∧ packed.2.length ≤ chunkSize

theorem fits_splitLong (currentWords : List (List Char)) :
    Fits chunkSize (splitLong hoverlap currentWords) := by
  induction currentWords using splitLong.induct hoverlap with
  | case1 currentWords h head ih =>
    rw [splitLong, dif_pos h]
    refine ⟨fun c hc => ?_, ih.2⟩
    rcases List.mem_cons.1 hc with rfl | hc
    · exact List.length_take_le _ _
    · exact ih.1 c hc
  | case2 currentWords h =>
    rw [splitLong, dif_neg h]
    exact ⟨fun c hc => absurd hc List.not_mem_nil, Nat.le_of_not_lt h⟩

theorem Fits.packParagraph (h : Fits chunkSize packed) (paragraph : List Char) :
    Fits chunkSize (packParagraph hoverlap packed paragraph) := by
  obtain ⟨hchunks, hrest⟩ := h
  have hlong := @fits_splitLong _ _ hoverlap
  rw [Knowledge.packParagraph]
  split
  · refine ⟨fun c hc => ?_, (hlong _).2⟩
    rcases List.mem_append.1 hc with hc | hc
    · rcases List.mem_append.1 hc with hc | hc
      · exact hchunks c hc
      · rw [List.mem_singleton.1 hc]
        exact hrest
    · exact (hlong _).1 c hc
  · refine ⟨fun c hc => ?_, (hlong _).2⟩
    rcases List.mem_append.1 hc with hc | hc
    · exact hchunks c hc
    · exact (hlong _).1 c hc

/-- No chunk has more words than asked for. -/
theorem tokenCount_le {text : List Char} {c : Chunk}
    (hc : c ∈ chunkText text chunkSize chunkOverlap hoverlap) : c.tokenCount ≤ chunkSize := by
  rw [chunkText] at hc
  split at hc
  · cases hc
  · have hfits : Fits chunkSize ((paragraphs text).foldl (packParagraph hoverlap) ([], [])) :=
      List.foldlRecOn _ _ ⟨nofun, Nat.zero_le _⟩ fun _ h paragraph _ => h.packParagraph paragraph
    dsimp only at hc
    split at hc
    · rcases List.mem_append.1 hc with hc | hc
      · exact hfits.1 c hc
      · rw [List.mem_singleton.1 hc]
        exact hfits.2
    · exact hfits.1 c hc

end

end Yuviz.Knowledge
