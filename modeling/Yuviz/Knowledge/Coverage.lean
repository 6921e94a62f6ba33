import Mathlib
import Yuviz.Knowledge.Chunking
import Yuviz.Overlap

/-!
# Every word is in a chunk

The chunks of a text are cut from its words (`cuts_packParagraph`), so that the
chunks one after another, without what each repeats of the one before, are the
text word for word (`chunkText_covers`).
-/

namespace Yuviz.Knowledge

open Python Overlap

variable {chunkSize chunkOverlap : ℕ} {hoverlap : chunkOverlap < chunkSize} {text : List Char}
  {cut : List (List (List Char))} {rest paraWords list a b : List (List Char)}

/-! ### The words of the paragraphs -/

theorem isspace_newline {c : Char} (h : decide (c = '\n') = true) : isspace c := by
  rw [of_decide_eq_true h]
  decide

/-- A blank line has no words. -/
theorem words_split (text : List Char) :
    (paragraphRe.split (fun _ => false) text).flatMap words = words text := by
  refine Regex.flatMap_split (fun x e he => ?_) text
  obtain ⟨before, _ | ⟨c, s⟩⟩ := x
  · cases he
  · obtain ⟨first, hfirst, he⟩ := List.mem_flatMap.1 he
    obtain ⟨⟨last, left⟩, hleft, he⟩ := List.mem_flatMap.1 he
    rw [Regex.run] at hfirst
    split_ifs at hfirst with hc
    · obtain rfl := List.mem_singleton.1 hfirst
      obtain ⟨w, hs, hw⟩ := Regex.mem_runMany hleft
      rcases left with _ | ⟨d, left⟩
      · cases he
      · have he : e ∈ (Regex.char (· = '\n')).run (fun _ => false) ⟨last, d :: left⟩ := he
        rw [Regex.run] at he
        split_ifs at he with hd
        · obtain rfl := List.mem_singleton.1 he
          have hspace : ∀ x ∈ c :: (w ++ [d]), isspace x := by
            simp only [List.forall_mem_cons, List.forall_mem_append]
            exact ⟨isspace_newline hc, hw, isspace_newline hd, (by simp)⟩
          refine ⟨c :: (w ++ [d]), ?_, List.cons_ne_nil _ _, fun s => ?_⟩
          · simpa using hs
          · exact words_append_append hspace (List.cons_ne_nil _ _)
        · cases he
    · cases hfirst

theorem flatMap_words_filter (l : List (List Char)) :
    (l.filter (· ≠ [])).flatMap words = l.flatMap words := by
  induction l with
  | nil => rfl
  | cons s l ih =>
    rw [List.filter_cons, List.flatMap_cons, ← ih]
    split_ifs with hne
    · rfl
    · obtain rfl : s = [] := by simpa using hne
      rfl

theorem flatMap_words_paragraphs (text : List Char) :
    (paragraphs text).flatMap words = words text := by
  rw [paragraphs, flatMap_words_filter, List.flatMap_map]
  simp only [words_strip]
  exact words_split text

/-! ### Packing -/

/-- The chunks so far, and the words in none yet: cut from the words of the text so far. -/
def Packs (chunkSize chunkOverlap : ℕ) (list : List (List Char))
    (packed : List Chunk × List (List Char)) : Prop :=
  ∃ cut, packed.1 = cut.map Chunk.ofWords ∧ Cuts chunkOverlap list cut packed.2 ∧
    ∀ words ∈ cut, words ≠ [] ∧ words.length ≤ chunkSize

variable {packed : List Chunk × List (List Char)} {chunks : List Chunk}

theorem Packs.extend (h : Packs chunkSize chunkOverlap list (chunks, rest))
    (more : List (List Char)) :
    Packs chunkSize chunkOverlap (list ++ more) (chunks, rest ++ more) := by
  obtain ⟨cut, hchunks, hcuts, hwords⟩ := h
  exact ⟨cut, hchunks, hcuts.extend more, hwords⟩

/-- A chunk is made of the first words that are left. -/
theorem Packs.take (h : Packs chunkSize chunkOverlap list (chunks, a ++ b)) (hne : a ≠ [])
    (hsize : a.length ≤ chunkSize) (hlength : b ≠ [] → chunkOverlap ≤ a.length) :
    Packs chunkSize chunkOverlap list
      (chunks ++ [Chunk.ofWords a], lastWords chunkOverlap a ++ b) := by
  obtain ⟨cut, hchunks, hcuts, hwords⟩ := h
  have hcarry : (carry chunkOverlap cut).length ≤ a.length := by
    by_cases hb : b = []
    · -- What is repeated is part of what is left.
      subst hb
      exact hcuts.length_carry_le.trans (by rw [List.append_nil])
    · exact length_carry_le.trans (hlength hb)
  refine ⟨cut ++ [a], ?_, hcuts.take hcarry, fun words hmem => ?_⟩
  · rw [List.map_append, ← hchunks]
    rfl
  · rcases List.mem_append.1 hmem with hmem | hmem
    · exact hwords words hmem
    · exact List.mem_singleton.1 hmem ▸ ⟨hne, hsize⟩

/-- The loop makes chunks until the rest is short enough for one. -/
theorem Packs.splitLong (h : Packs chunkSize chunkOverlap list (chunks, rest)) :
    Packs chunkSize chunkOverlap list
      (chunks ++ (splitLong hoverlap rest).1, (splitLong hoverlap rest).2) := by
  revert chunks
  induction rest using splitLong.induct hoverlap with
  | case1 rest hlong head =>
    rename_i ih
    intro chunks h
    rw [Knowledge.splitLong, dif_pos hlong]
    have htake : (rest.take chunkSize).length = chunkSize :=
      List.length_take_of_le (Nat.le_of_lt hlong)
    have hne : rest.take chunkSize ≠ [] := by
      rw [← List.length_pos_iff, htake]
      exact Nat.zero_lt_of_lt hoverlap
    rw [← List.take_append_drop chunkSize rest] at h
    have hnext := h.take hne htake.le fun _ => htake.symm ▸ Nat.le_of_lt hoverlap
    have := ih hnext
    rwa [List.append_assoc] at this
  | case2 rest hshort =>
    intro chunks h
    rw [Knowledge.splitLong, dif_neg hshort, List.append_nil]
    exact h

theorem Packs.packParagraph (h : Packs chunkSize chunkOverlap list packed)
    (hrest : packed.2.length ≤ chunkSize) (paragraph : List Char) :
    Packs chunkSize chunkOverlap (list ++ words paragraph)
      (packParagraph hoverlap packed paragraph) := by
  rw [Knowledge.packParagraph]
  refine Packs.splitLong ?_
  split_ifs with hfull
  · refine Packs.extend ?_ _
    have h' : Packs chunkSize chunkOverlap list (packed.1, packed.2 ++ []) := by
      rwa [List.append_nil]
    have := h'.take hfull.1 hrest fun hne => absurd rfl hne
    rwa [List.append_nil] at this
  · exact h.extend _

/-- Paragraph after paragraph, the chunks are cut from the words, and the rest fits into one. -/
theorem packs_foldl (hoverlap : chunkOverlap < chunkSize) (paragraphs : List (List Char)) :
    Packs chunkSize chunkOverlap (paragraphs.flatMap words)
      (paragraphs.foldl (packParagraph hoverlap) ([], [])) ∧
    Fits chunkSize (paragraphs.foldl (packParagraph hoverlap) ([], [])) := by
  induction paragraphs using List.reverseRecOn with
  | nil => exact ⟨⟨[], rfl, .nil, nofun⟩, nofun, Nat.zero_le _⟩
  | append_singleton paragraphs paragraph ih =>
    rw [List.foldl_concat, List.flatMap_append, List.flatMap_singleton]
    exact ⟨ih.1.packParagraph ih.2.2 paragraph, ih.2.packParagraph paragraph⟩

/-- The chunks of a text are cut from its words, and nothing is left that is in none. -/
theorem exists_cut_chunkText (text : List Char) (hoverlap : chunkOverlap < chunkSize) :
    ∃ cut rest, chunkText text chunkSize chunkOverlap hoverlap = cut.map Chunk.ofWords ∧
      Cuts chunkOverlap (words text) cut rest ∧ rest.length ≤ (carry chunkOverlap cut).length ∧
      ∀ words ∈ cut, words ≠ [] ∧ words.length ≤ chunkSize := by
  rw [← flatMap_words_paragraphs, chunkText]
  split_ifs with hblank
  · exact ⟨[], [], rfl, by rw [hblank]; exact .nil, Nat.zero_le _, (by simp)⟩
  · obtain ⟨hpacks, hfits⟩ := packs_foldl hoverlap (paragraphs text)
    dsimp only
    rcases hpacked : (paragraphs text).foldl (packParagraph hoverlap) ([], []) with ⟨chunks, rest⟩
    rw [hpacked] at hpacks hfits
    obtain ⟨cut, hchunks, hcuts, hwords⟩ := hpacks
    dsimp only at hchunks hcuts
    split_ifs with hne
    · have hlast : Cuts chunkOverlap ((paragraphs text).flatMap words) cut (rest ++ []) := by
        rwa [List.append_nil]
      refine ⟨cut ++ [rest], rest.rtake chunkOverlap ++ [], ?_,
        hlast.take hcuts.length_carry_le, ?_, fun words hmem => ?_⟩
      · rw [hchunks, List.map_append]
        rfl
      · rw [List.append_nil, carry_concat]
      · rcases List.mem_append.1 hmem with hmem | hmem
        · exact hwords words hmem
        · exact List.mem_singleton.1 hmem ▸ ⟨hne, hfits.2⟩
    · refine ⟨cut, rest, hchunks, hcuts, ?_, hwords⟩
      rw [show rest = [] from not_not.1 hne]
      exact Nat.zero_le _

/-- No chunk is empty or too long, and the chunks are the words of the text in order, where
    each may begin with the last words of the one before. -/
theorem chunkText_covers (text : List Char) (hoverlap : chunkOverlap < chunkSize) :
    let chunks := chunkText text chunkSize chunkOverlap hoverlap
    (∀ c ∈ chunks, c.tokenCount = (words c.content).length ∧ 1 ≤ c.tokenCount ∧
      c.tokenCount ≤ chunkSize) ∧
    (chunks.map fun c => words c.content).IsChain
      (fun before next => lastWords chunkOverlap before <+: next) ∧
    unrepeated chunkOverlap [] (chunks.map fun c => words c.content) = words text := by
  obtain ⟨cut, rest, hchunks, hcuts, hlength, hwords⟩ := exists_cut_chunkText text hoverlap
  have hcontent : ∀ words' ∈ cut, words (Chunk.ofWords words').content = words' :=
    fun words' hmem => words_intercalate fun word hword =>
      words_of_mem (hcuts.piece_subset words' hmem hword)
  have hmap : (cut.map Chunk.ofWords).map (fun c => words c.content) = cut := by
    rw [List.map_map]
    exact List.map_congr_left hcontent |>.trans (List.map_id cut)
  dsimp only
  rw [hchunks, hmap]
  refine ⟨fun c hc => ?_, hcuts.chain, hcuts.unrepeated_eq hlength⟩
  obtain ⟨words', hmem, rfl⟩ := List.mem_map.1 hc
  rw [hcontent words' hmem]
  exact ⟨rfl, List.length_pos_of_ne_nil (hwords words' hmem).1, (hwords words' hmem).2⟩

/-- The first two paragraphs make one chunk, and the third is cut in two. -/
theorem chunkText_covers_letters :
    let chunks := chunkText "a b\n\nc\n\nd e f g".toList 3 1 (by decide)
    (∀ c ∈ chunks, c.tokenCount = (words c.content).length ∧ 1 ≤ c.tokenCount ∧ c.tokenCount ≤ 3) ∧
    (chunks.map fun c => words c.content).IsChain
      (fun before next => lastWords 1 before <+: next) ∧
    unrepeated 1 [] (chunks.map fun c => words c.content) =
      words "a b\n\nc\n\nd e f g".toList :=
  chunkText_covers _ (by decide)

end Yuviz.Knowledge
