import Yuviz.Python.Str

/-!
# Whitespace and words

What `strip` takes away is whitespace, and whitespace only parts the words of a
text: more of it, or less, leaves the words as they are. Words put together with
blanks are split into the same words.
-/

namespace Yuviz.Python

variable {v w s t word : List Char} {c : Char} {ws : List (List Char)}

/-! ### Stripping -/

/-- What is stripped is whitespace. -/
theorem exists_strip (s : List Char) : ∃ v w, s = v ++ strip s ++ w ∧ (∀ c ∈ v, isspace c) ∧
    ∀ c ∈ w, isspace c := by
  refine ⟨s.takeWhile isspace, (s.dropWhile isspace).rtakeWhile isspace, ?_,
    fun c => List.mem_takeWhile_imp, fun c => List.mem_rtakeWhile_imp⟩
  rw [strip, List.append_assoc, List.rdropWhile_append_rtakeWhile, List.takeWhile_append_dropWhile]

theorem strip_append_left (h : ∀ c ∈ w, isspace c) : strip (w ++ s) = strip s := by
  rw [strip, List.dropWhile_append_of_pos h]
  rfl

theorem strip_concat (h : isspace c) : strip (s ++ [c]) = strip s := by
  rw [strip, strip, List.dropWhile_append, List.dropWhile_cons_of_pos h, List.dropWhile_nil]
  split_ifs with hnil
  · rw [List.isEmpty_iff.1 hnil]
  · exact List.rdropWhile_concat_pos _ _ _ h

theorem strip_append_right (h : ∀ c ∈ w, isspace c) : strip (s ++ w) = strip s := by
  induction w using List.reverseRecOn with
  | nil => rw [List.append_nil]
  | append_singleton w c ih =>
    rw [← List.append_assoc, strip_concat (h c (by simp)),
      ih fun c hc => h c (List.mem_append_left _ hc)]

theorem strip_of_forall_not (h : ∀ c ∈ s, isspace c = false) : strip s = s := by
  rcases s with _ | ⟨c, s⟩
  · rfl
  · rw [strip, List.dropWhile_cons_of_neg (by simp [h c List.mem_cons_self]),
      List.rdropWhile_eq_self_iff]
    intro hne
    simp [h _ (List.getLast_mem hne)]

/-! ### Words -/

theorem words_append_cons (h : isspace c) : words (s ++ c :: t) = words s ++ words t := by
  rw [words, List.splitOnP_append_cons _ _ h, List.filter_append]
  rfl

theorem words_append_left (h : ∀ c ∈ w, isspace c) : words (w ++ s) = words s := by
  induction w with
  | nil => rfl
  | cons c w ih =>
    have hcons := words_append_cons (s := []) (t := w ++ s) (h c List.mem_cons_self)
    rw [List.cons_append, ← List.nil_append (c :: _), hcons,
      ih fun c hc => h c (List.mem_cons_of_mem _ hc)]
    rfl

theorem words_append_right (h : ∀ c ∈ w, isspace c) : words (s ++ w) = words s := by
  cases w with
  | nil => rw [List.append_nil]
  | cons c w =>
    have hnil := words_append_left (s := []) fun c hc => h c (List.mem_cons_of_mem _ hc)
    rw [List.append_nil] at hnil
    rw [words_append_cons (h c List.mem_cons_self), hnil]
    exact List.append_nil _

/-- Whitespace between two texts parts their words. -/
theorem words_append_append (h : ∀ c ∈ w, isspace c) (hne : w ≠ []) :
    words (s ++ (w ++ t)) = words s ++ words t := by
  obtain ⟨c, w, rfl⟩ := List.exists_cons_of_ne_nil hne
  rw [List.cons_append, words_append_cons (h c List.mem_cons_self),
    words_append_left fun c hc => h c (List.mem_cons_of_mem _ hc)]

@[simp] theorem words_strip (s : List Char) : words (strip s) = words s := by
  obtain ⟨v, w, hs, hv, hw⟩ := exists_strip s
  conv_rhs => rw [hs]
  rw [words_append_right hw, words_append_left hv]

theorem words_of_word (hne : word ≠ []) (hspace : ∀ c ∈ word, isspace c = false) :
    words word = [word] := by
  rw [words, List.splitOnP_eq_singleton hspace]
  exact List.filter_cons_of_pos (by simpa using hne)

/-- What a text is split into has no separator in it. -/
theorem mem_and_of_mem_splitOnP {p : Char → Bool} {piece : List Char}
    (h : piece ∈ s.splitOnP p) : ∀ c ∈ piece, c ∈ s ∧ p c = false := by
  induction s generalizing piece with
  | nil =>
    rw [List.splitOnP_nil, List.mem_singleton] at h
    simp [h]
  | cons c s ih =>
    have hs {piece} (h : piece ∈ s.splitOnP p) : ∀ x ∈ piece, x ∈ c :: s ∧ p x = false :=
      fun x hx => (ih h x hx).imp_left (List.mem_cons_of_mem c)
    rw [List.splitOnP_cons_eq_if_modifyHead] at h
    split_ifs at h with hc
    · rcases List.mem_cons.1 h with rfl | h
      · simp
      · exact hs h
    · obtain ⟨first, pieces, hsplit⟩ := List.exists_cons_of_ne_nil (List.splitOnP_ne_nil p s)
      rw [hsplit, List.modifyHead_cons, List.mem_cons] at h
      rcases h with rfl | h
      · rw [List.forall_mem_cons]
        exact ⟨⟨List.mem_cons_self, by simpa using hc⟩,
          hs (by rw [hsplit]; exact List.mem_cons_self)⟩
      · exact hs (by rw [hsplit]; exact List.mem_cons_of_mem _ h)

theorem words_of_mem (h : word ∈ words s) : words word = [word] := by
  rw [words, List.mem_filter] at h
  exact words_of_word (by simpa using h.2) fun c hc => (mem_and_of_mem_splitOnP h.1 c hc).2

/-- `" ".join` puts words together that `split` takes apart again. -/
theorem words_intercalate (h : ∀ word ∈ ws, words word = [word]) :
    words ([' '].intercalate ws) = ws := by
  induction ws with
  | nil => rfl
  | cons word ws ih =>
    have hword := h word List.mem_cons_self
    rcases ws with _ | ⟨next, ws⟩
    · simpa using hword
    · rw [List.intercalate_cons_cons, List.append_assoc, List.singleton_append,
        words_append_cons (by decide), hword, ih fun w hw => h w (List.mem_cons_of_mem _ hw)]
      rfl

end Yuviz.Python
