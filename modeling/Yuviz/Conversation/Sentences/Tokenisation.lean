import Mathlib
import Yuviz.Conversation.Sentences.Spoken

/-!
# Sentences, and where the tokens end

The buffer ends where a token does, and a terminator at its end is taken for the
end of the reply. So a reply is split at some terminators only if a token ends
there: within a number, after an abbreviation or an initial. And what is still
held back at the end, behind a `[[`, is spoken as it is, in one piece.

The sentences of a reply without directives do not depend on its tokens if and
only if none of this is in it (`spoken_eq_iff`): where a terminator is followed by
more text, a sentence ends in any case (`Spaced`), and behind a `[[` that nothing
closes there is no terminator that is, and no markdown (`Flushed`).
-/

namespace Yuviz.Conversation.Sentences

open Python Directives

/-- There is more than whitespace. -/
def Followed (s : List Char) : Prop := ∃ c ∈ s, ¬ isspace c

instance (s : List Char) : Decidable (Followed s) :=
  decidable_of_iff (s.any fun c => !isspace c) (by simp [Followed])

/-- Where a terminator is followed by more text, a sentence ends in any case. -/
def Spaced (s : List Char) : Prop :=
  ∀ x m y, s = x ++ m :: y → isTerminator m → Followed y → Breaks (m :: x.reverse) y

/-- What is held back at the end of the text can be spoken as it is. -/
def Flushed (text : List Char) : Prop :=
  ∀ safe rest, unterminated text = some (safe, rest) → stripMarkdownChars rest = rest ∧
    ∀ x m y, rest = x ++ m :: y → isTerminator m → ¬ Followed y

/-- Each element of a list, with what is before it and what is after it. -/
def cuts {α : Type*} : List α → List (List α × α × List α)
  | [] => []
  | m :: s => ([], m, s) :: (cuts s).map fun cut => (m :: cut.1, cut.2)

theorem forall_mem_cuts_iff {α : Type*} {s : List α} {p : List α → α → List α → Prop} :
    (∀ cut ∈ cuts s, p cut.1 cut.2.1 cut.2.2) ↔ ∀ x m y, s = x ++ m :: y → p x m y := by
  induction s generalizing p with
  | nil => simp [cuts]
  | cons c s ih =>
    rw [cuts, List.forall_mem_cons, List.forall_mem_map, ih (p := fun x m y => p (c :: x) m y)]
    constructor
    · rintro ⟨hhead, htail⟩ x m y hs
      rcases x with _ | ⟨d, x⟩
      · obtain ⟨rfl, rfl⟩ := List.cons.inj hs
        exact hhead
      · obtain ⟨rfl, rfl⟩ := List.cons.inj hs
        exact htail x m y rfl
    · intro h
      exact ⟨h [] c s rfl, fun x m y hs => h (c :: x) m y (by rw [hs, List.cons_append])⟩

instance (s : List Char) : Decidable (Spaced s) :=
  decidable_of_iff ((cuts s).all fun cut => decide
    (isTerminator cut.2.1 → Followed cut.2.2 → Breaks (cut.2.1 :: cut.1.reverse) cut.2.2)) <| by
  rw [List.all_eq_true, Spaced, ← forall_mem_cuts_iff]
  simp only [decide_eq_true_eq]

instance (text : List Char) : Decidable (Flushed text) :=
  decidable_of_iff ((unterminated text).all fun held => decide
    (stripMarkdownChars held.2 = held.2) && (cuts held.2).all fun cut => decide
      (isTerminator cut.2.1 → ¬ Followed cut.2.2)) <| by
  rcases hun : unterminated text with _ | ⟨safe, rest⟩
  · simp [Flushed, hun]
  · simp only [Flushed, hun, Option.all_some, Bool.and_eq_true, decide_eq_true_eq,
      List.all_eq_true, Option.some.injEq, Prod.mk.injEq]
    rw [forall_mem_cuts_iff (p := fun _ m y => isTerminator m → ¬ Followed y)]
    constructor
    · rintro h _ _ ⟨rfl, rfl⟩
      exact h
    · intro h
      exact h safe rest ⟨rfl, rfl⟩

/-- The sentences of a text that is split at all terminators that are followed by more text. -/
def sentences : List Char → List Char → List (List Char)
  | sentence, [] => synthesize sentence
  | sentence, c :: s =>
    if isTerminator c ∧ Followed s then synthesize (sentence ++ [c]) ++ sentences [] s
    else sentences (sentence ++ [c]) s

variable {s t u v w x y a b before sentence text : List Char} {c d m : Char} {n : ℕ}
  {isWord : Char → Bool}

/-! ### Whitespace -/

theorem not_isspace_of_isTerminator (h : isTerminator c) : ¬ isspace c := by
  simp only [isTerminator, Bool.or_eq_true, decide_eq_true_eq] at h
  obtain (rfl | rfl) | rfl := h <;> decide

theorem not_followed_iff : ¬ Followed s ↔ ∀ c ∈ s, isspace c := by
  simp [Followed]

theorem followed_iff : Followed s ↔ black s ≠ [] := by
  rw [← not_iff_not, not_followed_iff, not_not, black_eq_nil_iff]

theorem synthesize_append_left (h : ∀ c ∈ w, isspace c) : synthesize (w ++ s) = synthesize s := by
  rw [synthesize, strip_append_left h]
  rfl

theorem synthesize_append_right (h : ∀ c ∈ w, isspace c) :
    synthesize (s ++ w) = synthesize s := by
  rw [synthesize, strip_append_right h]
  rfl

theorem synthesize_of_followed (h : Followed s) : synthesize s = [strip s] := by
  rw [synthesize, if_neg]
  intro hnil
  rw [followed_iff, ← black_strip, hnil] at h
  exact h rfl

theorem synthesize_of_spaces (h : ∀ c ∈ w, isspace c) : synthesize w = [] := by
  rw [← List.append_nil w, synthesize_append_left h]
  rfl

/-! ### Splitting at all terminators -/

/-- A text is not split where no terminator is followed by more. -/
theorem sentences_append (h : ∀ x m y, s = x ++ m :: y → isTerminator m → ¬ Followed (y ++ t)) :
    sentences sentence (s ++ t) = sentences (sentence ++ s) t := by
  induction s generalizing sentence with
  | nil => simp
  | cons c s ih =>
    rw [List.cons_append, sentences, if_neg fun hc => h [] c s rfl hc.1 hc.2,
      ih fun x m y heq => h (c :: x) m y (by rw [heq, List.cons_append]), List.append_assoc]
    rfl

theorem sentences_eq_synthesize (h : ∀ x m y, s = x ++ m :: y → isTerminator m → ¬ Followed y) :
    sentences sentence s = synthesize (sentence ++ s) := by
  have hnil : sentences sentence (s ++ []) = sentences (sentence ++ s) [] :=
    sentences_append (by simpa using h)
  rwa [List.append_nil] at hnil

theorem sentences_spaces (h : ∀ c ∈ w, isspace c) :
    sentences sentence (w ++ s) = sentences (sentence ++ w) s := by
  refine sentences_append fun x m y hw hm => absurd (h m (by simp [hw])) ?_
  exact not_isspace_of_isTerminator hm

/-- Whitespace at the beginning of a sentence makes no difference. -/
theorem sentences_append_left (h : ∀ c ∈ w, isspace c) :
    sentences (w ++ sentence) s = sentences sentence s := by
  induction s generalizing sentence with
  | nil => exact synthesize_append_left h
  | cons c s ih =>
    rw [sentences, sentences, List.append_assoc, synthesize_append_left h, ih]

/-! ### Terminators that are followed by whitespace -/

/-- An abbreviation is not seen in less of the text. -/
theorem isAbbreviation_append (h : isAbbreviation (c :: u)) : isAbbreviation (c :: (u ++ v)) := by
  by_cases hc : c = '.'
  · subst hc
    simp only [isAbbreviation, Bool.or_eq_true, List.any_eq_true, List.isPrefixOf_iff_prefix] at h ⊢
    obtain ⟨a, ha, hprefix⟩ | hinitial := h
    · exact .inl ⟨a, ha, hprefix.trans (List.prefix_append u v)⟩
    · rcases u with _ | ⟨d, u⟩
      · simp at hinitial
      · exact .inr hinitial
  · rw [isAbbreviation_cons hc] at h
    cases h

theorem Breaks.of_append (h : Breaks (m :: (u ++ v)) s) : Breaks (m :: u) s :=
  ⟨h.1, fun habbreviation => h.2.1 (isAbbreviation_append habbreviation), h.2.2⟩

theorem Spaced.of_append (h : Spaced (t ++ s)) : Spaced s := by
  intro x m y hs hm hy
  have hbreaks := h (t ++ x) m y (by rw [hs, List.append_assoc]) hm hy
  rw [List.reverse_append] at hbreaks
  exact hbreaks.of_append

/-- What decides of a break is the next character. -/
theorem breaks_append (hs : s ≠ []) : Breaks before (s ++ t) ↔ Breaks before s := by
  obtain ⟨c, s, rfl⟩ := List.exists_cons_of_ne_nil hs
  rfl

/-- No terminator is left in the buffer that is followed by more text. -/
theorem not_followed_of_splitSentence (hspaced : Spaced (s ++ t)) (h : splitSentence [] s = none)
    (ht : ∀ c ∈ t.head?, ¬ isspace c) (hs : s = x ++ m :: y) (hm : isTerminator m) :
    ¬ Followed (y ++ t) := by
  intro hy
  have hbreaks := hspaced x m (y ++ t) (by rw [hs, List.append_assoc]; rfl) hm hy
  rcases y with _ | ⟨c, y⟩
  · obtain ⟨c, hc, hspace⟩ := (Option.any_eq_true _ _).1 hbreaks.2.2
    exact ht c hc hspace
  · rw [breaks_append (List.cons_ne_nil c y)] at hbreaks
    have hmatch := splitSentence_eq_none h (x ++ [m]) (c :: y) (by rw [hs]; simp)
    rw [List.append_nil, List.reverse_append, List.reverse_singleton, List.singleton_append,
      sentenceRe_of_breaks hbreaks] at hmatch
    cases hmatch

/-- A match of the loop is at the first terminator. -/
theorem sentences_of_splitSentence (hspaced : Spaced (s ++ t))
    (h : splitSentence [] s = some (a, b)) :
    sentences [] (s ++ t) = synthesize a ++ sentences [] (b ++ t) := by
  obtain ⟨_, w, rfl, rfl, hw, hmatch, hfirst⟩ := splitSentence_eq_some h
  obtain ⟨hends, -⟩ := sentenceRe_eq_some hmatch
  obtain rfl | ⟨u, m, rfl⟩ := List.eq_nil_or_concat a
  · simp [Ends] at hends
  rw [List.concat_eq_append] at *
  have hm : isTerminator m := by simpa [Ends] using hends
  have hnone : ∀ x q y, u = x ++ q :: y → ¬ isTerminator q := by
    intro x q y hu hq
    have hbreaks := hspaced x q (y ++ (m :: w ++ b ++ t)) (by rw [hu]; simp) hq
      ⟨m, by simp, not_isspace_of_isTerminator hm⟩
    have hmiss := hfirst (x ++ [q]) (y ++ [m]) (by rw [hu]; simp) (by simp)
    rw [show y ++ (m :: w ++ b ++ t) = y ++ [m] ++ w ++ b ++ t by simp,
      breaks_append (by simp)] at hbreaks
    rw [List.append_nil, List.reverse_append, List.reverse_singleton, List.singleton_append,
      sentenceRe_of_breaks hbreaks] at hmiss
    cases hmiss
  rw [show u ++ [m] ++ w ++ b ++ t = u ++ (m :: (w ++ (b ++ t))) by simp,
    sentences_append fun x q y hu hq => absurd hq (hnone x q y hu), List.nil_append, sentences]
  split_ifs with hmore
  · rw [sentences_spaces hw, List.nil_append, ← List.append_nil w, sentences_append_left hw]
  · have hspaces : ∀ c ∈ w ++ (b ++ t), isspace c :=
      not_followed_iff.1 fun hfollowed => hmore ⟨hm, hfollowed⟩
    have hrest : ∀ c ∈ b ++ t, isspace c := fun c hc => hspaces c (List.mem_append_right w hc)
    rw [← List.append_nil (w ++ (b ++ t)), sentences_spaces hspaces, sentences,
      synthesize_append_right hspaces, ← List.append_nil (b ++ t), sentences_spaces hrest,
      sentences, List.nil_append, synthesize_of_spaces hrest, List.append_nil]

/-- The loop splits at terminators that are followed by more text, and leaves none. -/
theorem sentences_splitLoop (hspaced : Spaced (s ++ t)) :
    sentences [] (s ++ t) = (splitLoop s).1 ++ sentences [] ((splitLoop s).2 ++ t) ∧
      Spaced ((splitLoop s).2 ++ t) ∧ splitSentence [] (splitLoop s).2 = none := by
  induction s using wellFounded_splits.induction with
  | _ s ih =>
    rcases hsplit : splitSentence [] s with _ | ⟨a, b⟩
    · rw [splitLoop_of_none hsplit]
      exact ⟨rfl, hspaced, hsplit⟩
    · have hsentences := sentences_of_splitSentence hspaced hsplit
      obtain ⟨u, w, -, hs, -⟩ := splitSentence_eq_some hsplit
      have hrest : Spaced (b ++ t) := by
        rw [hs, List.append_assoc] at hspaced
        exact hspaced.of_append
      obtain ⟨heq, hleft⟩ := ih b ⟨a, hsplit⟩ hrest
      rw [splitLoop_of_some hsplit, hsentences, heq, List.append_assoc]
      exact ⟨rfl, hleft⟩

/-! ### A reply without directives -/

/-- No tag is in the text. -/
def TagFree (text : List Char) : Prop := ∀ t, t <:+ text → t ≠ [] → tagRe t = none

theorem tagFree_iff : TagFree text ↔ (parse isWord text).directives = [] := by
  rw [parse, List.map_eq_nil_iff, findall_eq_nil_iff]
  rfl

theorem TagFree.of_append_right (h : TagFree (s ++ t)) : TagFree t :=
  fun v hv => h v (hv.trans (List.suffix_append s t))

theorem TagFree.of_append_left (h : TagFree (s ++ t)) : TagFree s := by
  rintro v ⟨u, rfl⟩ hne
  refine tagRe_eq_none_of_append (h (v ++ t) ⟨u, by simp⟩ ?_)
  simp [hne]

theorem TagFree.parse (h : TagFree s) : (parse isWord s).cleanText = stripMarkdownChars s := by
  rw [Directives.parse, unmatched_eq_self_iff.2 h]

/-- What is pending is nothing, or begins with its last `[[`. -/
def Pends (pending : List Char) : Prop :=
  pending = [] ∨ ∃ rest, unterminated pending = some ([], rest)

theorem pends_feed (pending chunk : List Char) : Pends (feed pending chunk).2 := by
  rcases hun : unterminated (pending ++ chunk) with _ | ⟨safe, rest⟩
  · exact .inl (by rw [feed, hun])
  · obtain ⟨-, hlast, hclosed⟩ := unterminated_eq_some.1 hun
    exact .inr ⟨rest, by rw [feed, hun]; exact unterminated_eq_some.2 ⟨rfl, hlast, hclosed⟩⟩

theorem Flushed.of_append (h : Flushed (s ++ t)) : Flushed t := by
  intro safe rest hun
  obtain ⟨rfl, hlast, hclosed⟩ := unterminated_eq_some.1 hun
  exact h (s ++ safe) rest (unterminated_eq_some.2 ⟨by simp, hlast, hclosed⟩)

/-- What is left at the end is spoken in one piece. -/
theorem synthesize_pending {pending textBuffer : List Char} (hpends : Pends pending)
    (hspaced : Spaced (textBuffer ++ stripMarkdownChars pending)) (hflushed : Flushed pending)
    (hleft : splitSentence [] textBuffer = none) :
    synthesize (textBuffer ++ pending) =
      sentences [] (textBuffer ++ stripMarkdownChars pending) := by
  obtain rfl | ⟨rest, hun⟩ := hpends
  · rw [show stripMarkdownChars [] = [] from rfl] at hspaced ⊢
    rw [sentences_append fun x m y hs hm =>
      not_followed_of_splitSentence hspaced hleft nofun hs hm, List.nil_append, List.append_nil]
    rfl
  · obtain ⟨hplain, hnone⟩ := hflushed [] rest hun
    obtain ⟨rfl, -, -⟩ := unterminated_eq_some.1 hun
    rw [List.nil_append, stripMarkdownChars_append, hplain,
      show stripMarkdownChars pair = pair by decide] at *
    have hhead : ∀ c ∈ (pair ++ rest).head?, ¬ isspace c := by
      intro c hc
      obtain rfl := Option.some.inj hc
      decide
    rw [sentences_append fun x m y hs hm =>
      not_followed_of_splitSentence hspaced hleft hhead hs hm, List.nil_append]
    refine (sentences_eq_synthesize fun x m y hs hm => ?_).symm
    -- The brackets are no terminators.
    have hne : m ≠ '[' := by
      rintro rfl
      exact absurd hm (by decide)
    rcases x with _ | ⟨c, _ | ⟨d, x⟩⟩
    · exact absurd (List.cons.inj hs).1.symm hne
    · exact absurd (List.cons.inj (List.cons.inj hs).2).1.symm hne
    · exact hnone x m y (List.cons.inj (List.cons.inj hs).2).2 hm

/-- The tokens make no difference if every terminator that is followed by more text ends a
    sentence in any case. -/
theorem llmToTts_eq_sentences {pending textBuffer : List Char} {tokens : List (List Char)}
    (htags : TagFree (pending ++ tokens.flatten)) (hpends : Pends pending)
    (hspaced : Spaced (textBuffer ++ stripMarkdownChars (pending ++ tokens.flatten)))
    (hflushed : Flushed (pending ++ tokens.flatten))
    (hleft : splitSentence [] textBuffer = none) :
    llmToTts isWord pending textBuffer tokens =
      sentences [] (textBuffer ++ stripMarkdownChars (pending ++ tokens.flatten)) := by
  induction tokens generalizing pending textBuffer with
  | nil =>
    rw [List.flatten_nil, List.append_nil] at *
    exact synthesize_pending hpends hspaced hflushed hleft
  | cons token tokens ih =>
    rw [List.flatten_cons, ← List.append_assoc, ← feed_append pending token, List.append_assoc] at *
    rw [llmToTts]
    dsimp only
    rw [htags.of_append_left.parse]
    rw [stripMarkdownChars_append, ← List.append_assoc] at hspaced ⊢
    obtain ⟨heq, hrest, hnone⟩ := sentences_splitLoop hspaced
    rw [heq, ih htags.of_append_right (pends_feed pending token) hrest hflushed.of_append hnone]

/-! ### What comes before a character

What is split off before a character that is not whitespace does not depend on what
follows it. -/

/-- Neither a letter nor a digit. -/
def Stops (v : List Char) : Prop := ∀ c ∈ v.head?, ¬ c.isAlpha

/-- An abbreviation is seen in a part of the text that begins after a sentence. -/
theorem isAbbreviation_of_append (hv : Stops v) (h : isAbbreviation (c :: (u ++ v))) :
    isAbbreviation (c :: u) := by
  by_cases hc : c = '.'
  · subst hc
    simp only [isAbbreviation, Bool.or_eq_true, List.any_eq_true, List.isPrefixOf_iff_prefix] at h ⊢
    obtain ⟨a, ha, hprefix⟩ | hinitial := h
    · have halpha : abbreviations.all fun a => a.all Char.isAlpha := by decide
      refine .inl ⟨a, ha, ?_⟩
      obtain ⟨z, hz⟩ := hprefix
      obtain ⟨u', hu', -⟩ | ⟨u', hu', hz'⟩ := List.append_eq_append_iff.1 hz
      · exact ⟨u', hu'.symm⟩
      · rcases u' with _ | ⟨d, u'⟩
        · rw [List.append_nil] at hu'
          exact ⟨[], by rw [hu', List.append_nil]⟩
        · -- The abbreviation would go on before the sentence.
          refine absurd (List.all_eq_true.1 (List.all_eq_true.1 halpha a ha) d ?_) (hv d ?_)
          · exact List.mem_reverse.1 (hu' ▸ by simp)
          · rw [hz']
            rfl
    · rcases u with _ | ⟨d, u⟩
      · obtain ⟨d, hd, hcapital⟩ := (Option.any_eq_true _ _).1 hinitial
        refine absurd ?_ (hv d hd)
        simp only [Bool.and_eq_true, decide_eq_true_eq] at hcapital
        simp only [Char.isAlpha, Char.isUpper, Bool.or_eq_true, decide_eq_true_eq]
        exact .inl hcapital
      · exact .inr hinitial
  · rw [isAbbreviation_cons hc] at h
    cases h

theorem not_isAlpha_of_isspace (h : isspace c) : ¬ c.isAlpha := by
  have hletters : ∀ n, 65 ≤ n ∧ n ≤ 90 ∨ 97 ≤ n ∧ n ≤ 122 → isspace (Char.ofNat n) = false := by
    rintro n (⟨hle, hge⟩ | ⟨hle, hge⟩)
    · interval_cases n <;> rfl
    · interval_cases n <;> rfl
  intro halpha
  have hcode := hletters c.toNat ?_
  · rw [Char.ofNat_toNat, h] at hcode
    cases hcode
  · simpa [Char.isAlpha, Char.isUpper, Char.isLower, UInt32.le_iff_toNat_le] using halpha

/-- The loop goes on over a character that is not whitespace. -/
theorem splitSentence_cons (hd : ¬ isspace d) :
    splitSentence before (d :: y) = splitSentence (d :: before) y := by
  have hbreaks : ¬ Breaks before (d :: y) := fun h => hd h.2.2
  have hend : ¬ (Ends before ∧ (d :: y = [] ∨ d :: y = ['\n'])) := by
    rintro ⟨-, hnil | hnewline⟩
    · cases hnil
    · rw [(List.cons.inj hnewline).1] at hd
      exact hd (by decide)
  rw [splitSentence, sentenceRe_of_not_breaks hbreaks, if_neg hend]

/-- What decides of a match is the whitespace that follows, and whether anything else does. -/
theorem sentenceRe_append (h : Followed s) : sentenceRe before (s ++ t) = sentenceRe before s := by
  obtain ⟨d, hd, hspace⟩ := h
  have hne : s ≠ [] := List.ne_nil_of_mem hd
  have hend (t : List Char) : ¬ (Ends before ∧ (s ++ t = [] ∨ s ++ t = ['\n'])) := by
    rintro ⟨-, hnil | hnewline⟩
    · exact hne (List.append_eq_nil_iff.1 hnil).1
    · have hmem : d ∈ s ++ t := List.mem_append_left t hd
      rw [hnewline, List.mem_singleton] at hmem
      exact hspace (hmem ▸ by decide)
  have hspaces : (s ++ t).takeWhile isspace = s.takeWhile isspace := by
    rw [List.takeWhile_append, if_neg]
    intro hlength
    have hall := (List.takeWhile_prefix isspace).eq_of_length hlength
    exact hspace (List.mem_takeWhile_imp (hall.symm ▸ hd))
  by_cases hbreaks : Breaks before s
  · rw [sentenceRe_of_breaks hbreaks, sentenceRe_of_breaks ((breaks_append hne).2 hbreaks), hspaces]
  · rw [sentenceRe_of_not_breaks hbreaks,
      sentenceRe_of_not_breaks (mt (breaks_append hne).1 hbreaks), if_neg (hend t),
      if_neg (by simpa using hend [])]

/-- The first match before a character that is not whitespace, if there is one. -/
theorem splitSentence_before (hd : ¬ isspace d) (before x : List Char) :
    (∀ y, splitSentence before (x ++ d :: y) = splitSentence (d :: (x.reverse ++ before)) y) ∨
      ∃ a w b, before.reverse ++ x = a ++ w ++ b ∧ a ≠ [] ∧ (∀ c ∈ w, isspace c) ∧
        Stops (a ++ w).reverse ∧
        ∀ y, splitSentence before (x ++ d :: y) = some (a, b ++ d :: y) := by
  induction x generalizing before with
  | nil => exact .inl fun y => splitSentence_cons hd
  | cons c x ih =>
    have hstable (y : List Char) :
        sentenceRe before (c :: (x ++ d :: y)) = sentenceRe before (c :: x ++ [d]) := by
      rw [show c :: (x ++ d :: y) = c :: x ++ [d] ++ y by simp]
      exact sentenceRe_append ⟨d, by simp, hd⟩
    rcases hmatch : sentenceRe before (c :: x ++ [d]) with _ | n
    · have hnext (y : List Char) : splitSentence before (c :: x ++ d :: y) =
          splitSentence (c :: before) (x ++ d :: y) := by
        rw [List.cons_append, splitSentence, hstable, hmatch]
      obtain hgoes | ⟨a, w, b, hsplit, ha, hw, hstops, hfirst⟩ := ih (c :: before)
      · exact .inl fun y => by rw [hnext, hgoes, List.reverse_cons, List.append_assoc]; rfl
      · refine .inr ⟨a, w, b, ?_, ha, hw, hstops, fun y => (hnext y).trans (hfirst y)⟩
        rw [← hsplit, List.reverse_cons, List.append_assoc]
        rfl
    · obtain ⟨hends, w, b', hsplit, rfl, hw⟩ := sentenceRe_eq_some hmatch
      -- The whitespace ends before the character.
      obtain rfl | ⟨b, d', rfl⟩ := List.eq_nil_or_concat b'
      · rw [List.append_nil] at hsplit
        exact absurd (hw d (hsplit ▸ by simp)) hd
      rw [List.concat_eq_append, ← List.append_assoc] at hsplit
      obtain ⟨hcx, -⟩ := List.append_inj' hsplit rfl
      refine .inr ⟨before.reverse, w, b, by rw [hcx, List.append_assoc], ?_, hw, ?_, fun y => ?_⟩
      · rintro hnil
        rw [List.reverse_eq_nil_iff.1 hnil] at hends
        cases hends
      · rw [List.reverse_append, List.reverse_reverse]
        intro c' hc'
        obtain rfl | ⟨w, e, rfl⟩ := List.eq_nil_or_concat w
        · have hterminator : isTerminator c' := by
            rw [Ends, Option.any_eq_true] at hends
            obtain ⟨e, he, hterminator⟩ := hends
            obtain rfl := Option.some.inj (he.symm.trans hc')
            exact hterminator
          simp only [isTerminator, Bool.or_eq_true, decide_eq_true_eq] at hterminator
          obtain (rfl | rfl) | rfl := hterminator <;> decide
        · rw [List.concat_eq_append, List.reverse_append] at hc'
          obtain rfl := Option.some.inj hc'
          exact not_isAlpha_of_isspace (hw e (by simp))
      · rw [List.cons_append, splitSentence, hstable, hmatch]
        dsimp only
        rw [← List.cons_append, hcx, List.append_assoc, List.drop_left]

theorem Stops.append (hu : Stops u) (hv : Stops v) : Stops (u ++ v) := by
  rcases u with _ | ⟨c, u⟩
  · exact hv
  · exact hu

/-- What the loop splits off before a character that is not whitespace, and what it goes on
    with. -/
theorem splitLoop_before (hd : ¬ isspace d) (x : List Char) : ∃ before done left,
    x = done ++ left ∧ Stops done.reverse ∧
    (∀ y, splitSentence [] (left ++ d :: y) = splitSentence (d :: left.reverse) y) ∧
    ∀ y, splitLoop (x ++ d :: y) =
      (before ++ (splitLoop (left ++ d :: y)).1, (splitLoop (left ++ d :: y)).2) := by
  induction hlen : x.length using Nat.strong_induction_on generalizing x with
  | _ k ih =>
    subst hlen
    obtain hgoes | ⟨a, w, b, hsplit, ha, -, hstops, hfirst⟩ := splitSentence_before hd [] x
    · exact ⟨[], [], x, rfl, nofun, fun y => by simpa using hgoes y, fun y => rfl⟩
    · rw [List.reverse_nil, List.nil_append] at hsplit
      have hpos := List.length_pos_of_ne_nil ha
      obtain ⟨before, done, left, rfl, hdone, hgoes, hloop⟩ := ih b.length (by
        rw [hsplit, List.length_append, List.length_append]
        omega) b rfl
      refine ⟨synthesize a ++ before, a ++ w ++ done, left, by rw [hsplit]; simp, ?_, hgoes,
        fun y => ?_⟩
      · rw [List.reverse_append]
        exact hdone.append hstops
      · rw [splitLoop_of_some (hfirst y), hloop, List.append_assoc]

theorem splitSentence_of_isTerminator (hm : isTerminator m) :
    splitSentence (m :: before) [] = some ((m :: before).reverse, []) := by
  have hbreaks : ¬ Breaks (m :: before) [] := fun h => by simpa using h.2.2
  rw [splitSentence, sentenceRe_of_not_breaks hbreaks, if_pos ⟨hm, .inl rfl⟩]
  rfl

/-- A token that ends with a bracket makes no difference to the loop. -/
theorem splitLoop_bracket (x y : List Char) :
    splitLoop (x ++ '[' :: y) =
      ((splitLoop (x ++ ['['])).1 ++ (splitLoop ((splitLoop (x ++ ['['])).2 ++ y)).1,
        (splitLoop ((splitLoop (x ++ ['['])).2 ++ y)).2) := by
  have hbracket : ¬ isspace '[' := by decide
  obtain ⟨before, done, left, -, -, hgoes, hloop⟩ := splitLoop_before hbracket x
  have hnone : splitSentence ('[' :: left.reverse) [] = none := by
    have hends : ¬ Ends ('[' :: left.reverse) := nofun
    rw [splitSentence, sentenceRe_eq_none_iff.2 ⟨fun h => hends h.1, fun h => hends h.1⟩]
    rfl
  have hleft : splitLoop (left ++ ['[']) = ([], left ++ ['[']) :=
    splitLoop_of_none ((hgoes []).trans hnone)
  rw [hloop, hloop, hleft, List.append_nil, List.append_assoc]
  rfl

/-! ### Two ways to end the tokens -/

theorem feed_of_not_pair (h : ¬ pair <:+: s) : feed [] s = (s, []) := by
  have hnone : unterminated s = none := by
    rcases hun : unterminated s with _ | ⟨safe, rest⟩
    · rfl
    · obtain ⟨rfl, -, -⟩ := unterminated_eq_some.1 hun
      exact absurd ⟨safe, rest, rfl⟩ h
  rw [feed, List.nil_append, hnone]

/-- Tokens of which none is held back, and which end at no terminator but the last. -/
theorem exists_tokens (isWord : Char → Bool) (h : TagFree text) (textBuffer : List Char) :
    ∃ tokens, tokens.flatten = text ∧ ∀ more,
      llmToTts isWord [] textBuffer (tokens ++ more) =
        (splitLoop (textBuffer ++ stripMarkdownChars text)).1 ++
          llmToTts isWord [] (splitLoop (textBuffer ++ stripMarkdownChars text)).2 more := by
  induction hlen : text.length using Nat.strong_induction_on generalizing text textBuffer with
  | _ k ih =>
    subst hlen
    by_cases hbracket : '[' ∈ text
    · obtain ⟨t₁, t₂, rfl, hnone⟩ := List.eq_append_cons_of_mem hbracket
      have hpair : ¬ pair <:+: t₁ ++ ['['] := fun hinfix => by
        have hcount := hinfix.sublist.count_le '['
        rw [List.count_append, List.count_eq_zero_of_not_mem hnone] at hcount
        exact absurd hcount (by decide)
      rw [List.append_cons] at h
      have hlen : t₂.length < (t₁ ++ '[' :: t₂).length := by
        rw [List.length_append, List.length_cons]
        omega
      obtain ⟨tokens, rfl, htokens⟩ := ih t₂.length hlen h.of_append_right
        (splitLoop (textBuffer ++ stripMarkdownChars (t₁ ++ ['[']))).2 rfl
      refine ⟨(t₁ ++ ['[']) :: tokens, by simp, fun more => ?_⟩
      rw [List.cons_append, llmToTts, feed_of_not_pair hpair]
      dsimp only
      have hmarkdown : stripMarkdownChars (t₁ ++ '[' :: tokens.flatten) =
          stripMarkdownChars t₁ ++ '[' :: stripMarkdownChars tokens.flatten := by
        rw [stripMarkdownChars_append]
        rfl
      have hmarkdown' : stripMarkdownChars (t₁ ++ ['[']) = stripMarkdownChars t₁ ++ ['['] := by
        rw [stripMarkdownChars_append]
        rfl
      have hloop := splitLoop_bracket (textBuffer ++ stripMarkdownChars t₁)
        (stripMarkdownChars tokens.flatten)
      simp only [List.append_assoc] at hloop
      rw [h.of_append_left.parse, htokens, hmarkdown, hmarkdown', hloop, List.append_assoc]
    · have hpair : ¬ pair <:+: text := fun hinfix => hbracket (List.IsInfix.subset hinfix (by decide))
      refine ⟨[text], by simp, fun more => ?_⟩
      rw [List.singleton_append, llmToTts, feed_of_not_pair hpair]
      dsimp only
      rw [h.parse]

/-- What is spoken of a text that is in the buffer when the reply ends. -/
def atOnce (s : List Char) : List (List Char) := (splitLoop s).1 ++ synthesize (splitLoop s).2

theorem black_atOnce (s : List Char) : black (atOnce s).flatten = black s := by
  rw [atOnce, List.flatten_append, black_append, black_synthesize, black_splitLoop]

theorem exists_spoken_eq_atOnce (isWord : Char → Bool) (h : TagFree text) :
    ∃ tokens, tokens.flatten = text ∧ spoken isWord tokens = atOnce (stripMarkdownChars text) := by
  obtain ⟨tokens, htext, htokens⟩ := exists_tokens isWord h []
  refine ⟨tokens, htext, ?_⟩
  have hall := htokens []
  rwa [List.append_nil, llmToTts, List.append_nil] at hall

/-- A token may end anywhere. -/
theorem exists_spoken_eq_append (isWord : Char → Bool) {t₁ t₂ : List Char}
    (h : TagFree (t₁ ++ t₂)) : ∃ tokens rest, tokens.flatten = t₁ ++ t₂ ∧
      spoken isWord tokens = (splitLoop (stripMarkdownChars t₁)).1 ++ rest := by
  obtain ⟨tokens₁, rfl, htokens₁⟩ := exists_tokens isWord h.of_append_left []
  obtain ⟨tokens₂, rfl, -⟩ := exists_tokens isWord h.of_append_right []
  exact ⟨tokens₁ ++ tokens₂, _, List.flatten_append, htokens₁ tokens₂⟩

/-- A buffer that ends with a terminator is spoken up to its end. -/
theorem splitLoop_of_isTerminator (hm : isTerminator m)
    (hgoes : ∀ y, splitSentence [] (x ++ m :: y) = splitSentence (m :: x.reverse) y) :
    splitLoop (x ++ [m]) = ([strip (x ++ [m])], []) := by
  have hsplit : splitSentence [] (x ++ [m]) = some (x ++ [m], []) := by
    rw [hgoes, splitSentence_of_isTerminator hm]
    simp
  have hfollowed : Followed (x ++ [m]) := ⟨m, by simp, not_isspace_of_isTerminator hm⟩
  rw [splitLoop_of_some hsplit, splitLoop_of_none rfl, synthesize_of_followed hfollowed]
  rfl

theorem splitLoop_append_of_isTerminator (hm : isTerminator m) (x : List Char) :
    (splitLoop (x ++ [m])).2 = [] := by
  obtain ⟨before, done, left, -, -, hgoes, hloop⟩ :=
    splitLoop_before (not_isspace_of_isTerminator hm) x
  rw [hloop, splitLoop_of_isTerminator hm hgoes]

theorem stripMarkdownChars_of_isTerminator (hm : isTerminator m) :
    stripMarkdownChars [m] = [m] := by
  simp only [isTerminator, Bool.or_eq_true, decide_eq_true_eq] at hm
  obtain (rfl | rfl) | rfl := hm <;> decide

/-- Where no sentence ends at a terminator, what is spoken goes on beyond it. -/
theorem exists_atOnce_eq_cons (hm : isTerminator m) (hy : Followed y)
    (hgoes : ∀ y, splitSentence [] (x ++ m :: y) = splitSentence (m :: x.reverse) y)
    (hbreaks : ¬ Breaks (m :: x.reverse) y) :
    ∃ z rest, atOnce (x ++ m :: y) = z :: rest ∧
      (black (x ++ [m])).length < (black z).length := by
  have hfollowed (u : List Char) : Followed (x ++ m :: u) :=
    ⟨m, by simp, not_isspace_of_isTerminator hm⟩
  have hlonger {u : List Char} (hu : Followed u) :
      (black (x ++ [m])).length < (black (strip (x ++ m :: u))).length := by
    rw [black_strip, show x ++ m :: u = x ++ [m] ++ u by simp, black_append _ u,
      List.length_append]
    exact Nat.lt_add_of_pos_right (List.length_pos_of_ne_nil (followed_iff.1 hu))
  have hmiss : sentenceRe (m :: x.reverse) y = none := by
    rw [sentenceRe_eq_none_iff]
    refine ⟨hbreaks, ?_⟩
    obtain ⟨c, hc, hspace⟩ := hy
    rintro ⟨-, rfl | rfl⟩
    · cases hc
    · exact hspace (List.mem_singleton.1 hc ▸ by decide)
  rcases hsplit : splitSentence [] (x ++ m :: y) with _ | ⟨a, b⟩
  · refine ⟨strip (x ++ m :: y), [], ?_, hlonger hy⟩
    rw [atOnce, splitLoop_of_none hsplit, synthesize_of_followed (hfollowed y)]
    rfl
  · rw [hgoes] at hsplit
    obtain ⟨u, w, rfl, rfl, -, hmatch, -⟩ := splitSentence_eq_some hsplit
    have ha : (m :: x.reverse).reverse ++ u = x ++ m :: u := by simp
    rw [ha] at hsplit hmatch
    have hu : Followed u := by
      obtain rfl | ⟨u, c, rfl⟩ := List.eq_nil_or_concat u
      · rw [List.nil_append] at hmiss
        rw [show (x ++ [m]).reverse = m :: x.reverse by simp, hmiss] at hmatch
        cases hmatch
      · have hc : isTerminator c := by simpa [Ends] using (sentenceRe_eq_some hmatch).1
        exact ⟨c, by simp, not_isspace_of_isTerminator hc⟩
    refine ⟨strip (x ++ m :: u), (splitLoop b).1 ++ synthesize (splitLoop b).2, ?_, hlonger hu⟩
    rw [atOnce, splitLoop_of_some ((hgoes _).trans hsplit), synthesize_of_followed (hfollowed u)]
    rfl

/-- The sentences of a text do not depend on its tokens. -/
def Independent (isWord : Char → Bool) (text : List Char) : Prop :=
  ∀ tokens tokens', tokens.flatten = text → tokens'.flatten = text →
    spoken isWord tokens = spoken isWord tokens'

theorem exists_append_of_stripMarkdownChars (h : stripMarkdownChars text = x ++ m :: y) :
    ∃ t₁ t₂, text = t₁ ++ t₂ ∧ stripMarkdownChars t₁ = x ++ [m] ∧ stripMarkdownChars t₂ = y := by
  rw [List.append_cons] at h
  obtain ⟨t₁, t₂, rfl, h₁, h₂⟩ := List.filter_eq_append_iff.1 h
  exact ⟨t₁, t₂, rfl, h₁, h₂⟩

/-- A token that ends with a terminator ends a sentence. -/
theorem Independent.spaced (h : Independent isWord text) (htags : TagFree text) :
    Spaced (stripMarkdownChars text) := by
  intro x m y hs hm hy
  by_contra hbreaks
  obtain ⟨t₁, t₂, rfl, hx, hy'⟩ := exists_append_of_stripMarkdownChars hs
  have hspace := not_isspace_of_isTerminator hm
  obtain ⟨before, done, left, rfl, hdone, hgoes, hloop⟩ := splitLoop_before hspace x
  -- The abbreviation is in what the loop has left.
  have hleft : ¬ Breaks (m :: left.reverse) y := by
    rintro ⟨hends, habbreviation, hhead⟩
    refine hbreaks ⟨hends, fun hlonger => habbreviation ?_, hhead⟩
    rw [List.reverse_append] at hlonger
    exact isAbbreviation_of_append hdone hlonger
  obtain ⟨tokens, rest, htokens, hspoken⟩ := exists_spoken_eq_append isWord htags
  obtain ⟨tokens', htokens', hspoken'⟩ := exists_spoken_eq_atOnce isWord htags
  obtain ⟨z, more, hz, hlength⟩ := exists_atOnce_eq_cons hm hy hgoes hleft
  have heq := h tokens tokens' htokens htokens'
  rw [hspoken, hspoken', hx, hs, atOnce, hloop, hloop, splitLoop_of_isTerminator hm hgoes,
    List.append_assoc, List.append_assoc] at heq
  have hcons := List.append_cancel_left heq
  rw [← atOnce, hz] at hcons
  rw [← (List.cons.inj hcons).1, black_strip] at hlength
  exact lt_irrefl _ hlength

theorem spoken_singleton (isWord : Char → Bool) {safe rest : List Char} (htags : TagFree text)
    (hun : unterminated text = some (safe, rest)) :
    spoken isWord [text] = (splitLoop (stripMarkdownChars safe)).1 ++
      synthesize ((splitLoop (stripMarkdownChars safe)).2 ++ (pair ++ rest)) := by
  have hsafe : TagFree safe := by
    obtain ⟨rfl, -, -⟩ := unterminated_eq_some.1 hun
    rw [List.append_assoc] at htags
    exact htags.of_append_left
  rw [spoken, llmToTts, feed, List.nil_append, hun]
  dsimp only
  rw [hsafe.parse]
  rfl

/-- What is held back at the end keeps its markdown. -/
theorem Independent.stripMarkdownChars_eq (h : Independent isWord text) (htags : TagFree text)
    {safe rest : List Char} (hun : unterminated text = some (safe, rest)) :
    stripMarkdownChars rest = rest := by
  have hsingle := spoken_singleton isWord htags hun
  have hsafe := black_splitLoop (stripMarkdownChars safe)
  obtain ⟨tokens, htokens, hspoken⟩ := exists_spoken_eq_atOnce isWord htags
  have heq : black (spoken isWord [text]).flatten = black (spoken isWord tokens).flatten := by
    rw [h [text] tokens (by simp) htokens]
  obtain ⟨rfl, -, -⟩ := unterminated_eq_some.1 hun
  rw [hsingle, hspoken, black_atOnce, List.flatten_append, black_append, black_synthesize,
    black_append, ← List.append_assoc, hsafe, black_append, stripMarkdownChars_append,
    stripMarkdownChars_append, show stripMarkdownChars pair = pair by decide, black_append,
    black_append, ← List.append_assoc, List.append_cancel_left_eq] at heq
  refine List.filter_eq_self.2 fun c hc => ?_
  by_contra hmarkdown
  have hspace : ¬ isspace c := by
    simp only [decide_eq_true_eq, not_not, List.mem_cons, List.not_mem_nil, or_false] at hmarkdown
    obtain rfl | rfl | rfl | rfl := hmarkdown <;> decide
  have hmem : c ∈ black rest := List.mem_filter.2 ⟨hc, by simpa using hspace⟩
  rw [heq] at hmem
  exact hmarkdown (List.mem_filter.1 (List.mem_filter.1 hmem).1).2

/-- And is not split. -/
theorem Independent.not_followed (h : Independent isWord text) (htags : TagFree text)
    {safe rest : List Char} (hun : unterminated text = some (safe, rest))
    (hrest : rest = x ++ m :: y) (hm : isTerminator m) : ¬ Followed y := by
  intro hy
  have hsingle := spoken_singleton isWord htags hun
  obtain ⟨rfl, -, -⟩ := unterminated_eq_some.1 hun
  subst hrest
  have htext : safe ++ pair ++ (x ++ m :: y) = safe ++ pair ++ (x ++ [m]) ++ y := by simp
  obtain ⟨tokens, more, htokens, hspoken⟩ := exists_spoken_eq_append isWord (htext ▸ htags)
  have heq := h [safe ++ pair ++ (x ++ m :: y)] tokens (by simp) (htokens.trans htext.symm)
  have hmarkdown : stripMarkdownChars (safe ++ pair ++ (x ++ [m])) =
      stripMarkdownChars safe ++ pair ++ stripMarkdownChars x ++ [m] := by
    rw [stripMarkdownChars_append, stripMarkdownChars_append, stripMarkdownChars_append,
      show stripMarkdownChars pair = pair by decide, stripMarkdownChars_of_isTerminator hm,
      List.append_assoc _ _ [m]]
  have hx : (black (stripMarkdownChars x)).length ≤ (black x).length := by
    rw [← ink, ink_eq]
    exact List.length_filter_le _ _
  have hpos := List.length_pos_of_ne_nil (followed_iff.1 hy)
  have hmblack : black [m] = [m] := by simp [black, not_isspace_of_isTerminator hm]
  have hsafe := congrArg List.length (black_splitLoop (stripMarkdownChars safe))
  -- A token that ends with the terminator has everything up to it spoken.
  have hall := congrArg List.length
    (black_splitLoop (stripMarkdownChars safe ++ pair ++ stripMarkdownChars x ++ [m]))
  rw [splitLoop_append_of_isTerminator hm, show black [] = [] from rfl, List.append_nil] at hall
  have hfollowed : Followed ((splitLoop (stripMarkdownChars safe)).2 ++ (pair ++ (x ++ m :: y))) :=
    ⟨m, by simp, not_isspace_of_isTerminator hm⟩
  have hrest := congrArg List.length
    (black_strip ((splitLoop (stripMarkdownChars safe)).2 ++ (pair ++ (x ++ m :: y))))
  rw [List.append_cons x m y, black_append, black_append, black_append] at hrest
  rw [hsingle, hspoken, hmarkdown, synthesize_of_followed hfollowed, List.append_cons x m y] at heq
  simp only [black_append, List.length_append, hmblack, List.length_singleton] at hsafe hall hrest
  obtain ⟨piece, hbefore, hpiece⟩ | ⟨piece, hbefore, -⟩ := List.append_eq_append_iff.1 heq
  · have hlength := congrArg (fun l => (black l.flatten).length) hbefore
    rcases piece with _ | ⟨z, piece⟩
    · simp only [List.append_nil] at hlength
      omega
    · -- It is less than what the single token has spoken at its end.
      rw [← (List.cons.inj hpiece).1] at hlength
      simp only [List.flatten_append, List.flatten_cons, black_append, List.length_append]
        at hlength
      omega
  · -- It is more than what the single token has spoken before its end.
    have hlength := congrArg (fun l => (black l.flatten).length) hbefore
    simp only [List.flatten_append, black_append, List.length_append] at hlength
    omega

theorem Independent.flushed (h : Independent isWord text) (htags : TagFree text) : Flushed text :=
  fun _ _ hun => ⟨h.stripMarkdownChars_eq htags hun, fun _ _ _ => h.not_followed htags hun⟩

/-! ### Any tokens -/

/-- The sentences of a reply without directives do not depend on its tokens if and only if at
    no terminator that is followed by more a token's end makes a difference. -/
theorem spoken_eq_iff (isWord : Char → Bool) (text : List Char)
    (h : (parse isWord text).directives = []) :
    Independent isWord text ↔ Spaced (stripMarkdownChars text) ∧ Flushed text := by
  have htags := tagFree_iff.2 h
  constructor
  · exact fun hindependent => ⟨hindependent.spaced htags, hindependent.flushed htags⟩
  · rintro ⟨hspaced, hflushed⟩ tokens tokens' htokens htokens'
    have hspoken (tokens : List (List Char)) (hflatten : tokens.flatten = text) :
        spoken isWord tokens = sentences [] (stripMarkdownChars text) := by
      subst hflatten
      rw [spoken]
      exact llmToTts_eq_sentences htags (.inl rfl) hspaced hflushed rfl
    rw [hspoken tokens htokens, hspoken tokens' htokens']

theorem independent_hello : Independent Char.isAlphanum "Hello. Bye [[ Tom!".toList :=
  (spoken_eq_iff Char.isAlphanum "Hello. Bye [[ Tom!".toList (by decide)).2
    (by decide)

/-- An abbreviation at the end of a token ends a sentence. -/
theorem not_spoken_eq : ¬ ∀ (isWord : Char → Bool) (text : List Char),
    (parse isWord text).directives = [] → Independent isWord text := by
  intro h
  have hhead : spoken Char.isAlpha ["Dr.".toList, " Smith".toList] =
      spoken Char.isAlpha ["Dr. Smith".toList] :=
    h Char.isAlpha "Dr. Smith".toList (by decide +kernel) _ _ rfl rfl
  exact absurd hhead (by decide +kernel)

end Yuviz.Conversation.Sentences
