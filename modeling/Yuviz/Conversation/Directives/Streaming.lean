import Mathlib
import Yuviz.Conversation.Directives

/-!
# Directives in a stream

Whether the tags of a reply survive the chunks it comes in. A text is parsed
piece by piece as it is parsed as a whole unless a tag crosses from one piece to
the next (`scan_append`). A tag that does is spoken, which shows in the number of
opening brackets that are left (`openings_append_lt`).
-/

namespace Yuviz.Conversation.Directives

open Python

variable {s r w a x y b opening : List Char} {n : ℕ} {isWord : Char → Bool}

/-- A tag begins in `r` and ends in `w`, which follows it. -/
def Crosses (r w : List Char) : Prop :=
  ∃ a x y b, r = a ++ x ∧ w = y ++ b ∧ x ≠ [] ∧ y ≠ [] ∧ IsTag (x ++ y)

theorem Crosses.append_left (h : Crosses r w) (s : List Char) : Crosses (s ++ r) w := by
  obtain ⟨a, x, y, b, rfl, hw, hx, hy, ht⟩ := h
  exact ⟨s ++ a, x, y, b, (List.append_assoc s a x).symm, hw, hx, hy, ht⟩

/-! ### Parsing piece by piece -/

/-- The first tag of a text is found in its first piece, or crosses its end. -/
theorem length_le_of_tagRe (h : tagRe (r ++ w) = some (opening, n)) (hr : r ≠ [])
    (hcross : ¬Crosses r w) : n ≤ r.length := by
  obtain ⟨hopening, ⟨rest, hrest⟩, rfl⟩ := tagRe_eq_some.1 h
  rcases List.append_eq_append_iff.1 hrest with ⟨u, hu, -⟩ | ⟨u, hu, hw⟩
  · rw [hu]
    exact (List.prefix_append _ _).length_le
  · rcases u with _ | ⟨c, u⟩
    · rw [List.append_nil] at hu
      rw [hu]
    · exact absurd ⟨[], r, c :: u, rest, rfl, hw, hr, nofun, opening, hopening, hu.symm⟩ hcross

theorem scan_append (h : ¬Crosses r w) :
    scan tagRe 0 (r ++ w) = scan tagRe 0 r ++ scan tagRe 0 w := by
  induction hlen : r.length using Nat.strong_induction_on generalizing r with
  | _ k ih =>
    subst hlen
    rcases r with _ | ⟨c, r⟩
    · simp
    rcases htag : tagRe (c :: r ++ w) with _ | ⟨opening, n⟩
    · have hr : ¬Crosses r w := fun hr => h (hr.append_left [c])
      rw [List.cons_append, scan_of_none (by simpa using htag),
        scan_of_none (tagRe_eq_none_of_append htag), ih r.length (by simp) hr rfl]
      rfl
    · have hn := length_le_of_tagRe htag (by simp) h
      obtain ⟨m, rfl⟩ : ∃ m, n = m + 1 := ⟨n - 1, by
        have := (tagRe_eq_some.1 htag).2.2
        simp only [List.length_append, closing, List.length_cons] at this
        omega⟩
      -- The rest of the first piece is crossed no more than the whole of it.
      have hr : ¬Crosses ((c :: r).drop (m + 1)) w := fun hr => h <| by
        simpa only [List.take_append_drop] using hr.append_left ((c :: r).take (m + 1))
      rw [scan_of_some htag (by simp), scan_of_some (tagRe_of_append htag hn) (by simp),
        List.drop_append_of_le_length hn, ih _ ?_ hr rfl]
      · rfl
      · simp only [List.length_drop, List.length_cons]
        omega

/-- The opening brackets that are left of a text when its tags are removed. -/
def openings (s : List Char) : ℕ := (unmatched tagRe s).count '['

theorem openings_of_none {c : Char} (h : tagRe (c :: s) = none) :
    openings (c :: s) = (if c = '[' then 1 else 0) + openings s := by
  rw [openings, unmatched, scan_of_none h, List.filterMap_cons, Sum.getLeft?_inl]
  dsimp only
  rw [List.count_cons, Nat.add_comm]
  simp [openings, unmatched]

theorem openings_of_some (h : tagRe s = some (opening, n)) : openings s = openings (s.drop n) := by
  obtain ⟨hopening, hprefix, hn⟩ := tagRe_eq_some.1 h
  have hs : s ≠ [] := by
    rintro rfl
    rw [List.prefix_nil, List.append_eq_nil_iff] at hprefix
    exact absurd hprefix.2 (by decide)
  obtain ⟨m, rfl⟩ : ∃ m, n = m + 1 := ⟨n - 1, by
    simp only [List.length_append, closing, List.length_cons] at hn
    omega⟩
  rw [openings, unmatched, scan_of_some h hs, List.filterMap_cons, Sum.getLeft?_inr]
  rfl

theorem openings_append (h : ¬Crosses r w) : openings (r ++ w) = openings r + openings w := by
  rw [openings, unmatched, scan_append h, List.filterMap_append, List.count_append]
  rfl

/-- The end of a tag is not the beginning of another. -/
theorem not_crosses_of_isTag (h : IsTag (x ++ y)) : ¬Crosses y w := by
  rintro ⟨a, x', y', b, rfl, rfl, hx', hy', opening', hopening', ht'⟩
  obtain ⟨opening, hopening, ht⟩ := h
  have heq : opening ++ closing ++ (y' ++ b) = x ++ a ++ (opening' ++ closing ++ b) := by
    rw [← ht, ← ht']
    simp
  have hlen := congrArg List.length ht
  have hlen' := congrArg List.length ht'
  have hx'pos := List.length_pos_of_ne_nil hx'
  have hy'pos := List.length_pos_of_ne_nil hy'
  simp only [List.length_append] at hlen hlen'
  have hsame := congrArg List.length (opening_eq_append hopening.1 hopening' heq (by
    simp only [List.length_append]
    omega))
  simp only [List.length_append] at hsame
  omega

/-- Parsing piece by piece leaves at least the brackets that parsing the whole
    does, and more if a tag crosses from one piece to the other. -/
theorem openings_append_le (r w : List Char) :
    openings (r ++ w) ≤ openings r + openings w ∧
      (Crosses r w → openings (r ++ w) < openings r + openings w) := by
  induction hlen : r.length using Nat.strong_induction_on generalizing r with
  | _ k ih =>
    subst hlen
    rcases r with _ | ⟨c, r⟩
    · have hcross : ¬Crosses [] w := by
        rintro ⟨a, x, y, b, hr, -, hx, -⟩
        exact hx (List.append_eq_nil_iff.1 hr.symm).2
      exact ⟨(openings_append hcross).le, fun h => absurd h hcross⟩
    rcases htag : tagRe (c :: r ++ w) with _ | ⟨opening, n⟩
    · -- No tag begins here.
      obtain ⟨hle, hlt⟩ := ih r.length (by simp) r rfl
      rw [List.cons_append, openings_of_none (by simpa using htag),
        openings_of_none (tagRe_eq_none_of_append htag)]
      refine ⟨by omega, fun ⟨a, x, y, b, hr, hw, hx, hy, opening, hopening, ht⟩ => ?_⟩
      rcases a with _ | ⟨c', a⟩
      · rw [List.nil_append] at hr
        have hsome : tagRe (c :: r ++ w) = some (opening, (opening ++ closing).length) :=
          tagRe_eq_some.2 ⟨hopening, ⟨b, by rw [hr, hw, ← ht, List.append_assoc]⟩, rfl⟩
        rw [hsome] at htag
        cases htag
      · rw [List.cons_append] at hr
        obtain ⟨rfl, rfl⟩ := List.cons.inj hr
        have := hlt ⟨a, x, y, b, rfl, hw, hx, hy, opening, hopening, ht⟩
        omega
    · obtain ⟨hopening, hprefix, hn⟩ := tagRe_eq_some.1 htag
      by_cases hnr : n ≤ (c :: r).length
      · -- The tag is within the first piece, and no crossing tag begins in it.
        have hpos : 0 < n := by
          simp only [List.length_append, closing, List.length_cons] at hn
          omega
        obtain ⟨hle, hlt⟩ := ih ((c :: r).drop n).length (by
          simp only [List.length_drop, List.length_cons] at *
          omega) _ rfl
        rw [openings_of_some htag, openings_of_some (tagRe_of_append htag hnr),
          List.drop_append_of_le_length hnr]
        refine ⟨hle, fun ⟨a, x, y, b, hr, hw, hx, hy, opening', hopening', ht⟩ => hlt ?_⟩
        obtain ⟨rest, hrest⟩ := List.prefix_of_prefix_length_le hprefix
          (List.prefix_append (c :: r) w) (hn ▸ hnr)
        rw [← hrest] at hr ⊢
        rw [hn, List.drop_left]
        rcases List.append_eq_append_iff.1 hr with ⟨u, rfl, hu⟩ | ⟨u, hu, hxu⟩
        · exact ⟨u, x, y, b, hu, hw, hx, hy, opening', hopening', ht⟩
        · rcases u with _ | ⟨d, u⟩
          · exact ⟨[], x, y, b, hxu.symm, hw, hx, hy, opening', hopening', ht⟩
          · have hsame := congrArg List.length (opening_eq_append (r := rest ++ w) (a := a) (b := b)
              hopening.1 hopening' (by rw [← ht, ← List.append_assoc, hr, hw]; simp) (by
                rw [hu]
                simp))
            have hlen := congrArg List.length hr
            have hlen' := congrArg List.length ht
            have hypos := List.length_pos_of_ne_nil hy
            simp only [List.length_append] at hsame hlen hlen'
            omega
      · -- The tag crosses over: its first bracket is left, and what follows it in
        -- the second piece is parsed as before.
        have hnone : tagRe (c :: r) = none := by
          rcases h : tagRe (c :: r) with _ | ⟨opening', n'⟩
          · rfl
          · obtain ⟨rfl, rfl⟩ := Prod.mk.inj (Option.some.inj ((tagRe_append h w).symm.trans htag))
            obtain ⟨-, hp, rfl⟩ := tagRe_eq_some.1 h
            exact absurd hp.length_le hnr
        obtain ⟨y, hy⟩ := List.prefix_of_prefix_length_le (List.prefix_append (c :: r) w) hprefix
          (by omega)
        obtain ⟨rest, hrest⟩ := hprefix
        have hw : w = y ++ rest := by
          rw [← hy, List.append_assoc] at hrest
          exact (List.append_cancel_left hrest).symm
        have hdrop : (c :: r ++ w).drop n = rest := by
          rw [← hrest, hn, List.drop_left]
        have hc : c = '[' := by
          obtain ⟨t, rfl⟩ := exists_cons_of_isOpening hopening
          rw [List.cons_append] at hy
          exact (List.cons.inj hy).1
        have hcross : ¬Crosses y rest :=
          not_crosses_of_isTag (x := c :: r) ⟨opening, hopening, hy⟩
        rw [openings_of_some htag, hdrop, openings_of_none hnone, if_pos hc, hw,
          openings_append hcross]
        exact ⟨by omega, fun _ => by omega⟩

/-! ### The buffer -/

theorem pair_ne_nil : pair ≠ [] := nofun

theorem unterminated_eq_some {safe rest : List Char} :
    unterminated s = some (safe, rest) ↔
      s = safe ++ pair ++ rest ∧ ¬pair <:+: '[' :: rest ∧ ¬closing <:+: pair ++ rest := by
  rw [unterminated, Option.filter_eq_some_iff, rcut_eq_some pair_ne_nil, and_assoc, decide_eq_true_iff]
  rfl

/-- A chunk that ends within a tag, with `x` of it before its end, leaves the tag
    in one piece: all of `x` stays pending, as nothing after the opening brackets
    looks like another tag, or, if only one of the brackets has come, as an
    earlier `[[` is held back. -/
def Keeps (text x : List Char) : Prop :=
  if x = ['['] then (unterminated text).isSome = true else ¬pair <:+: x.tail

/-- The chunk keeps every tag of the reply that it ends within. -/
def KeepsTags (pending chunk rest : List Char) : Prop :=
  ∀ a x y b, pending ++ chunk = a ++ x → rest = y ++ b → IsTag (x ++ y) → x ≠ [] → y ≠ [] →
    Keeps (pending ++ chunk) x

/-- So do all the chunks, each with what is pending then. -/
def AllKeepTags : List Char → List (List Char) → Prop
  | _, [] => True
  | pending, chunk :: chunks =>
    KeepsTags pending chunk chunks.flatten ∧ AllKeepTags (feed pending chunk).2 chunks

/-- What comes of a tag without its end is not closed. -/
theorem not_closing_infix (h : IsTag (x ++ y)) (hy : y ≠ []) : ¬closing <:+: x := by
  obtain ⟨opening, hopening, ht⟩ := h
  intro hx
  -- A closing within `x` would begin before the one at the end of the tag.
  obtain ⟨u, v, huv⟩ := hx
  have heq : opening ++ closing = u ++ (closing ++ (v ++ y)) := by
    rw [← ht, ← huv]
    simp
  rcases List.append_eq_append_iff.1 heq with ⟨t, rfl, ht'⟩ | ⟨t, rfl, ht'⟩
  · have hlen := congrArg List.length ht'
    have hpos := List.length_pos_of_ne_nil hy
    simp only [List.length_append] at hlen
    omega
  · rcases t with _ | ⟨c, t⟩
    · rw [List.nil_append] at ht'
      have hlen := congrArg List.length ht'
      have hpos := List.length_pos_of_ne_nil hy
      simp only [List.length_append] at hlen
      omega
    · rw [show closing ++ (v ++ y) = ']' :: ']' :: (v ++ y) from rfl, List.cons_append] at ht'
      obtain ⟨rfl, -⟩ := List.cons.inj ht'
      exact hopening.1 (by simp)

theorem pair_prefix_of_isTag (h : IsTag (x ++ y)) (hx : 2 ≤ x.length) : pair <+: x := by
  obtain ⟨opening, hopening, ht⟩ := h
  refine List.prefix_of_prefix_length_le ?_ (List.prefix_append x y) hx
  rw [ht]
  exact hopening.2.1.trans (List.prefix_append _ _)

theorem two_le_length_of_isTag (h : IsTag (x ++ y)) (hx : x ≠ []) (hone : x ≠ ['[']) :
    2 ≤ x.length := by
  obtain ⟨opening, hopening, ht⟩ := h
  obtain ⟨t, rfl⟩ := exists_cons_of_isOpening hopening
  rcases x with _ | ⟨c, _ | ⟨d, x⟩⟩
  · exact absurd rfl hx
  · rw [List.cons_append, List.cons_append] at ht
    exact absurd (congrArg (fun c => [c]) (List.cons.inj ht).1) hone
  · simp

/-- A tag does not end in text that is not closed. -/
theorem not_prefix_of_isTag (h : IsTag (x ++ y)) (hy : y ≠ []) {held : List Char}
    (hheld : ¬closing <:+: pair ++ held) : ¬y <+: pair ++ held := by
  obtain ⟨opening, -, ht⟩ := h
  have hsuffix : closing <:+ x ++ y := ⟨opening, ht.symm⟩
  intro hprefix
  by_cases hlen : 2 ≤ y.length
  · exact hheld
      ((List.suffix_of_suffix_length_le hsuffix (List.suffix_append x y) hlen).isInfix.trans
        hprefix.isInfix)
  · -- One character of the tag is not the opening bracket that the text begins with.
    obtain ⟨c, rfl⟩ : ∃ c, y = [c] := List.length_eq_one_iff.1 (by
      have := List.length_pos_of_ne_nil hy
      omega)
    have hc : c = '[' := (List.cons_prefix_cons.1 hprefix).1
    have hlast := congrArg List.getLast? ht
    rw [List.getLast?_append_of_ne_nil _ (by simp), List.getLast?_append_of_ne_nil _ (by decide)]
      at hlast
    rw [hc] at hlast
    exact absurd hlast (by decide)

/-- A tag crosses what the buffer releases exactly if the chunk does not keep it. -/
theorem keepsTags_iff {pending chunk rest : List Char} :
    KeepsTags pending chunk rest ↔
      ¬Crosses (feed pending chunk).1 ((feed pending chunk).2 ++ rest) := by
  rcases hun : unterminated (pending ++ chunk) with _ | ⟨safe, held⟩
  · -- All of it is released: a chunk then keeps no tag it ends within.
    have hfeed : feed pending chunk = (pending ++ chunk, []) := by rw [feed, hun]
    rw [hfeed, List.nil_append]
    refine ⟨fun h ⟨a, x, y, b, hr, hw, hx, hy, ht⟩ => ?_, fun h a x y b hr hw ht hx hy => ?_⟩
    · have hkeeps := h a x y b hr hw ht hx hy
      rw [Keeps, hun] at hkeeps
      split_ifs at hkeeps with hone
      · cases hkeeps
      · obtain ⟨t, rfl⟩ := pair_prefix_of_isTag ht (two_le_length_of_isTag ht hx hone)
        have hsome : unterminated (pending ++ chunk) = some (a, t) :=
          unterminated_eq_some.2
            ⟨by rw [List.append_assoc]; exact hr, hkeeps, not_closing_infix ht hy⟩
        rw [hun] at hsome
        cases hsome
    · exact absurd ⟨a, x, y, b, hr, hw, hx, hy, ht⟩ h
  · have hfeed : feed pending chunk = (safe, pair ++ held) := by rw [feed, hun]
    obtain ⟨heq, hlast, hclosed⟩ := unterminated_eq_some.1 hun
    rw [hfeed]
    refine ⟨fun h ⟨a, x, y, b, hr, hw, hx, hy, ht⟩ => ?_, fun h a x y b hr hw ht hx hy => ?_⟩
    · -- The tag goes on past all that is held, so that the chunk ends within it.
      dsimp only at hr hw
      rcases List.append_eq_append_iff.1 hw with ⟨y', hy', hrest⟩ | ⟨t, hheld, -⟩
      · rcases eq_or_ne y' [] with rfl | hne
        · exact not_prefix_of_isTag ht hy hclosed (by rw [hy', List.append_nil])
        · have hkeeps := h a (x ++ (pair ++ held)) y' b (by rw [heq, hr]; simp) hrest
            (by rw [List.append_assoc, ← hy']; exact ht) (by simp [hx]) hne
          obtain ⟨c, x, rfl⟩ := List.exists_cons_of_ne_nil hx
          rw [Keeps, if_neg (by simp [pair])] at hkeeps
          exact hkeeps ⟨x, held, by simp⟩
      · exact not_prefix_of_isTag ht hy hclosed ⟨t, hheld.symm⟩
    · rw [Keeps, hun]
      split_ifs with hone
      · rfl
      · -- Another `[[` within the tag would be the last one, and be held instead.
        rintro ⟨u, v, huv⟩
        obtain ⟨c, x, rfl⟩ := List.exists_cons_of_ne_nil hx
        rw [List.tail_cons] at huv
        obtain ⟨t, hsafe⟩ := prefix_of_rcut pair_ne_nil
          ((rcut_eq_some pair_ne_nil).2 ⟨heq, hlast⟩) (p := a ++ c :: u) (t := v)
          (by rw [hr, ← huv]; simp)
        have hx' : c :: x = c :: u ++ t ++ (pair ++ held) := by
          rw [hr, ← hsafe] at heq
          simpa using heq
        refine h ⟨a, c :: u ++ t, pair ++ held ++ y, b, ?_, ?_, nofun, nofun, ?_⟩
        · rw [← hsafe]
          simp
        · dsimp only
          rw [hw, ← List.append_assoc]
        · rwa [← List.append_assoc, ← hx']

theorem feed_append (pending chunk : List Char) :
    (feed pending chunk).1 ++ (feed pending chunk).2 = pending ++ chunk := by
  rcases hun : unterminated (pending ++ chunk) with _ | ⟨safe, held⟩
  · simp [feed, hun]
  · rw [feed, hun, (unterminated_eq_some.1 hun).1, List.append_assoc]

theorem not_closing_infix_feed (pending chunk : List Char) :
    ¬closing <:+: (feed pending chunk).2 := by
  rcases hun : unterminated (pending ++ chunk) with _ | ⟨safe, held⟩
  · rw [feed, hun]
    exact fun h => absurd (List.infix_nil.1 h) (by decide)
  · rw [feed, hun]
    exact (unterminated_eq_some.1 hun).2.2

/-! ### The reply as a whole -/

theorem scan_of_not_closing (h : ¬closing <:+: s) : scan tagRe 0 s = s.map .inl := by
  induction s with
  | nil => simp
  | cons c s ih =>
    have hnone : tagRe (c :: s) = none := by
      rcases htag : tagRe (c :: s) with _ | ⟨opening, n⟩
      · rfl
      · obtain ⟨-, hprefix, -⟩ := tagRe_eq_some.1 htag
        exact absurd (((List.suffix_append opening closing).isInfix).trans hprefix.isInfix) h
    rw [scan_of_none hnone, ih fun hs => h (hs.trans (List.suffix_cons c s).isInfix)]
    rfl

theorem count_stripMarkdownChars (s : List Char) : (stripMarkdownChars s).count '[' = s.count '[' :=
  List.count_filter (by decide)

theorem stripMarkdownChars_append (s t : List Char) :
    stripMarkdownChars (s ++ t) = stripMarkdownChars s ++ stripMarkdownChars t :=
  List.filter_append s t

@[simp] theorem stripMarkdownChars_idem (s : List Char) :
    stripMarkdownChars (stripMarkdownChars s) = stripMarkdownChars s := by
  rw [stripMarkdownChars, stripMarkdownChars, List.filter_filter]
  simp

theorem count_cleanText_parse (s : List Char) :
    (parse isWord s).cleanText.count '[' = openings s :=
  count_stripMarkdownChars _

theorem parse_append (h : ¬Crosses r w) :
    parse isWord (r ++ w) =
      ⟨(parse isWord r).cleanText ++ (parse isWord w).cleanText,
        (parse isWord r).directives ++ (parse isWord w).directives⟩ := by
  simp only [parse, unmatched, findall, scan_append h, List.filterMap_append, List.map_append,
    stripMarkdownChars_append]

/-- A stream leaves at least the brackets that the reply as a whole does. -/
theorem openings_le_count_stream (isWord : Char → Bool) (pending : List Char)
    (chunks : List (List Char)) :
    openings (pending ++ chunks.flatten) ≤ (stream isWord pending chunks).cleanText.count '[' := by
  induction chunks generalizing pending with
  | nil =>
    rw [List.flatten_nil, List.append_nil]
    exact (unmatched_sublist pending).count_le '['
  | cons chunk chunks ih =>
    rw [List.flatten_cons, ← List.append_assoc, ← feed_append pending chunk, List.append_assoc, stream]
    dsimp only
    rw [List.count_append, count_cleanText_parse]
    exact ((openings_append_le _ _).1).trans (Nat.add_le_add_left (ih _) _)

/-- And more than that, if a chunk does not keep a tag. -/
theorem openings_lt_count_stream (isWord : Char → Bool) {pending : List Char}
    {chunks : List (List Char)} (h : ¬AllKeepTags pending chunks) :
    openings (pending ++ chunks.flatten) < (stream isWord pending chunks).cleanText.count '[' := by
  induction chunks generalizing pending with
  | nil => exact absurd trivial h
  | cons chunk chunks ih =>
    rw [AllKeepTags, keepsTags_iff] at h
    rw [List.flatten_cons, ← List.append_assoc, ← feed_append pending chunk, List.append_assoc, stream]
    dsimp only
    rw [List.count_append, count_cleanText_parse]
    obtain ⟨hle, hlt⟩ := openings_append_le (feed pending chunk).1
      ((feed pending chunk).2 ++ chunks.flatten)
    by_cases hcross : Crosses (feed pending chunk).1 ((feed pending chunk).2 ++ chunks.flatten)
    · have hrest := openings_le_count_stream isWord (feed pending chunk).2 chunks
      have hpiece := hlt hcross
      omega
    · have hrest := ih (fun hall => h ⟨hcross, hall⟩)
      omega

theorem stream_eq_parse_iff_of_pending (isWord : Char → Bool) {pending : List Char}
    (hpending : ¬closing <:+: pending) (chunks : List (List Char)) :
    (stripMarkdownChars (stream isWord pending chunks).cleanText =
        (parse isWord (pending ++ chunks.flatten)).cleanText ∧
      (stream isWord pending chunks).directives =
        (parse isWord (pending ++ chunks.flatten)).directives) ↔
    AllKeepTags pending chunks := by
  induction chunks generalizing pending with
  | nil =>
    have hscan := scan_of_not_closing hpending
    simp only [stream, List.flatten_nil, List.append_nil, AllKeepTags, iff_true, parse, unmatched,
      findall, hscan, List.filterMap_map]
    constructor
    · congr
      exact (List.filterMap_some).symm
    · simp [Function.comp_def]
  | cons chunk chunks ih =>
    rw [AllKeepTags, keepsTags_iff, ← ih (not_closing_infix_feed pending chunk), List.flatten_cons,
      ← List.append_assoc, ← feed_append pending chunk, List.append_assoc, stream]
    dsimp only
    rw [stripMarkdownChars_append]
    by_cases hcross : Crosses (feed pending chunk).1 ((feed pending chunk).2 ++ chunks.flatten)
    · -- The stream leaves a bracket of the tag that crosses over.
      refine iff_of_false (fun h => ?_) (fun h => h.1 hcross)
      have hcount := congrArg (List.count '[') h.1
      rw [List.count_append, count_stripMarkdownChars, count_stripMarkdownChars,
        count_cleanText_parse, count_cleanText_parse] at hcount
      have hlt := (openings_append_le _ _).2 hcross
      have hle := openings_le_count_stream isWord (feed pending chunk).2 chunks
      omega
    · rw [parse_append hcross]
      dsimp only
      rw [show stripMarkdownChars (parse isWord (feed pending chunk).1).cleanText =
        (parse isWord (feed pending chunk).1).cleanText from stripMarkdownChars_idem _,
        List.append_cancel_left_eq, List.append_cancel_left_eq]
      exact (and_iff_right hcross).symm

/-- A reply that comes in chunks has the directives and the text of the reply as a
    whole, up to the markdown characters of what is flushed, exactly if every chunk
    keeps the tags that it ends within. -/
theorem stream_eq_parse_iff (isWord : Char → Bool) (chunks : List (List Char)) :
    (stripMarkdownChars (stream isWord [] chunks).cleanText =
        (parse isWord chunks.flatten).cleanText ∧
      (stream isWord [] chunks).directives = (parse isWord chunks.flatten).directives) ↔
    AllKeepTags [] chunks :=
  stream_eq_parse_iff_of_pending isWord (by decide) chunks

/-- A chunk may end between the opening brackets, and the call goes on. -/
theorem not_stream_eq_parse :
    ¬∀ (isWord : Char → Bool) (chunks : List (List Char)),
      stripMarkdownChars (stream isWord [] chunks).cleanText =
          (parse isWord chunks.flatten).cleanText ∧
        (stream isWord [] chunks).directives = (parse isWord chunks.flatten).directives := by
  intro h
  have h := (h (fun c => c.isAlphanum || c = '_')
    [['B', 'y', 'e', ' ', '['], ['[', 'E', 'N', 'D', '_', 'C', 'A', 'L', 'L', ']', ']']]).2
  exact absurd h (by decide)

end Yuviz.Conversation.Directives
