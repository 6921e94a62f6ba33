import Mathlib
import Yuviz.Config.Templates
import Yuviz.Infix

/-!
# Templates and the values put into them

`render` goes over the text twice: the placeholders are replaced, and then what
still looks like one is removed. The second pass takes the values for the text
of the template, so that a value with two opening braces takes away what
follows, up to the next closing ones.

In a text whose braces are those of its placeholders, the two passes meet at the
same places (`scan_induct`), and no literal brace stands before a placeholder.
What is rendered is the text with the values in place if and only if no two
opening braces come together in a value, or where a value ends
(`render_eq_substitute_iff`).
-/

namespace Yuviz.Config

open Python

/-- The text with each placeholder replaced, and the rest as it is. -/
def substituted [Runtime] (vars : Dict String Json) (ps : List (Char ⊕ (String × Option String))) :
    List Char :=
  ps.flatMap (Sum.elim (fun c => [c]) fun m => (renderMatch vars m).toList)

def substitute [Runtime] (text : String) (vars : Dict String Json) : String :=
  String.ofList (substituted vars (scan templateRe 0 text.toList))

/-- No two opening braces come together in what replaces a placeholder, or where it ends. -/
def Inert [Runtime] (vars : Dict String Json) : List (Char ⊕ (String × Option String)) → Prop
  | [] => True
  | .inl _ :: ps => Inert vars ps
  | .inr m :: ps =>
    ¬ ['\x7b', '\x7b'] <:+: (renderMatch vars m).toList ∧
    ((renderMatch vars m).toList.getLast? = some '\x7b' →
      (substituted vars ps).head? ≠ some '\x7b') ∧
    Inert vars ps

/-! ### The two patterns -/

/-- The fallback at the head of a text, and what is left. -/
def fallbackRe (s : List Char) : Option String × List Char :=
  if s.head? = some '|' then
    (some (String.ofList (s.tail.takeWhile (· ≠ '\x7d'))), s.tail.dropWhile (· ≠ '\x7d'))
  else (none, s)

theorem templateRe_braces (s : List Char) : templateRe ('\x7b' :: '\x7b' :: s) =
    if (s.dropWhile isspace).head?.any isNameStart ∧
        ['\x7d', '\x7d'] <+: (fallbackRe
          (((s.dropWhile isspace).dropWhile isNameChar).dropWhile isspace)).2 then
      some ((String.ofList ((s.dropWhile isspace).takeWhile isNameChar),
        (fallbackRe (((s.dropWhile isspace).dropWhile isNameChar).dropWhile isspace)).1),
        s.length + 2 - ((fallbackRe
          (((s.dropWhile isspace).dropWhile isNameChar).dropWhile isspace)).2.length - 2))
    else none := by
  rw [templateRe]
  dsimp only
  by_cases hname : (s.dropWhile isspace).head?.any isNameStart
  · rw [if_pos hname]
    generalize ((s.dropWhile isspace).dropWhile isNameChar).dropWhile isspace = s₂
    have hhead : ∀ u : List Char, (∀ t, u = '|' :: t → False) → u.head? ≠ some '|' := by
      intro u hu hhead
      obtain ⟨t, rfl⟩ := List.head?_eq_some_iff.1 hhead
      exact hu t rfl
    simp only [hname, true_and, fallbackRe]
    split
    · next x after hclosing =>
      split at hclosing
      · next t =>
        dsimp only at hclosing
        simp only [List.head?_cons, List.tail_cons, if_true, hclosing]
        rw [if_pos ⟨after, rfl⟩]
        rfl
      · next hbar =>
        dsimp only at hclosing
        subst hclosing
        simp
    · next hopen =>
      split at hopen
      · next t =>
        rw [if_neg]
        rintro ⟨after, hafter⟩
        exact hopen after hafter.symm
      · next hbar =>
        rw [if_neg (hhead _ hbar), if_neg]
        rintro ⟨after, hafter⟩
        exact hopen after hafter.symm
  · rw [if_neg hname, if_neg (fun h => hname h.1)]

section

variable {rest s : List Char} {p : Char → Bool}

/-- A run of characters that has ended is the same when more text follows. -/
theorem dropWhile_append_rest (hs : s.dropWhile p ≠ []) :
    (s ++ rest).dropWhile p = s.dropWhile p ++ rest := by
  rw [List.dropWhile_append, if_neg (by simpa using hs)]

theorem takeWhile_append_rest (hs : s.dropWhile p ≠ []) :
    (s ++ rest).takeWhile p = s.takeWhile p := by
  rw [List.takeWhile_append, if_neg]
  intro hlength
  have hsum := congrArg List.length (List.takeWhile_append_dropWhile (p := p) (l := s))
  rw [List.length_append, hlength] at hsum
  exact hs (List.length_eq_zero_iff.1 (by omega))

theorem fallbackRe_append (hs : (fallbackRe s).2 ≠ []) :
    fallbackRe (s ++ rest) = ((fallbackRe s).1, (fallbackRe s).2 ++ rest) := by
  rw [fallbackRe] at hs ⊢
  rw [fallbackRe]
  rcases s with _ | ⟨c, t⟩
  · exact absurd rfl hs
  · rw [List.cons_append, List.head?_cons, List.tail_cons, List.head?_cons, List.tail_cons] at *
    split_ifs at hs ⊢
    · rw [dropWhile_append_rest hs, takeWhile_append_rest hs]
    · rfl

theorem templateRe_append {m : (String × Option String) × ℕ} (h : templateRe s = some m)
    (rest : List Char) : templateRe (s ++ rest) = some m := by
  unfold templateRe at h
  split at h
  · next s =>
    have h : templateRe ('\x7b' :: '\x7b' :: s) = some m := by
      rw [templateRe]
      exact h
    rw [templateRe_braces] at h
    split_ifs at h with hmatch
    obtain ⟨hname, after, hafter⟩ := hmatch
    have hfallback : (fallbackRe
        (((s.dropWhile isspace).dropWhile isNameChar).dropWhile isspace)).2 ≠ [] := by
      rw [← hafter]
      exact List.cons_ne_nil _ _
    have hs₃ : ((s.dropWhile isspace).dropWhile isNameChar).dropWhile isspace ≠ [] := by
      intro hnil
      rw [hnil] at hfallback
      exact hfallback rfl
    have hs₂ : (s.dropWhile isspace).dropWhile isNameChar ≠ [] := fun hnil =>
      hs₃ (by rw [hnil, List.dropWhile_nil])
    have hs₁ : s.dropWhile isspace ≠ [] := fun hnil => hs₂ (by rw [hnil, List.dropWhile_nil])
    rw [List.cons_append, List.cons_append, templateRe_braces, dropWhile_append_rest hs₁,
      dropWhile_append_rest hs₂, dropWhile_append_rest hs₃, takeWhile_append_rest hs₂,
      fallbackRe_append hfallback, List.head?_append_of_ne_nil _ hs₁, if_pos, ← h, ← hafter]
    · simp only [List.length_append, List.length_cons, List.length_nil]
      congr 2
      omega
    · exact ⟨hname, ⟨after ++ rest, by rw [← hafter, List.append_assoc]⟩⟩
  · cases h

end

theorem templateRe_eq_none {s : List Char} (h : ¬ ['\x7b', '\x7b'] <+: s) : templateRe s = none := by
  unfold templateRe
  split
  · next s => exact absurd ⟨s, rfl⟩ h
  · rfl

theorem anyBracesRe_eq_none_iff {s : List Char} :
    anyBracesRe s = none ↔ ¬ ['\x7b', '\x7b'] <+: s := by
  unfold anyBracesRe
  split
  · next s => exact iff_of_false nofun (not_not.2 ⟨s, rfl⟩)
  · next hs =>
    refine iff_of_true rfl ?_
    rintro ⟨t, rfl⟩
    exact hs t rfl

/-- What is matched is at the head of the text. -/
theorem prefix_of_anyBracesRe {s : List Char} {chunk : String} {n : ℕ}
    (h : anyBracesRe s = some (chunk, n)) :
    chunk.toList <+: s ∧ n = chunk.toList.length ∧ 2 ≤ n := by
  unfold anyBracesRe at h
  split at h
  · next s =>
    obtain ⟨rfl, rfl⟩ := Prod.mk.inj (Option.some.inj h)
    rw [String.toList_ofList]
    refine ⟨?_, rfl, by simp⟩
    rw [List.cons_append, List.cons_append, List.prefix_cons_inj, List.prefix_cons_inj]
    conv_rhs => rw [← List.takeWhile_append_dropWhile (p := (· ≠ '\x7d')) (l := s)]
    rw [List.prefix_append_right_inj]
    exact (List.takeWhile_prefix _).trans (List.take_prefix _ _)
  · cases h

/-! ### The braces of a text without malformed placeholders -/

/-- Where there are two opening braces, there is a placeholder. -/
def Formed (s : List Char) : Prop := ∀ chunk ∈ findall anyBracesRe s, isTemplate chunk

theorem formed_iff {text : String} : malformedTemplates text = [] ↔ Formed text.toList := by
  rw [malformedTemplates, List.filter_eq_nil_iff]
  simp only [Bool.not_eq_true', Bool.not_eq_false, Formed]

/-- Both scans go on after a character that begins no match, and after a placeholder. -/
theorem Formed.scan_cons {c : Char} {s : List Char} (h : Formed (c :: s)) :
    (¬ ['\x7b', '\x7b'] <+: c :: s ∧ scan templateRe 0 (c :: s) = .inl c :: scan templateRe 0 s ∧
      Formed s) ∨
    ∃ m n, scan templateRe 0 (c :: s) = .inr m :: scan templateRe 0 ((c :: s).drop (n + 1)) ∧
      Formed ((c :: s).drop (n + 1)) := by
  rcases hbraces : anyBracesRe (c :: s) with _ | ⟨chunk, n⟩
  · have hopen := anyBracesRe_eq_none_iff.1 hbraces
    rw [Formed, findall, scan_of_none hbraces] at h
    exact .inl ⟨hopen, scan_of_none (templateRe_eq_none hopen), h⟩
  · obtain ⟨⟨rest, hrest⟩, rfl, hn⟩ := prefix_of_anyBracesRe hbraces
    obtain ⟨n, hlength⟩ : ∃ n, chunk.toList.length = n + 1 := ⟨chunk.toList.length - 1, by omega⟩
    rw [hlength] at hbraces
    rw [Formed, findall, scan_of_some hbraces (by simp)] at h
    have htemplate : isTemplate chunk := h chunk (by simp)
    rw [isTemplate, Option.any_eq_true] at htemplate
    obtain ⟨⟨m, k⟩, hm, hk⟩ := htemplate
    have hk : k = n + 1 := by
      rw [← hlength, String.length_toList]
      exact of_decide_eq_true hk
    have hmatch : templateRe (c :: s) = some (m, n + 1) := by
      rw [← hrest, templateRe_append hm, hk]
    refine .inr ⟨m, n, scan_of_some hmatch (by simp), fun chunk hchunk => h chunk ?_⟩
    rw [List.filterMap_cons]
    exact List.mem_cons_of_mem _ hchunk

/-! ### The rendered text -/

variable [Runtime] {vars : Dict String Json} {s : List Char}

theorem substituted_inl (c : Char) (ps : List (Char ⊕ (String × Option String))) :
    substituted vars (.inl c :: ps) = c :: substituted vars ps := rfl

theorem substituted_inr (m : String × Option String)
    (ps : List (Char ⊕ (String × Option String))) :
    substituted vars (.inr m :: ps) = (renderMatch vars m).toList ++ substituted vars ps := rfl

/-- What follows a brace that does not open a placeholder is no brace. -/
theorem head_substituted_ne (h : ¬ ['\x7b', '\x7b'] <+: '\x7b' :: s) :
    (substituted vars (scan templateRe 0 s)).head? ≠ some '\x7b' := by
  rcases s with _ | ⟨d, s⟩
  · rw [scan_nil]
    exact nofun
  · have hd : d ≠ '\x7b' := by
      rintro rfl
      exact h ⟨s, rfl⟩
    have hnone : templateRe (d :: s) = none :=
      templateRe_eq_none fun hopen => hd (List.cons_prefix_cons.1 hopen).1.symm
    rw [scan_of_none hnone, substituted_inl, List.head?_cons]
    exact fun heq => hd (Option.some.inj heq)

/-- Two opening braces come together where a value is put, or nowhere. -/
theorem Formed.inert_iff (h : Formed s) :
    ¬ ['\x7b', '\x7b'] <:+: substituted vars (scan templateRe 0 s) ↔
      Inert vars (scan templateRe 0 s) := by
  induction hlen : s.length using Nat.strong_induction_on generalizing s with
  | _ k ih =>
    subst hlen
    rcases s with _ | ⟨c, s⟩
    · rw [scan_nil]
      exact iff_of_true (fun hpair => List.cons_ne_nil _ _ (List.infix_nil.1 hpair)) trivial
    · rcases h.scan_cons with ⟨hopen, hscan, hs⟩ | ⟨m, n, hscan, hs⟩
      · have hpair : ¬ ['\x7b', '\x7b'] <+: c :: substituted vars (scan templateRe 0 s) := by
          intro hpair
          obtain ⟨rfl, hhead⟩ := List.cons_prefix_cons.1 hpair
          exact head_substituted_ne hopen (List.singleton_prefix_iff_head?_eq_some.1 hhead)
        rw [hscan, substituted_inl, Inert, List.infix_cons_iff, or_iff_right hpair,
          ih s.length (Nat.lt_succ_self _) hs rfl]
      · have hshort : ((c :: s).drop (n + 1)).length < (c :: s).length := by
          rw [List.length_drop, List.length_cons]
          omega
        rw [hscan, substituted_inr, Inert, pair_infix_append_iff, not_or, not_or, not_and,
          ih _ hshort hs rfl]

theorem render_eq (text : String) :
    render text vars = substitute text vars ↔
      ¬ ['\x7b', '\x7b'] <:+: substituted vars (scan templateRe 0 text.toList) := by
  have hrender : render text vars =
      String.ofList (unmatched anyBracesRe (substituted vars (scan templateRe 0 text.toList))) :=
    rfl
  rw [hrender, substitute, String.ofList_inj, unmatched_eq_self_iff, List.infix_iff_prefix_suffix]
  constructor
  · rintro h ⟨t, ht, hsuffix⟩
    have hne : t ≠ [] := ht.ne_nil (List.cons_ne_nil _ _)
    exact anyBracesRe_eq_none_iff.1 (h t hsuffix hne) ht
  · exact fun h t hsuffix _ => anyBracesRe_eq_none_iff.2 fun ht => h ⟨t, ht, hsuffix⟩

/-- Values without an opening brace are inert. -/
theorem inert_of_notMem {ps : List (Char ⊕ (String × Option String))}
    (h : ∀ m, .inr m ∈ ps → '\x7b' ∉ (renderMatch vars m).toList) : Inert vars ps := by
  induction ps with
  | nil => exact trivial
  | cons p ps ih =>
    have hps := ih fun m hm => h m (List.mem_cons_of_mem _ hm)
    rcases p with c | m
    · exact hps
    · have hm := h m List.mem_cons_self
      refine ⟨fun hpair => hm (hpair.subset List.mem_cons_self), fun hlast => ?_, hps⟩
      exact absurd (List.mem_of_getLast? hlast) hm

/-- A text without malformed placeholders is rendered as it is, with the values in place,
    if and only if no two opening braces come together in a value or where one ends. -/
theorem render_eq_substitute_iff (text : String) (vars : Dict String Json)
    (h : malformedTemplates text = []) :
    render text vars = substitute text vars ↔ Inert vars (scan templateRe 0 text.toList) := by
  rw [render_eq, (formed_iff.1 h).inert_iff]

omit [Runtime] in
theorem render_eq_substitute_hello :
    malformedTemplates "Hello \x7b\x7b name | there \x7d\x7d." = [] ∧
    (@render .ascii "Hello \x7b\x7b name | there \x7d\x7d." [("name", .str "Ann")] =
        @substitute .ascii "Hello \x7b\x7b name | there \x7d\x7d." [("name", .str "Ann")] ↔
      @Inert .ascii [("name", .str "Ann")]
        (scan templateRe 0 "Hello \x7b\x7b name | there \x7d\x7d.".toList)) := by
  have hformed : malformedTemplates "Hello \x7b\x7b name | there \x7d\x7d." = [] := by
    decide
  exact ⟨hformed, @render_eq_substitute_iff .ascii _ _ hformed⟩

omit [Runtime] in
/-- The value of the name takes the instruction away. -/
theorem not_render_eq_substitute : ¬ ∀ (text : String) (vars : Dict String Json),
    malformedTemplates text = [] → (∀ e ∈ vars, ∃ v, e.2 = .str v) →
      @render .ascii text vars = @substitute .ascii text vars := by
  intro h
  have hvars : ∀ e ∈ ([("name", .str "\x7b\x7b")] : Dict String Json), ∃ v, e.2 = .str v := by
    intro e he
    exact ⟨_, congrArg Prod.snd (List.mem_singleton.1 he)⟩
  exact absurd (h "The caller is \x7b\x7b name \x7d\x7d. Quote no prices \x7bEUR\x7d." _
    (by decide) hvars) (by decide)

end Yuviz.Config
