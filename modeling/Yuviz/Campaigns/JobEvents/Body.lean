import Yuviz.Campaigns.JobEvents

/-!
# The body of an event

The body of an event is a block of header lines, one of which has the `Job-UUID`,
an empty line, and the reply of the command. The block ends its lines with line
feeds, or with carriage returns and line feeds, and `_parse_job_event` looks for
the latter first, in the reply too. So the result is the one in the event unless
it takes the reply for a part of the block (`parseJobEvent_iff`).
-/

namespace Yuviz.Campaigns

open Python (Bytes Dict decode strip isspace splitlines splitlinesFrom isLineBoundary)

/-- How the lines of a text end. -/
inductive LineEnd
  | lf
  | crlf
  deriving DecidableEq

def LineEnd.chars : LineEnd → List Char
  | .lf => ['\n']
  | .crlf => ['\r', '\n']

/-- A line of a text, which is not empty. -/
structure IsTextLine (line : List Char) : Prop where
  ne_nil : line ≠ []
  isLineBoundary_eq_false : ∀ c ∈ line, isLineBoundary c = false

instance (line : List Char) : Decidable (IsTextLine line) :=
  decidable_of_iff (line ≠ [] ∧ (line.all fun c => !isLineBoundary c) = true)
    ⟨fun h => ⟨h.1, fun c hc => by simpa using List.all_eq_true.1 h.2 c hc⟩,
      fun h => ⟨h.ne_nil, List.all_eq_true.2 fun c hc => by
        simp [h.isLineBoundary_eq_false c hc]⟩⟩

/-- The lines of a text, each with its end. -/
def LineEnd.join (e : LineEnd) (lines : List (List Char)) : List Char :=
  lines.flatMap (· ++ e.chars)

/-- The header line of a job. -/
def jobUuidLine (jobUuid : List Char) : List Char := jobUuidKey ++ ':' :: ' ' :: jobUuid

/-- The body of an event that reports the result of a job. -/
structure JobBody where
  bytes : Bytes
  lineEnd : LineEnd
  /-- The header lines before and after the `Job-UUID`. -/
  before : List (List Char)
  after : List (List Char)
  jobUuid : List Char
  reply : List Char
  decode_bytes : decode bytes =
    lineEnd.join (before ++ jobUuidLine jobUuid :: after) ++ (lineEnd.chars ++ reply)
  isTextLine : ∀ line ∈ before ++ jobUuidLine jobUuid :: after, IsTextLine line
  /-- There is one `Job-UUID`. -/
  once : ∀ line ∈ before ++ after, (header? line).map Prod.fst ≠ some jobUuidKey
  jobUuid_ne_nil : jobUuid ≠ []
  strip_jobUuid : strip jobUuid = jobUuid

/-- The lines of the block. -/
def JobBody.lines (b : JobBody) : List (List Char) := b.before ++ jobUuidLine b.jobUuid :: b.after

/-- The result in an event. -/
def JobBody.result (b : JobBody) : JobResult where
  jobUuid := b.jobUuid
  succeeded := decide ("+OK".toList <+: strip b.reply)
  detail := strip b.reply

/-- No part of the reply is taken for a part of the block: if the lines of the block end
    in line feeds, there is nothing in the reply before a line that is empty and
    ends in a carriage return and a line feed, like the one before it. -/
def JobBody.ReplyKept (b : JobBody) : Prop :=
  b.lineEnd = .lf → ∀ parts ∈ cut ['\r', '\n', '\r', '\n'] b.reply, ∀ c ∈ parts.1, isspace c = true

variable {e : LineEnd} {line l s t reply : List Char} {lines : List (List Char)}

/-! ### Finding the end of the block -/

theorem IsTextLine.notMem (h : IsTextLine line) : '\r' ∉ line ∧ '\n' ∉ line :=
  ⟨fun hmem => absurd (h.isLineBoundary_eq_false _ hmem) (by decide),
    fun hmem => absurd (h.isLineBoundary_eq_false _ hmem) (by decide)⟩

/-- The block does not end with a line that another line follows. -/
theorem cut_of_line (hl : IsTextLine l) (hline : IsTextLine line) :
    cut (e.chars ++ e.chars) (l ++ (e.chars ++ (line ++ s))) =
      (cut (e.chars ++ e.chars) (line ++ s)).map fun p => (l ++ (e.chars ++ p.1), p.2) := by
  obtain ⟨c, line, rfl⟩ := List.exists_cons_of_ne_nil hline.ne_nil
  have hc := hline.notMem
  simp only [List.mem_cons, not_or] at hc
  cases e with
  | lf =>
    have hnot : ¬['\n', '\n'] <+: '\n' :: (c :: line ++ s) := by
      simp [List.cons_prefix_cons, hc.2.1]
    change cut ['\n', '\n'] (l ++ '\n' :: (c :: line ++ s)) = (cut ['\n', '\n'] _).map _
    rw [cut_append_of_notMem hl.notMem.2, cut_cons_of_not_prefix hnot, Option.map_map]
    rfl
  | crlf =>
    have hnot : ¬['\r', '\n', '\r', '\n'] <+: '\r' :: '\n' :: (c :: line ++ s) := by
      simp [List.cons_prefix_cons, hc.1.1]
    have hnot' : ¬['\r', '\n', '\r', '\n'] <+: '\n' :: (c :: line ++ s) := by
      simp [List.cons_prefix_cons]
    change cut ['\r', '\n', '\r', '\n'] (l ++ '\r' :: '\n' :: (c :: line ++ s)) =
      (cut ['\r', '\n', '\r', '\n'] _).map _
    rw [cut_append_of_notMem hl.notMem.1, cut_cons_of_not_prefix hnot,
      cut_cons_of_not_prefix hnot', Option.map_map, Option.map_map]
    rfl

theorem cut_of_last (hl : IsTextLine l) :
    cut (e.chars ++ e.chars) (l ++ (e.chars ++ (e.chars ++ reply))) = some (l, reply) := by
  cases e with
  | lf =>
    change cut ['\n', '\n'] (l ++ '\n' :: '\n' :: reply) = _
    rw [cut_append_of_notMem hl.notMem.2, cut, if_pos ⟨reply, rfl⟩]
    simp
  | crlf =>
    change cut ['\r', '\n', '\r', '\n'] (l ++ '\r' :: '\n' :: '\r' :: '\n' :: reply) = _
    rw [cut_append_of_notMem hl.notMem.1, cut, if_pos ⟨reply, rfl⟩]
    simp

/-- The block ends where the first empty line is. -/
theorem cut_join (hl : IsTextLine l) (hlines : ∀ line ∈ lines, IsTextLine line) :
    cut (e.chars ++ e.chars) (e.join (lines ++ [l]) ++ (e.chars ++ reply)) =
      some (e.join lines ++ l, reply) := by
  induction lines with
  | nil => simpa [LineEnd.join] using cut_of_last hl
  | cons line lines ih =>
    rw [List.forall_mem_cons] at hlines
    have ih := ih hlines.2
    obtain ⟨next, s, hnext, hs⟩ : ∃ next s, IsTextLine next ∧
        e.join (lines ++ [l]) ++ (e.chars ++ reply) = next ++ s := by
      rcases lines with _ | ⟨next, lines⟩
      · exact ⟨l, _, hl, by simp [LineEnd.join]; rfl⟩
      · exact ⟨next, _, hlines.2 _ List.mem_cons_self, by simp [LineEnd.join]; rfl⟩
    have hcons : e.join (line :: lines ++ [l]) ++ (e.chars ++ reply) =
        line ++ (e.chars ++ (next ++ s)) := by
      rw [← hs]
      simp [LineEnd.join]
    rw [hcons, cut_of_line hlines.1 hnext, ← hs, ih]
    simp [LineEnd.join]

/-! ### The lines of the block -/

theorem splitlines_append_lineEnd (hl : IsTextLine l) (s : List Char) :
    splitlines (l ++ (e.chars ++ s)) = l :: splitlines s := by
  rw [splitlines, Python.splitlinesFrom_append hl.isLineBoundary_eq_false]
  cases e <;> rfl

theorem splitlines_join (hlines : ∀ line ∈ lines, IsTextLine line) (s : List Char) :
    splitlines (e.join lines ++ s) = lines ++ splitlines s := by
  induction lines with
  | nil => rfl
  | cons line lines ih =>
    rw [List.forall_mem_cons] at hlines
    have hcons : e.join (line :: lines) ++ s = line ++ (e.chars ++ (e.join lines ++ s)) := by
      simp [LineEnd.join]
    rw [hcons, splitlines_append_lineEnd hlines.1, ih hlines.2]
    rfl

theorem splitlines_of_isTextLine (hl : IsTextLine l) : splitlines l = [l] := by
  have happend : splitlinesFrom [] (l ++ []) = splitlinesFrom l [] :=
    Python.splitlinesFrom_append hl.isLineBoundary_eq_false []
  rw [List.append_nil] at happend
  rw [splitlines, happend, splitlinesFrom, if_neg hl.ne_nil]

/-! ### The result -/

variable {b : JobBody} {parts : List Char × List Char} {more : List (List Char)}

theorem header?_jobUuidLine (b : JobBody) :
    header? (jobUuidLine b.jobUuid) = some (jobUuidKey, b.jobUuid) := by
  rw [jobUuidLine, header?_append_cons (by decide),
    ← List.singleton_append, Python.strip_append_left (List.forall_mem_singleton.2 (by decide)),
    b.strip_jobUuid]
  rfl

/-- The `Job-UUID` of the block is found, whatever else is taken for a part of it. -/
theorem get?_jobUuidKey (hmore : ∀ line ∈ more, ':' ∉ line) :
    Dict.get? ((b.lines ++ more).foldl addLine []) jobUuidKey = some b.jobUuid := by
  rw [JobBody.lines, List.append_assoc, List.cons_append]
  refine get?_foldl_addLine (header?_jobUuidLine b) fun line hline => ?_
  rcases List.mem_append.1 hline with hline | hline
  · exact b.once line (List.mem_append_right _ hline)
  · rw [header?_eq_none (hmore line hline)]
    exact nofun

theorem notMem_splitlines (h : ∀ c ∈ s, isspace c = true) (hl : l ∈ splitlines s) : ':' ∉ l := by
  intro hc
  rcases Python.mem_of_mem_splitlinesFrom hl hc with hc | hc
  · exact absurd hc List.not_mem_nil
  · exact absurd (h ':' hc) (by decide)

theorem parseJobEvent_eq (h : eventParts (decode b.bytes) = parts) :
    parseJobEvent (decode b.bytes) =
      { jobUuid := (Dict.get? ((splitlines parts.1).foldl addLine []) jobUuidKey).getD []
        succeeded := decide ("+OK".toList <+: strip parts.2)
        detail := strip parts.2 } := by
  rw [parseJobEvent, h]

theorem lines_ne_nil (b : JobBody) : b.lines ≠ [] :=
  List.append_ne_nil_of_right_ne_nil _ (List.cons_ne_nil _ _)

/-- In a block with line feeds, the other line ends are not found. -/
theorem cut_crlf_of_lf (he : b.lineEnd = .lf) :
    cut ['\r', '\n', '\r', '\n'] (decode b.bytes) = (cut ['\r', '\n', '\r', '\n'] b.reply).map
      fun parts => (LineEnd.lf.join b.lines ++ '\n' :: parts.1, parts.2) := by
  have hdecode : decode b.bytes = (LineEnd.lf.join b.lines ++ ['\n']) ++ b.reply := by
    rw [b.decode_bytes, he, List.append_assoc]
    rfl
  have hcr : '\r' ∉ LineEnd.lf.join b.lines ++ ['\n'] := by
    rw [LineEnd.join, List.mem_append, List.mem_flatMap]
    rintro (⟨line, hline, hmem⟩ | hmem)
    · rcases List.mem_append.1 hmem with hmem | hmem
      · exact (b.isTextLine line hline).notMem.1 hmem
      · exact absurd hmem (by decide)
    · exact absurd hmem (by decide)
  rw [hdecode]
  refine (cut_append_of_notMem hcr b.reply).trans ?_
  simp

/-- The block is found if its lines do not end in line feeds, or the reply has none of
    the other line ends. -/
theorem eventParts_of_cut (h : b.lineEnd = .lf → cut ['\r', '\n', '\r', '\n'] b.reply = none) :
    ∃ block, eventParts (decode b.bytes) = (block, b.reply) ∧ splitlines block = b.lines := by
  have hlines : ∀ line ∈ b.lines, IsTextLine line := b.isTextLine
  rcases List.eq_nil_or_concat' b.lines with hnil | ⟨init, l, hconcat⟩
  · exact absurd hnil (lines_ne_nil b)
  rw [hconcat, List.forall_mem_append, List.forall_mem_singleton] at hlines
  refine ⟨b.lineEnd.join init ++ l, ?_, ?_⟩
  · have hcut : cut (b.lineEnd.chars ++ b.lineEnd.chars) (decode b.bytes) =
        some (b.lineEnd.join init ++ l, b.reply) := by
      rw [b.decode_bytes, ← cut_join hlines.2 hlines.1, ← hconcat]
      rfl
    rw [eventParts]
    rcases he : b.lineEnd with _ | _ <;> rw [he] at hcut
    · have hnone := cut_crlf_of_lf he
      rw [h he, Option.map_none] at hnone
      change cut ['\n', '\n'] (decode b.bytes) = _ at hcut
      rw [hnone, hcut]
      rfl
    · change cut ['\r', '\n', '\r', '\n'] (decode b.bytes) = _ at hcut
      rw [hcut]
  · rw [splitlines_join hlines.1, splitlines_of_isTextLine hlines.2, hconcat]

/-- The result is that of the event if the listener finds the reply. -/
theorem parseJobEvent_of_parts {block reply : List Char} (more : List (List Char))
    (h : eventParts (decode b.bytes) = (block, reply)) (hmore : ∀ line ∈ more, ':' ∉ line)
    (hblock : splitlines block = b.lines ++ more) (hreply : strip reply = strip b.reply) :
    parseJobEvent (decode b.bytes) = b.result := by
  rw [parseJobEvent_eq h, hblock, get?_jobUuidKey hmore, hreply]
  rfl

/-- Stripping removes whitespace only. -/
theorem countP_strip (s : List Char) :
    (strip s).countP (fun c => !isspace c) = s.countP fun c => !isspace c := by
  obtain ⟨v, w, hs, hv, hw⟩ := Python.exists_strip s
  have hzero : ∀ t : List Char, (∀ c ∈ t, isspace c = true) → t.countP (fun c => !isspace c) = 0 :=
    fun t ht => List.countP_eq_zero.2 fun c hc => by simp [ht c hc]
  conv_rhs => rw [hs, List.countP_append, List.countP_append, hzero v hv, hzero w hw]
  omega

/-- The listener takes the result from an event that is in it, if and only if it
    takes no part of the reply for a part of the block. -/
theorem parseJobEvent_iff (b : JobBody) :
    parseJobEvent (decode b.bytes) = b.result ↔ b.ReplyKept := by
  by_cases h : b.lineEnd = .lf → cut ['\r', '\n', '\r', '\n'] b.reply = none
  · obtain ⟨block, hparts, hblock⟩ := eventParts_of_cut h
    refine iff_of_true ?_ fun he parts hp => absurd hp (by rw [h he]; exact nofun)
    exact parseJobEvent_of_parts [] hparts nofun (by rwa [List.append_nil]) rfl
  · obtain ⟨he, hsome⟩ := Classical.not_imp.1 h
    obtain ⟨⟨pre, post⟩, hcut⟩ := Option.ne_none_iff_exists'.1 hsome
    obtain ⟨hreply, -⟩ := (cut_eq_some (by decide)).1 hcut
    have hparts : eventParts (decode b.bytes) = (LineEnd.lf.join b.lines ++ '\n' :: pre, post) := by
      rw [eventParts, cut_crlf_of_lf he, hcut]
      rfl
    constructor
    · -- What is before the line ends in the reply is missing in the result.
      rintro hresult - parts hp c hc
      obtain rfl := Option.some.inj (hcut.symm.trans hp)
      have hdetail : strip post = strip b.reply := by
        have hdetail := congrArg JobResult.detail hresult
        rwa [parseJobEvent_eq hparts] at hdetail
      have hcount := congrArg (List.countP fun c => !isspace c) hdetail
      rw [countP_strip, countP_strip, hreply, List.countP_append, List.countP_append] at hcount
      have hzero : pre.countP (fun c => !isspace c) = 0 := by omega
      simpa using List.countP_eq_zero.1 hzero c hc
    · intro hkept
      have hspace : ∀ c ∈ pre, isspace c = true := hkept he _ hcut
      refine parseJobEvent_of_parts (splitlines ('\n' :: pre)) hparts ?_ ?_ ?_
      · exact fun line => notMem_splitlines (List.forall_mem_cons.2 ⟨by decide, hspace⟩)
      · exact splitlines_join b.isTextLine _
      · rw [hreply, List.append_assoc, Python.strip_append_left hspace,
          Python.strip_append_left]
        simp only [List.forall_mem_cons]
        exact ⟨by decide, by decide, by decide, by decide, List.forall_mem_nil _⟩

end Yuviz.Campaigns
