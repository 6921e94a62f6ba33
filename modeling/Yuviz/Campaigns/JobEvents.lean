import Yuviz.Campaigns.Originate
import Yuviz.Python.Text

/-!
# Listening for the results of background jobs

FreeSWITCH reports the result of a call that the worker has originated as an
*event*: a frame whose body is a block of header lines again, an empty line, and
the reply of the command. `_listen_once` reads the events from its connection
one after the other, and passes the result in each to `on_job_complete`.

The stream is read through a `StreamReader`. What the listener reads depends on
the bytes only, and here it is in terms of them: the lines of a header block
(`readUntilBlankLine_of_blank`), also when the file ends within it
(`readUntilBlankLine_of_eof`).
-/

namespace Yuviz.Campaigns

open Python (Bytes Dict StreamReader decode strip splitlines intOfStr isspace lf cr)

abbrev Headers := Dict (List Char) (List Char)

/-- A line with a colon, at which it is partitioned. -/
def header? (line : List Char) : Option (List Char × List Char) :=
  (cut [':'] line).map fun (key, value) => (strip key, strip value)

def addLine (headers : Headers) (line : List Char) : Headers :=
  match header? line with
  | some (key, value) => headers.set key value
  | none => headers

/-- A line as it is read, decoded and without its end. -/
def decodedLine (line : Bytes) : List Char := (decode line).rdropWhile isLineEnd

/-- `_read_until_blank_line`, after the lines that are in `headers`; `none` if it raises. -/
def readUntilBlankLine (headers : Headers) (r : StreamReader) : Option (Headers × StreamReader) :=
  match _h : r.readline with
  | none => none
  | some (line, r') =>
    if _hblank : line = [] ∨ line = [lf] ∨ line = [cr, lf] then some (headers, r')
    else readUntilBlankLine (addLine headers (decodedLine line)) r'
termination_by r.all.length
decreasing_by exact StreamReader.length_lt_of_readline _h (not_or.1 _hblank).1

def contentLengthKey : List Char := "Content-Length".toList

def jobUuidKey : List Char := "Job-UUID".toList

/-- What `on_job_complete` is called with. -/
structure JobResult where
  jobUuid : List Char
  succeeded : Bool
  detail : List Char
  deriving DecidableEq

/-- The block and the reply in the body of an event. -/
def eventParts (body : List Char) : List Char × List Char :=
  match cut ['\r', '\n', '\r', '\n'] body with
  | some parts => parts
  | none => (cut ['\n', '\n'] body).getD (body, [])

/-- `_parse_job_event`. -/
def parseJobEvent (body : List Char) : JobResult :=
  let (headerPart, replyPart) := eventParts body
  let eventHeaders : Headers := (splitlines headerPart).foldl addLine []
  let replyText := strip replyPart
  { jobUuid := (eventHeaders.get? jobUuidKey).getD []
    succeeded := decide ("+OK".toList <+: replyText)
    detail := replyText }

/-- The body that `headers` announce; `none` if it is not there, or its length is
    not a number or negative. -/
def readBody (headers : Headers) (r : StreamReader) : Option (Bytes × StreamReader) := do
  let contentLength ← intOfStr (String.ofList ((headers.get? contentLengthKey).getD "0".toList))
  if contentLength = 0 then some ([], r)
  else if contentLength < 0 then none
  else r.readexactly contentLength.toNat

/-- The call of `on_job_complete` for a body: if there is a `Job-UUID` in it. -/
def jobCall (body : Bytes) : Option JobResult :=
  let result := parseJobEvent (decode body)
  if result.jobUuid = [] then none else some result

/-- One round of the loop of `_listen_once`: the call of `on_job_complete`, if any. -/
def listenRound (r : StreamReader) : Option (Option JobResult × StreamReader) := do
  let (headers, r) ← readUntilBlankLine [] r
  if headers = [] then return (none, r)
  let (body, r) ← readBody headers r
  return (jobCall body, r)

/-- The loop of `_listen_once` while the listener is not stopped: the calls of
    `on_job_complete` that are made before it raises, if it does within `n` rounds. -/
def listenOnce : ℕ → StreamReader → Option (List JobResult)
  | 0, _ => none
  | n + 1, r =>
    match listenRound r with
    | none => some []
    | some (call, r) => (listenOnce n r).map (call.toList ++ ·)

/-! ### Header lines -/

variable {headers : Headers} {key value line : List Char} {lines before after : List (List Char)}
  {r r' : StreamReader} {l rest : Bytes}

theorem get?_addLine_of_ne (h : (header? line).map Prod.fst ≠ some key) :
    (addLine headers line).get? key = headers.get? key := by
  rw [addLine]
  rcases hline : header? line with _ | ⟨k, v⟩
  · rfl
  · have hne : key ≠ k := by
      rintro rfl
      exact h (by rw [hline]; rfl)
    rw [Dict.get?_set, if_neg hne]

theorem get?_foldl_addLine_of_ne (h : ∀ line ∈ lines, (header? line).map Prod.fst ≠ some key) :
    Dict.get? (lines.foldl addLine headers) key = headers.get? key := by
  induction lines generalizing headers with
  | nil => rfl
  | cons line lines ih =>
    rw [List.forall_mem_cons] at h
    rw [List.foldl_cons, ih h.2, get?_addLine_of_ne h.1]

/-- A header is found that no later line has again. -/
theorem get?_foldl_addLine (hline : header? line = some (key, value))
    (h : ∀ line ∈ after, (header? line).map Prod.fst ≠ some key) :
    Dict.get? ((before ++ line :: after).foldl addLine headers) key = some value := by
  rw [List.foldl_append, List.foldl_cons, get?_foldl_addLine_of_ne h, addLine, hline,
    Dict.get?_set, if_pos rfl]

theorem header?_eq_none (h : ':' ∉ line) : header? line = none := by
  rw [header?, (cut_eq_none (List.cons_ne_nil ':' [])).2, Option.map_none]
  rwa [List.singleton_infix_iff]

theorem header?_append_cons (h : ':' ∉ key) (value : List Char) :
    header? (key ++ ':' :: value) = some (strip key, strip value) := by
  rw [header?, cut_singleton h, Option.map_some]

/-- `:`. -/
def colon : UInt8 := 58

/-- A header line, by its bytes. -/
def headerOfBytes? (line : Bytes) : Option (List Char × List Char) :=
  (cut [colon] line).map fun (key, value) => (strip (decode key), strip (decode value))

theorem cut_colon_eq_some {k v : Bytes} :
    cut [colon] l = some (k, v) ↔ l = k ++ colon :: v ∧ colon ∉ k := by
  rw [cut_eq_some (List.cons_ne_nil colon []), List.dropLast_singleton, List.append_nil,
    List.singleton_infix_iff, List.append_assoc, List.singleton_append]

theorem cut_colon_eq_none : cut [colon] l = none ↔ colon ∉ l := by
  rw [cut_eq_none (List.cons_ne_nil colon []), List.singleton_infix_iff]

theorem colon_notMem_decode (h : colon ∉ l) : ':' ∉ decode l :=
  fun hmem => h (Python.mem_of_mem_decode (by decide) (by decide) hmem)

theorem isspace_of_isLineEnd {c : Char} (h : isLineEnd c = true) : isspace c = true := by
  rw [isLineEnd, Bool.or_eq_true, decide_eq_true_eq, decide_eq_true_eq] at h
  rcases h with rfl | rfl <;> decide

/-- A line can be taken apart before it is decoded. -/
theorem header?_decodedLine (l : Bytes) : header? (decodedLine l) = headerOfBytes? l := by
  obtain ⟨t, ht, hends⟩ : ∃ t, decodedLine l ++ t = decode l ∧ ∀ c ∈ t, isLineEnd c = true :=
    ⟨(decode l).rtakeWhile isLineEnd, List.rdropWhile_append_rtakeWhile,
      fun c hc => List.mem_rtakeWhile_imp hc⟩
  rw [headerOfBytes?]
  rcases hcut : cut [colon] l with _ | ⟨k, v⟩
  · have hnot := colon_notMem_decode (cut_colon_eq_none.1 hcut)
    rw [← ht] at hnot
    exact header?_eq_none fun hmem => hnot (List.mem_append_left t hmem)
  · obtain ⟨rfl, hk⟩ := cut_colon_eq_some.1 hcut
    have hnot := colon_notMem_decode hk
    rw [Python.decode_append_cons (by decide)] at ht
    change decodedLine (k ++ colon :: v) ++ t = decode k ++ ':' :: decode v at ht
    -- The line ends behind its colon.
    rcases List.append_eq_append_iff.1 ht with ⟨w, -, rfl⟩ | ⟨w, hline, hw⟩
    · exact absurd (hends ':' (List.mem_append_right w List.mem_cons_self)) (by decide)
    · rcases w with _ | ⟨c, w⟩
      · rw [List.nil_append] at hw
        exact absurd (hends ':' (hw ▸ List.mem_cons_self)) (by decide)
      · obtain ⟨rfl, hv⟩ := List.cons.inj hw
        rw [hline, header?_append_cons hnot, Option.map_some]
        dsimp only
        rw [hv, List.append_eq,
          Python.strip_append_right fun c hc => isspace_of_isLineEnd (hends c hc)]

/-- The line end does not matter. -/
theorem headerOfBytes?_append_lf (l : Bytes) : headerOfBytes? (l ++ [lf]) = headerOfBytes? l := by
  rw [headerOfBytes?, headerOfBytes?]
  rcases hcut : cut [colon] l with _ | ⟨k, v⟩
  · rw [cut_colon_eq_none.2]
    have := cut_colon_eq_none.1 hcut
    simpa [colon, lf] using this
  · obtain ⟨rfl, hk⟩ := cut_colon_eq_some.1 hcut
    rw [cut_colon_eq_some.2 ⟨List.append_assoc .., hk⟩, Option.map_some, Option.map_some]
    dsimp only
    rw [List.append_eq, Python.decode_append_cons (by decide)]
    exact congrArg some (congrArg _ (Python.strip_concat (by decide)))

/-! ### Reading a header block -/

/-- A line of a header block, without the line feed at its end. -/
structure IsHeaderLine (l : Bytes) : Prop where
  lf_notMem : lf ∉ l
  ne_nil : l ≠ []
  ne_cr : l ≠ [cr]
  length_le : l.length ≤ StreamReader.limit

/-- The lines, each with its end. -/
def unlines (lines : List Bytes) : Bytes := lines.flatMap (· ++ [lf])

/-- What the listener makes of a line of a header block. -/
def lineText (l : Bytes) : List Char := decodedLine (l ++ [lf])

theorem header?_lineText (l : Bytes) : header? (lineText l) = headerOfBytes? l :=
  (header?_decodedLine _).trans (headerOfBytes?_append_lf l)

theorem readUntilBlankLine_eq (h : r.readline = some (l, r')) :
    readUntilBlankLine headers r =
      if l = [] ∨ l = [lf] ∨ l = [cr, lf] then some (headers, r')
      else readUntilBlankLine (addLine headers (decodedLine l)) r' := by
  rw [readUntilBlankLine]
  split
  · rename_i hnone
    exact absurd (hnone.symm.trans h) nofun
  · rename_i l' r'' hsome
    obtain ⟨rfl, rfl⟩ := Prod.mk.inj (Option.some.inj (hsome.symm.trans h))
    rfl

theorem readUntilBlankLine_of_lines {ls : List Bytes} (headers : Headers)
    (h : r.all = unlines ls ++ rest)
    (hls : ∀ l ∈ ls, IsHeaderLine l) :
    ∃ r', readUntilBlankLine headers r =
        readUntilBlankLine ((ls.map lineText).foldl addLine headers) r' ∧ r'.all = rest := by
  induction ls generalizing headers r with
  | nil => exact ⟨r, rfl, h⟩
  | cons l ls ih =>
    rw [List.forall_mem_cons] at hls
    have hall : r.all = l ++ lf :: (unlines ls ++ rest) := by
      rw [h]
      simp [unlines]
    obtain ⟨r₁, hread, h₁⟩ := StreamReader.readline_of_append hall hls.1.lf_notMem hls.1.length_le
    obtain ⟨r', hread', hr'⟩ := ih _ h₁ hls.2
    have hnot : ¬(l ++ [lf] = [] ∨ l ++ [lf] = [lf] ∨ l ++ [lf] = [cr, lf]) := by
      have hcr : l ++ [lf] = [cr] ++ [lf] ↔ l = [cr] := List.append_left_inj _
      change ¬(_ ∨ _ ∨ l ++ [lf] = [cr] ++ [lf])
      rw [hcr]
      simp [hls.1.ne_nil, hls.1.ne_cr]
    exact ⟨r', by rw [readUntilBlankLine_eq hread, if_neg hnot]; exact hread', hr'⟩

/-- A header block is read up to the empty line. -/
theorem readUntilBlankLine_of_blank {ls : List Bytes} {blank : Bytes} (headers : Headers)
    (h : r.all = unlines ls ++ (blank ++ lf :: rest)) (hls : ∀ l ∈ ls, IsHeaderLine l)
    (hblank : blank = [] ∨ blank = [cr]) :
    ∃ r', readUntilBlankLine headers r = some ((ls.map lineText).foldl addLine headers, r') ∧
      r'.all = rest := by
  obtain ⟨r₁, hread₁, h₁⟩ := readUntilBlankLine_of_lines headers h hls
  obtain ⟨r', hread, hr'⟩ := StreamReader.readline_of_append h₁
    (by rcases hblank with rfl | rfl <;> decide)
    (by rcases hblank with rfl | rfl <;> decide)
  refine ⟨r', ?_, hr'⟩
  rw [hread₁, readUntilBlankLine_eq hread, if_pos]
  rcases hblank with rfl | rfl
  · exact .inr (.inl rfl)
  · exact .inr (.inr rfl)

/-- A header block in which the file ends is read like one that is complete. -/
theorem readUntilBlankLine_of_eof {ls : List Bytes} (headers : Headers)
    (h : r.all = unlines ls ++ l) (hls : ∀ l ∈ ls, IsHeaderLine l) (hl : lf ∉ l)
    (hlength : l.length ≤ StreamReader.limit) :
    ∃ r', readUntilBlankLine headers r =
        some (addLine ((ls.map lineText).foldl addLine headers) (decodedLine l), r') ∧
      r'.all = [] := by
  obtain ⟨r₁, hread₁, rfl⟩ := readUntilBlankLine_of_lines headers h hls
  obtain ⟨r₂, hread₂, h₂⟩ := StreamReader.readline_of_notMem hl hlength
  rw [hread₁, readUntilBlankLine_eq hread₂]
  by_cases hnil : r₁.all = []
  · exact ⟨r₂, by rw [if_pos (.inl hnil), hnil]; rfl, h₂⟩
  · -- What is left is a line, and after it nothing is.
    have hnot : ¬(r₁.all = [] ∨ r₁.all = [lf] ∨ r₁.all = [cr, lf]) := by
      rintro (h | h | h)
      · exact hnil h
      · exact hl (h ▸ by simp)
      · exact hl (h ▸ by simp)
    obtain ⟨r', hread, hr'⟩ :=
      StreamReader.readline_of_notMem (r := r₂) (by simp [h₂]) (by simp [h₂])
    rw [h₂] at hread
    exact ⟨r', by rw [if_neg hnot, readUntilBlankLine_eq hread, if_pos (.inl rfl)], hr'⟩

/-- Where a stream that begins with lines ends: within one of them, or behind them. -/
theorem prefix_unlines_append {t x : Bytes} {ls : List Bytes} (h : t <+: unlines ls ++ x) :
    (∃ ls' l p, ls' ++ [l] <+: ls ∧ p <+: l ∧ t = unlines ls' ++ p) ∨
      ∃ t', t' <+: x ∧ t = unlines ls ++ t' := by
  induction ls generalizing t with
  | nil => exact .inr ⟨t, h, rfl⟩
  | cons l ls ih =>
    have hcons : unlines (l :: ls) ++ x = l ++ lf :: (unlines ls ++ x) := by simp [unlines]
    rw [hcons] at h
    rcases prefix_append_cons h with hl | ⟨t', ht', rfl⟩
    · exact .inl ⟨[], l, t, ⟨ls, rfl⟩, hl, rfl⟩
    · rcases ih ht' with ⟨ls', l', p, hls', hp, rfl⟩ | ⟨t'', ht'', rfl⟩
      · refine .inl ⟨l :: ls', l', p, List.cons_prefix_cons.2 ⟨rfl, hls'⟩, hp, ?_⟩
        simp [unlines]
      · exact .inr ⟨t'', ht'', by simp [unlines]⟩

end Yuviz.Campaigns
