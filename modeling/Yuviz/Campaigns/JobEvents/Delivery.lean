import Mathlib
import Yuviz.Campaigns.JobEvents.Body

/-!
# The stream of events

After the subscription, FreeSWITCH sends one event after the other until the
connection ends, which may be within an event (`JobStream`). However the bytes
arrive, the listener reports the events that are complete, in order
(`listenOnce_append`). It raises when the connection ends behind the colon of the
`Content-Length` of an event, since the event then lacks its length, or bytes that its
length announces (`listenRound_of_cut`). When it ends elsewhere, `readline` returns
an empty line at once, for ever, and the listener goes on (`listenOnce_of_short`).
-/

namespace Yuviz.Campaigns

open Python (Bytes Dict StreamReader decode encodeAscii strip isspace intOfStr lf cr)

/-- What precedes the line feed at the end of a line. -/
def LineEnd.cr : LineEnd → Bytes
  | .lf => []
  | .crlf => [Python.cr]

/-- An event: its body, and the lines of its envelope before and after the
    `Content-Length`, without the line feed at their ends. -/
structure JobEvent where
  body : JobBody
  lineEnd : LineEnd
  before : List Bytes
  after : List Bytes
  isHeaderLine : ∀ l ∈ before ++ after, IsHeaderLine l
  /-- There is one `Content-Length`. -/
  once : ∀ l ∈ before ++ after, (headerOfBytes? l).map Prod.fst ≠ some contentLengthKey
  length_lt : body.bytes.length < 2 ^ 64

namespace JobEvent

/-- The length of the body, in the envelope. -/
def value (e : JobEvent) : Bytes :=
  encodeAscii (' ' :: (toString e.body.bytes.length).toList) ++ e.lineEnd.cr

def lengthLine (e : JobEvent) : Bytes := encodeAscii contentLengthKey ++ colon :: e.value

/-- The lines of the envelope. -/
def envelope (e : JobEvent) : List Bytes := e.before ++ e.lengthLine :: e.after

/-- The bytes of an event. -/
def encode (e : JobEvent) : Bytes := unlines e.envelope ++ (e.lineEnd.cr ++ lf :: e.body.bytes)

/-- The beginning of an event, up to the colon of its `Content-Length`. -/
def beginning (e : JobEvent) : Bytes :=
  unlines e.before ++ (encodeAscii contentLengthKey ++ [colon])

end JobEvent

/-- What FreeSWITCH sends: events, and a part of one in which the connection ends.
    If it ends between two events, this part is empty. -/
structure JobStream where
  events : List JobEvent
  last : JobEvent
  tail : Bytes
  tail_prefix : tail <+: last.encode
  tail_ne : tail ≠ last.encode

def JobStream.bytes (s : JobStream) : Bytes := s.events.flatMap JobEvent.encode ++ s.tail

/-- The listener calls `on_job_complete` once for every event that is complete, in
    order, with its result, and then raises. -/
def JobStream.Delivered (s : JobStream) : Prop :=
  ∀ r : StreamReader, r.all = s.bytes →
    ∃ n, listenOnce n r = some (s.events.map fun e => e.body.result)

/-! ### The length of a body -/

variable {e : JobEvent} {b : JobBody} {r : StreamReader} {n : ℕ} {l v rest : Bytes} {d : List Char}

theorem bytes_ne_nil (b : JobBody) : b.bytes ≠ [] := by
  intro hnil
  have hdecode := b.decode_bytes
  rw [hnil] at hdecode
  have hends : b.lineEnd.chars ≠ [] := by cases b.lineEnd <;> exact List.cons_ne_nil _ _
  exact hends (List.append_eq_nil_iff.1 (List.append_eq_nil_iff.1 hdecode.symm).2).1

theorem exists_toDigits (h : 0 < n) : ∃ c d, Nat.toDigits 10 n = c :: d ∧ 48 < c.toNat := by
  induction n using Nat.strong_induction_on with
  | _ n ih =>
    rw [Nat.toDigits_eq_if (by decide)]
    split_ifs with hlt
    · refine ⟨_, [], rfl, ?_⟩
      have hdigit := Nat.toNat_digitChar_sub_48_of_lt_ten hlt
      omega
    · obtain ⟨c, d, hd, hc⟩ := ih (n / 10) (by omega) (by omega)
      exact ⟨c, _, by rw [hd]; rfl, hc⟩

theorem isDigit_of_isPrefix (h : d <+: Nat.toDigits 10 n) : ∀ c ∈ d, c.isDigit := fun _ hc =>
  Nat.isDigit_of_mem_toDigits (by decide) (by decide) (h.subset hc)

theorem length_toDigits_le (h : n < 2 ^ 64) : (Nat.toDigits 10 n).length ≤ 20 :=
  (Nat.length_toDigits_le_iff (by decide) (by decide)).2 (h.trans (by decide))

/-- A number that is cut off is none any more, or not zero. -/
theorem intOfStr_of_isPrefix (h : d <+: Nat.toDigits 10 n) (hpos : 0 < n) (hlt : n < 2 ^ 64) :
    intOfStr (String.ofList d) = none ∨ ∃ m : ℕ, intOfStr (String.ofList d) = some m ∧ 0 < m := by
  rcases d with _ | ⟨c, d⟩
  · exact .inl rfl
  · obtain ⟨c', d', hd', hc'⟩ := exists_toDigits hpos
    obtain rfl := (List.cons_prefix_cons.1 (hd' ▸ h)).1
    refine .inr ⟨_, Python.intOfStr_of_forall_isDigit (List.cons_ne_nil _ _) (isDigit_of_isPrefix h)
      ((h.length_le.trans (length_toDigits_le hlt)).trans (by decide)), ?_⟩
    rw [Nat.ofDigitChars_cons, Nat.ofDigitChars_eq_ofDigitChars_zero]
    have hpow : 0 < 10 ^ d.length := by positivity
    have : 0 < 10 ^ d.length * (10 * 0 + (c.toNat - '0'.toNat)) :=
      Nat.mul_pos hpow (by change 0 < 10 * 0 + (c.toNat - 48); omega)
    omega

/-- The digits of the length. -/
theorem decode_value (h : d <+: Nat.toDigits 10 n) (lineEnd : LineEnd) :
    strip (decode (encodeAscii (' ' :: d) ++ lineEnd.cr)) = d := by
  have hdigits := isDigit_of_isPrefix h
  have hascii : ∀ c ∈ ' ' :: d, c.toNat < 128 := by
    refine List.forall_mem_cons.2 ⟨by decide, fun c hc => ?_⟩
    have := (Python.isDigit_bounds (hdigits c hc)).2
    omega
  have hstrip : strip (' ' :: d) = d := by
    rw [← List.singleton_append, Python.strip_append_left (List.forall_mem_singleton.2 (by decide)),
      Python.strip_of_forall_not fun c hc => Python.isspace_of_isDigit (hdigits c hc)]
  cases lineEnd with
  | lf => rw [LineEnd.cr, List.append_nil, Python.decode_encodeAscii hascii, hstrip]
  | crlf =>
    rw [LineEnd.cr, Python.decode_append_cons (by decide), Python.decode_encodeAscii hascii]
    exact (Python.strip_concat (by decide)).trans hstrip

theorem exists_of_isPrefix_value (h : v <+: e.value) :
    ∃ d, d <+: Nat.toDigits 10 e.body.bytes.length ∧ strip (decode v) = d := by
  rw [JobEvent.value, Nat.toString_eq_repr, Nat.toList_repr] at h
  have hcases : v = encodeAscii (' ' :: Nat.toDigits 10 e.body.bytes.length) ++ e.lineEnd.cr ∨
      v <+: encodeAscii (' ' :: Nat.toDigits 10 e.body.bytes.length) := by
    cases he : e.lineEnd with
    | lf =>
      rw [he, LineEnd.cr, List.append_nil] at h
      exact .inr h
    | crlf =>
      rw [he, LineEnd.cr] at h
      exact List.prefix_concat_iff.1 h
  rcases hcases with rfl | h
  · exact ⟨_, List.prefix_refl _, decode_value (List.prefix_refl _) _⟩
  · obtain ⟨d, hd, rfl⟩ := List.prefix_map_iff.1 h
    rcases d with _ | ⟨c, d⟩
    · exact ⟨[], List.nil_prefix, rfl⟩
    · obtain ⟨rfl, hd'⟩ := List.cons_prefix_cons.1 hd
      have hvalue := decode_value hd' .lf
      rw [LineEnd.cr, List.append_nil] at hvalue
      exact ⟨d, hd', hvalue⟩

/-- What is read as the length of a body. -/
theorem headerOfBytes?_lengthLine (v : Bytes) :
    headerOfBytes? (encodeAscii contentLengthKey ++ colon :: v) =
      some (contentLengthKey, strip (decode v)) := by
  rw [headerOfBytes?, cut_colon_eq_some.2 ⟨rfl, by decide⟩]
  rfl

/-- A part of a line has no other name than the line. -/
theorem name_of_isPrefix {p : Bytes} {key : List Char} (h : p <+: l)
    (hp : (headerOfBytes? p).map Prod.fst = some key) :
    (headerOfBytes? l).map Prod.fst = some key := by
  obtain ⟨t, rfl⟩ := h
  rw [headerOfBytes?] at hp ⊢
  rcases hcut : cut [colon] p with _ | ⟨k, v⟩
  · rw [hcut] at hp
    exact absurd hp (by simp)
  · obtain ⟨rfl, hk⟩ := cut_colon_eq_some.1 hcut
    rw [cut_colon_eq_some.2 ⟨List.append_assoc .., hk⟩]
    rwa [hcut] at hp

theorem lf_notMem_value (e : JobEvent) : lf ∉ e.value := by
  rw [JobEvent.value, Nat.toString_eq_repr, Nat.toList_repr, List.mem_append, not_or]
  constructor
  · intro hmem
    obtain ⟨c, hc, heq⟩ := List.mem_map.1 hmem
    rcases List.mem_cons.1 hc with rfl | hc
    · exact absurd heq (by decide)
    · have hdigit := Python.isDigit_bounds (isDigit_of_isPrefix (List.prefix_refl _) c hc)
      have hmod := congrArg UInt8.toNat heq
      rw [UInt8.toNat_ofNat', show lf.toNat = 10 from rfl] at hmod
      omega
  · cases e.lineEnd <;> decide

theorem length_value_le (e : JobEvent) : e.value.length ≤ 22 := by
  have hdigits := length_toDigits_le e.length_lt
  have hcr : e.lineEnd.cr.length ≤ 1 := by cases e.lineEnd <;> decide
  rw [JobEvent.value, Nat.toString_eq_repr, Nat.toList_repr, List.length_append, encodeAscii,
    List.length_map, List.length_cons]
  omega

theorem length_lengthLine (e : JobEvent) : e.lengthLine.length = 15 + e.value.length := by
  have hkey : (encodeAscii contentLengthKey).length = 14 := by decide
  rw [JobEvent.lengthLine, List.length_append, List.length_cons, hkey]
  omega

theorem isHeaderLine_lengthLine (e : JobEvent) : IsHeaderLine e.lengthLine where
  lf_notMem := by
    rw [JobEvent.lengthLine, List.mem_append, List.mem_cons, not_or, not_or]
    exact ⟨by decide, by decide, lf_notMem_value e⟩
  ne_nil := List.append_ne_nil_of_left_ne_nil (by decide) _
  ne_cr := fun heq => by
    have hlength := congrArg List.length heq
    rw [length_lengthLine, List.length_singleton] at hlength
    omega
  length_le := by
    have hvalue := length_value_le e
    rw [length_lengthLine, StreamReader.limit]
    omega

theorem isHeaderLine_of_subset {ls : List Bytes} (hls : ls ⊆ e.after) :
    ∀ l ∈ e.before ++ e.lengthLine :: ls, IsHeaderLine l := by
  intro l hl
  rcases List.mem_append.1 hl with hl | hl
  · exact e.isHeaderLine l (List.mem_append_left _ hl)
  · rcases List.mem_cons.1 hl with rfl | hl
    · exact isHeaderLine_lengthLine e
    · exact e.isHeaderLine l (List.mem_append_right _ (hls hl))

theorem encode_eq (e : JobEvent) : e.encode = e.beginning ++ (e.value ++
    lf :: (unlines e.after ++ (e.lineEnd.cr ++ lf :: e.body.bytes))) := by
  simp [JobEvent.encode, JobEvent.beginning, JobEvent.envelope, JobEvent.lengthLine, unlines]

/-! ### One event -/

variable {headers : Headers} {r₁ : StreamReader}

theorem readBody_eq_none (hget : headers.get? contentLengthKey = some d)
    (hd : intOfStr (String.ofList d) = none ∨
      ∃ m : ℕ, intOfStr (String.ofList d) = some m ∧ r.all.length < m) :
    readBody headers r = none := by
  rw [readBody, hget, Option.getD_some]
  rcases hd with hnone | ⟨m, hm, hlt⟩
  · rw [hnone]
    rfl
  · have hne : (m : ℤ) ≠ 0 := by omega
    have hpos : ¬(m : ℤ) < 0 := by omega
    rw [hm]
    change (if (m : ℤ) = 0 then _ else if (m : ℤ) < 0 then _ else _) = _
    rw [if_neg hne, if_neg hpos, Int.toNat_natCast, StreamReader.readexactly_eq_none hlt]

theorem readBody_eq_some {data : Bytes} (hget : headers.get? contentLengthKey = some d)
    (hd : intOfStr (String.ofList d) = some (data.length : ℤ)) (hne : data ≠ [])
    (h : r.all = data ++ rest) : ∃ r', readBody headers r = some (data, r') ∧ r'.all = rest := by
  have hpos := List.length_pos_of_ne_nil hne
  have hzero : (data.length : ℤ) ≠ 0 := by omega
  have hneg : ¬(data.length : ℤ) < 0 := by omega
  obtain ⟨r', hread, hr'⟩ := StreamReader.readexactly_of_append h
  refine ⟨r', ?_, hr'⟩
  rw [readBody, hget, Option.getD_some, hd]
  change (if (data.length : ℤ) = 0 then _ else if (data.length : ℤ) < 0 then _ else _) = _
  rw [if_neg hzero, if_neg hneg, Int.toNat_natCast, hread]

theorem ne_nil_of_get? (hget : headers.get? contentLengthKey = some d) : headers ≠ [] := by
  rintro rfl
  exact absurd hget nofun

theorem listenRound_eq (hread : readUntilBlankLine [] r = some (headers, r₁)) (hne : headers ≠ []) :
    listenRound r = (readBody headers r₁).map fun read => (jobCall read.1, read.2) := by
  rw [listenRound, hread]
  change (if headers = [] then _ else _) = _
  rw [if_neg hne]
  rcases readBody headers r₁ with _ | ⟨body, r₂⟩ <;> rfl

/-- The length in the envelope is read, whatever is read after it. -/
theorem get?_contentLengthKey {ls : List Bytes} (hls : ls ⊆ e.after) (headers : Headers) :
    Dict.get? (((e.before ++ e.lengthLine :: ls).map lineText).foldl addLine headers)
      contentLengthKey = some (Nat.toDigits 10 e.body.bytes.length) := by
  have hvalue : header? (lineText e.lengthLine) =
      some (contentLengthKey, Nat.toDigits 10 e.body.bytes.length) := by
    rw [header?_lineText, JobEvent.lengthLine, headerOfBytes?_lengthLine, JobEvent.value,
      Nat.toString_eq_repr, Nat.toList_repr, decode_value (List.prefix_refl _)]
  rw [List.map_append, List.map_cons]
  refine get?_foldl_addLine hvalue fun line hline => ?_
  obtain ⟨l, hl, rfl⟩ := List.mem_map.1 hline
  rw [header?_lineText]
  exact e.once l (List.mem_append_right _ (hls hl))

theorem intOfStr_length (e : JobEvent) :
    intOfStr (String.ofList (Nat.toDigits 10 e.body.bytes.length)) =
      some (e.body.bytes.length : ℤ) := by
  have hlength : (Nat.toDigits 10 e.body.bytes.length).length ≤ Python.maxStrDigits :=
    (length_toDigits_le e.length_lt).trans (by decide)
  rw [Python.intOfStr_of_forall_isDigit Nat.toDigits_ne_nil
    (isDigit_of_isPrefix (List.prefix_refl _)) hlength, Nat.ofDigitChars_ten_toDigits]

/-- An event that is complete is read, and no byte behind it. -/
theorem listenRound_of_encode (h : r.all = e.encode ++ rest) :
    ∃ r', listenRound r = some (jobCall e.body.bytes, r') ∧ r'.all = rest := by
  have hall : r.all = unlines e.envelope ++ (e.lineEnd.cr ++ lf :: (e.body.bytes ++ rest)) := by
    rw [h, JobEvent.encode]
    simp
  obtain ⟨r₁, hread, h₁⟩ := readUntilBlankLine_of_blank [] hall
    (isHeaderLine_of_subset (List.Subset.refl e.after))
    (by cases e.lineEnd <;> simp [LineEnd.cr])
  have hget := get?_contentLengthKey (List.Subset.refl e.after) []
  obtain ⟨r', hbody, hr'⟩ := readBody_eq_some hget (intOfStr_length e) (bytes_ne_nil e.body) h₁
  refine ⟨r', ?_, hr'⟩
  rw [listenRound_eq hread (ne_nil_of_get? hget), JobEvent.envelope, hbody, Option.map_some]

/-- A part of a header line, in which the file ends. -/
theorem isPart_of_isPrefix {p : Bytes} (hl : IsHeaderLine l) (hp : p <+: l) :
    lf ∉ p ∧ p.length ≤ StreamReader.limit :=
  ⟨fun hmem => hl.lf_notMem (hp.subset hmem), hp.length_le.trans hl.length_le⟩

/-- The end of the file in an event that has no length yet: nothing is reported, and
    the next round begins at the end of the file. -/
theorem listenRound_of_short (h : r.all <+: e.encode) (hshort : ¬e.beginning <+: r.all) :
    ∃ r', listenRound r = some (none, r') ∧ r'.all = [] := by
  have hbefore : r.all <+: unlines e.before ++ encodeAscii contentLengthKey := by
    have hencode : e.beginning <+: e.encode := encode_eq e ▸ List.prefix_append _ _
    rcases List.prefix_or_prefix_of_prefix h hencode with hp | hp
    · rw [JobEvent.beginning, ← List.append_assoc, List.prefix_concat_iff] at hp
      refine hp.resolve_left fun heq => hshort ?_
      rw [heq, JobEvent.beginning, List.append_assoc]
    · exact absurd hp hshort
  obtain ⟨ls, p, hall, hls, hp, hlength, hname⟩ : ∃ ls p, r.all = unlines ls ++ p ∧
      ls ⊆ e.before ∧ lf ∉ p ∧ p.length ≤ StreamReader.limit ∧
      (headerOfBytes? p).map Prod.fst ≠ some contentLengthKey := by
    rcases prefix_unlines_append hbefore with ⟨ls, l, p, hls, hp, hall⟩ | ⟨p, hp, hall⟩
    · have hmem : l ∈ e.before ++ e.after := List.mem_append_left _ (hls.subset (by simp))
      obtain ⟨hlf, hlength⟩ := isPart_of_isPrefix (e.isHeaderLine l hmem) hp
      exact ⟨ls, p, hall, ((List.prefix_append ls [l]).trans hls).subset, hlf, hlength,
        fun hname => e.once l hmem (name_of_isPrefix hp hname)⟩
    · -- There is no colon yet.
      refine ⟨e.before, p, hall, List.Subset.refl _, fun hmem => ?_, ?_, fun hname => ?_⟩
      · exact absurd (hp.subset hmem) (by decide)
      · exact hp.length_le.trans (by decide)
      · exact absurd (name_of_isPrefix hp hname) (by decide)
  obtain ⟨r', hread, hr'⟩ := readUntilBlankLine_of_eof [] hall
    (fun l hl => e.isHeaderLine l (List.mem_append_left _ (hls hl))) hp hlength
  have hget : Dict.get? (addLine ((ls.map lineText).foldl addLine []) (decodedLine p))
      contentLengthKey = none := by
    rw [get?_addLine_of_ne (by rwa [header?_decodedLine]), get?_foldl_addLine_of_ne]
    · rfl
    · intro line hline
      obtain ⟨l, hl, rfl⟩ := List.mem_map.1 hline
      rw [header?_lineText]
      exact e.once l (List.mem_append_left _ (hls hl))
  by_cases hnil : addLine ((ls.map lineText).foldl addLine []) (decodedLine p) = []
  · refine ⟨r', ?_, hr'⟩
    rw [listenRound, hread, hnil]
    rfl
  · have hbody : readBody (addLine ((ls.map lineText).foldl addLine []) (decodedLine p)) r' =
        some ([], r') := by
      rw [readBody, hget]
      rfl
    refine ⟨r', ?_, hr'⟩
    rw [listenRound_eq hread hnil, hbody]
    rfl

/-- The end of the file behind a length: there are no bytes for a body of this length. -/
theorem listenRound_of_lines {ls : List Bytes} {p : Bytes} (hls : ls ⊆ e.after)
    (hall : r.all = unlines (e.before ++ e.lengthLine :: ls) ++ p) (hp : lf ∉ p)
    (hlength : p.length ≤ StreamReader.limit)
    (hname : (headerOfBytes? p).map Prod.fst ≠ some contentLengthKey) : listenRound r = none := by
  obtain ⟨r', hread, hr'⟩ := readUntilBlankLine_of_eof [] hall (isHeaderLine_of_subset hls) hp
    hlength
  have hget := get?_contentLengthKey hls []
  rw [← header?_decodedLine] at hname
  rw [← get?_addLine_of_ne hname] at hget
  have hlt : r'.all.length < e.body.bytes.length := by
    rw [hr']
    exact List.length_pos_of_ne_nil (bytes_ne_nil e.body)
  rw [listenRound_eq hread (ne_nil_of_get? hget),
    readBody_eq_none hget (.inr ⟨_, intOfStr_length e, hlt⟩), Option.map_none]

/-- The end of the file in the length: what is read of it is no number, or not zero. -/
theorem listenRound_of_isPrefix_value
    (hall : r.all = unlines e.before ++ (encodeAscii contentLengthKey ++ colon :: v))
    (hv : v <+: e.value) : listenRound r = none := by
  have hprefix : encodeAscii contentLengthKey ++ colon :: v <+: e.lengthLine :=
    (List.prefix_append_right_inj _).2 (List.cons_prefix_cons.2 ⟨rfl, hv⟩)
  obtain ⟨hlf, hlength⟩ := isPart_of_isPrefix (isHeaderLine_lengthLine e) hprefix
  obtain ⟨r', hread, hr'⟩ := readUntilBlankLine_of_eof [] hall
    (fun l hl => e.isHeaderLine l (List.mem_append_left _ hl)) hlf hlength
  obtain ⟨d, hd, hvalue⟩ := exists_of_isPrefix_value hv
  have hheader : header? (decodedLine (encodeAscii contentLengthKey ++ colon :: v)) =
      some (contentLengthKey, d) := by
    rw [header?_decodedLine, headerOfBytes?_lengthLine, hvalue]
  rw [addLine, hheader] at hread
  have hget : Dict.get? (Dict.set ((e.before.map lineText).foldl addLine []) contentLengthKey d)
      contentLengthKey = some d := by rw [Dict.get?_set, if_pos rfl]
  have hpos := List.length_pos_of_ne_nil (bytes_ne_nil e.body)
  have hlength : intOfStr (String.ofList d) = none ∨
      ∃ m : ℕ, intOfStr (String.ofList d) = some (m : ℤ) ∧ r'.all.length < m := by
    rw [hr']
    exact intOfStr_of_isPrefix hd hpos e.length_lt
  rw [listenRound_eq hread (ne_nil_of_get? hget), readBody_eq_none hget hlength, Option.map_none]

/-- The end of the file in an event of which the length, or a part of it, is read. -/
theorem listenRound_of_cut (h : r.all <+: e.encode) (hne : r.all ≠ e.encode)
    (hbeginning : e.beginning <+: r.all) : listenRound r = none := by
  obtain ⟨t, hall⟩ := hbeginning
  rw [← hall, encode_eq, List.prefix_append_right_inj] at h
  rcases prefix_append_cons h with hv | ⟨t₁, ht₁, rfl⟩
  · -- Within the length.
    exact listenRound_of_isPrefix_value (by rw [← hall, JobEvent.beginning]; simp) hv
  have hlines : ∀ ls p, e.beginning ++ (e.value ++ lf :: (unlines ls ++ p)) =
      unlines (e.before ++ e.lengthLine :: ls) ++ p := fun ls p => by
    simp [JobEvent.beginning, JobEvent.lengthLine, unlines]
  rcases prefix_unlines_append ht₁ with ⟨ls, l, p, hls, hp, rfl⟩ | ⟨t₂, ht₂, rfl⟩
  · -- Within the lines after it.
    have hsubset := hls.subset
    have hmem : l ∈ e.before ++ e.after := List.mem_append_right _ (hsubset (by simp))
    obtain ⟨hlf, hlength⟩ := isPart_of_isPrefix (e.isHeaderLine l hmem) hp
    exact listenRound_of_lines (fun l hl => hsubset (List.mem_append_left _ hl))
      (hall.symm.trans (hlines ls p)) hlf hlength
      fun hname => e.once l hmem (name_of_isPrefix hp hname)
  rw [hlines] at hall
  rcases prefix_append_cons ht₂ with hp | ⟨body, hbody, rfl⟩
  · -- Within the empty line.
    have hcr : t₂ = [] ∨ t₂ = [Python.cr] := by
      cases he : e.lineEnd with
      | lf => exact .inl (List.prefix_nil.1 (by rwa [he] at hp))
      | crlf =>
        rw [he] at hp
        exact (List.prefix_concat_iff.1 hp).symm.imp_left List.prefix_nil.1
    refine listenRound_of_lines (List.Subset.refl _) hall.symm ?_ ?_ ?_ <;>
      rcases hcr with rfl | rfl <;> decide
  · -- Within the body.
    obtain ⟨r', hread, hr'⟩ := readUntilBlankLine_of_blank [] hall.symm
      (isHeaderLine_of_subset (List.Subset.refl _)) (by cases e.lineEnd <;> simp [LineEnd.cr])
    have hget := get?_contentLengthKey (List.Subset.refl e.after) []
    have hlt : r'.all.length < e.body.bytes.length := by
      rw [hr']
      refine hbody.length_le.lt_of_ne fun hlength => hne ?_
      rw [← hall, hbody.eq_of_length hlength]
      rfl
    rw [listenRound_eq hread (ne_nil_of_get? hget),
      readBody_eq_none hget (.inr ⟨_, intOfStr_length e, hlt⟩), Option.map_none]

/-! ### The stream -/

variable {events : List JobEvent} {call : Option JobResult} {calls : List JobResult}

theorem listenOnce_succ (h : listenRound r = some (call, r₁)) (n : ℕ) :
    listenOnce (n + 1) r = (listenOnce n r₁).map (call.toList ++ ·) := by
  rw [listenOnce, h]

/-- Once it has raised, it has. -/
theorem listenOnce_add (h : listenOnce n r = some calls) (k : ℕ) :
    listenOnce (n + k) r = some calls := by
  induction n generalizing r calls with
  | zero => exact absurd h nofun
  | succ n ih =>
    rw [Nat.succ_add]
    rw [listenOnce] at h ⊢
    rcases hround : listenRound r with _ | ⟨call, r'⟩ <;> rw [hround] at h
    · exact h
    · obtain ⟨calls', hcalls, rfl⟩ := Option.map_eq_some_iff.1 h
      exact Option.map_eq_some_iff.2 ⟨calls', ih hcalls, rfl⟩

/-- The events that are complete are read one after the other. -/
theorem listenOnce_append (h : r.all = events.flatMap JobEvent.encode ++ rest) :
    ∃ r', r'.all = rest ∧ ∀ n, listenOnce (events.length + n) r =
      (listenOnce n r').map (events.filterMap (fun e => jobCall e.body.bytes) ++ ·) := by
  induction events generalizing r with
  | nil => exact ⟨r, h, fun n => by simp⟩
  | cons e events ih =>
    rw [List.flatMap_cons, List.append_assoc] at h
    obtain ⟨r₁, hround, h₁⟩ := listenRound_of_encode h
    obtain ⟨r', hr', hlisten⟩ := ih h₁
    refine ⟨r', hr', fun n => ?_⟩
    rw [List.length_cons, Nat.succ_add, listenOnce_succ hround, hlisten, Option.map_map]
    refine congrArg (Option.map · _) (funext fun calls => ?_)
    rcases hcall : jobCall e.body.bytes with _ | call <;> simp [hcall]

/-- When the file ends where no length is read, the listener never raises. -/
theorem listenOnce_of_short (h : r.all <+: e.encode) (hshort : ¬e.beginning <+: r.all) (n : ℕ) :
    listenOnce n r = none := by
  induction n generalizing r with
  | zero => rfl
  | succ n ih =>
    obtain ⟨r', hround, hr'⟩ := listenRound_of_short h hshort
    -- At the end of the file, the same holds again.
    have hnil : ¬e.beginning <+: r'.all := by
      rw [hr', List.prefix_nil, JobEvent.beginning]
      simp
    rw [listenOnce_succ hround, ih (hr' ▸ List.nil_prefix) hnil, Option.map_none]

theorem jobCall_iff (b : JobBody) : jobCall b.bytes = some b.result ↔ b.ReplyKept := by
  rw [← parseJobEvent_iff, jobCall]
  constructor
  · intro h
    exact Option.some.inj (Option.ite_none_left_eq_some.1 h).2
  · intro h
    rw [h]
    exact if_neg b.jobUuid_ne_nil

/-- A list whose elements are all kept loses none. -/
theorem filterMap_eq_map_iff {α β : Type*} {f : α → Option β} {g : α → β} {xs : List α} :
    xs.filterMap f = xs.map g ↔ ∀ x ∈ xs, f x = some (g x) := by
  induction xs with
  | nil => simp
  | cons x xs ih =>
    rw [List.forall_mem_cons, ← ih, List.map_cons]
    rcases hx : f x with _ | y
    · rw [List.filterMap_cons_none hx]
      refine iff_of_false (fun heq => ?_) fun h => absurd h.1 nofun
      have hle := List.length_filterMap_le f xs
      rw [heq, List.length_cons, List.length_map] at hle
      omega
    · rw [List.filterMap_cons_some hx]
      simp

/-- When the file ends behind a length, the listener raises after the complete events. -/
theorem listenOnce_of_beginning (s : JobStream) (h : s.last.beginning <+: s.tail)
    (hr : r.all = s.bytes) : listenOnce (s.events.length + 1) r =
      some (s.events.filterMap fun e => jobCall e.body.bytes) := by
  obtain ⟨r', hr', hlisten⟩ := listenOnce_append hr
  have hraises : listenRound r' = none :=
    listenRound_of_cut (hr' ▸ s.tail_prefix) (hr' ▸ s.tail_ne) (hr' ▸ h)
  rw [hlisten, listenOnce, hraises, Option.map_some, List.append_nil]

/-- When it ends elsewhere, the listener never does. -/
theorem listenOnce_eq_none (s : JobStream) (h : ¬s.last.beginning <+: s.tail)
    (hr : r.all = s.bytes) (n : ℕ) : listenOnce n r = none := by
  obtain ⟨r', hr', hlisten⟩ := listenOnce_append hr
  have hnone := listenOnce_of_short (hr' ▸ s.tail_prefix) (hr' ▸ h) n
  by_contra hsome
  obtain ⟨calls, hcalls⟩ := Option.ne_none_iff_exists'.1 hsome
  have hadd := listenOnce_add hcalls s.events.length
  rw [Nat.add_comm, hlisten, hnone] at hadd
  exact absurd hadd nofun

theorem not_delivered_of_short (s : JobStream) (h : ¬s.last.beginning <+: s.tail) :
    ¬s.Delivered := by
  intro hdelivered
  obtain ⟨n, hn⟩ := hdelivered ⟨s.bytes, []⟩ (List.append_nil _)
  exact absurd ((listenOnce_eq_none s h (List.append_nil _) n).symm.trans hn) nofun

/-- The listener reports every event that is complete, with its result, and then raises,
    for every way in which the bytes arrive, if and only if the connection ends within
    an event, behind the colon of its `Content-Length`, and no complete event has a
    reply of which a part is taken for a part of its header lines. -/
theorem delivered_iff (s : JobStream) :
    s.Delivered ↔ s.last.beginning <+: s.tail ∧ ∀ e ∈ s.events, e.body.ReplyKept := by
  have hkept : (∀ e ∈ s.events, e.body.ReplyKept) ↔
      s.events.filterMap (fun e => jobCall e.body.bytes) = s.events.map fun e => e.body.result := by
    rw [filterMap_eq_map_iff]
    exact forall₂_congr fun e _ => (jobCall_iff e.body).symm
  rw [hkept]
  constructor
  · intro h
    have hbeginning : s.last.beginning <+: s.tail :=
      Classical.by_contradiction fun hshort => not_delivered_of_short s hshort h
    refine ⟨hbeginning, ?_⟩
    have hall : StreamReader.all ⟨s.bytes, []⟩ = s.bytes := List.append_nil _
    obtain ⟨n, hn⟩ := h _ hall
    have hraised := listenOnce_add (listenOnce_of_beginning s hbeginning hall) n
    rw [Nat.add_comm, listenOnce_add hn] at hraised
    exact (Option.some.inj hraised).symm
  · rintro ⟨hbeginning, hcalls⟩ r hr
    exact ⟨_, hcalls ▸ listenOnce_of_beginning s hbeginning hr⟩

/-- A call that is answered. -/
def answeredBody : JobBody where
  bytes := encodeAscii "Event-Name: BACKGROUND_JOB\nJob-UUID: 7f4de4bc\n\n+OK 8f1a\n".toList
  lineEnd := .lf
  before := ["Event-Name: BACKGROUND_JOB".toList]
  after := []
  jobUuid := "7f4de4bc".toList
  reply := "+OK 8f1a\n".toList
  decode_bytes := by decide
  isTextLine := by decide
  once := by decide
  jobUuid_ne_nil := by decide
  strip_jobUuid := by decide

def answered : JobEvent where
  body := answeredBody
  lineEnd := .lf
  before := []
  after := [encodeAscii "Content-Type: text/event-plain".toList]
  isHeaderLine := List.forall_mem_singleton.2
    ⟨by decide, by decide, by decide, by decide⟩
  once := by decide
  length_lt := by decide

/-- FreeSWITCH reports the call, and closes the connection. -/
def answeredThenClosed : JobStream where
  events := [answered]
  last := answered
  tail := []
  tail_prefix := List.nil_prefix
  tail_ne := by decide

theorem not_delivered : ¬answeredThenClosed.Delivered :=
  not_delivered_of_short _ (by decide)

end Yuviz.Campaigns
