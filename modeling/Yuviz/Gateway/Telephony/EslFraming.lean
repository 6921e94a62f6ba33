import Mathlib
import Yuviz.Infix

/-!
# The framing of the event socket

FreeSWITCH sends *frames* over its event socket: a block of header lines, an
empty line, and a body of as many bytes as the header `Content-Length` says. The
ESL client and the event listener read them from a socket, which hands out the
bytes in portions of any size. What they have read past the end of a frame, they
carry over to the next one, so that it does not matter where the portions end
(`readFrames_eq`).
-/

namespace Yuviz.Gateway

abbrev Bytes := List UInt8

/-- The bytes of an ASCII string. -/
def ascii (s : String) : Bytes := s.toList.map fun c => UInt8.ofNat c.toNat

/-- How waiting for data on a socket ends. -/
inductive Poll
  /-- `recv` returns these bytes. -/
  | data (bytes : Bytes)
  | timeout
  /-- The peer has closed the connection, or there is an error. -/
  | failed
  /-- The event listener is no longer `running`. -/
  | stopped
  deriving DecidableEq, Repr

namespace EslFraming

/-- The end of a line. -/
def lf : UInt8 := 10

/-- The end of a line and the empty line after it. -/
def blankLine : Bytes := [lf, lf]

/-- `read_until_blank_line`, from the bytes carried over and the coming polls:
    the bytes up to the blank line, those read past it, and the polls left. -/
def readUntilBlankLine (carry : Bytes) (polls : List Poll) : Option (Bytes × Bytes × List Poll) :=
  match cut blankLine carry with
  | some (out, rest) => some (out, rest, polls)
  | none =>
    match polls with
    | .data bytes :: polls => readUntilBlankLine (carry ++ bytes) polls
    | _ => none

/-- `wait_for_frame_header`, of the event listener: a timeout does not end the wait. -/
def waitForFrameHeader (carry : Bytes) (polls : List Poll) : Option (Bytes × Bytes × List Poll) :=
  match cut blankLine carry with
  | some (out, rest) => some (out, rest, polls)
  | none =>
    match polls with
    | .data bytes :: polls => waitForFrameHeader (carry ++ bytes) polls
    | .timeout :: polls => waitForFrameHeader carry polls
    | _ => none

def readExact (n : ℕ) (carry : Bytes) (polls : List Poll) : Option (Bytes × Bytes × List Poll) :=
  if n ≤ carry.length then some (carry.take n, carry.drop n, polls)
  else
    match polls with
    | .data bytes :: polls => readExact n (carry ++ bytes) polls
    | _ => none

/-- The `isspace` of the C locale. -/
def isSpace (b : UInt8) : Bool := b = 32 || (9 ≤ b && b ≤ 13)

def isDigit (b : UInt8) : Bool := 48 ≤ b && b ≤ 57

/-- The number that decimal digits stand for. -/
def decimal (digits : Bytes) : ℕ := digits.foldl (fun n b => 10 * n + (b.toNat - 48)) 0

/-- `strtoul` in base 10: blanks, a sign, and digits; the result is an
    `unsigned long`, the largest one if the number is too large. -/
def strtoul (s : Bytes) : ℕ :=
  let s := s.dropWhile isSpace
  let (negative, s) := match s with
    | 45 :: s => (true, s)
    | 43 :: s => (false, s)
    | s => (false, s)
  let n := decimal (s.takeWhile isDigit)
  if 2 ^ 64 ≤ n then 2 ^ 64 - 1 else if negative then (2 ^ 64 - n) % 2 ^ 64 else n

def contentLengthKey : Bytes := ascii "Content-Length:"

def parseContentLength (headers : Bytes) : ℕ :=
  match cut contentLengthKey headers with
  | none => 0
  | some (_, rest) => strtoul (rest.dropWhile (· = 32))

/-- A frame read from a socket: its headers, and its body if it has one. Both the
    client (`send_command_locked`) and the listener (`run_loop`) read it in this
    way, except for how they wait for the headers. -/
def readFrame (readHeaders : Bytes → List Poll → Option (Bytes × Bytes × List Poll))
    (carry : Bytes) (polls : List Poll) : Option ((Bytes × Bytes) × Bytes × List Poll) := do
  let (headers, carry, polls) ← readHeaders carry polls
  let contentLength := parseContentLength headers
  if contentLength = 0 then
    return ((headers, []), carry, polls)
  let (body, carry, polls) ← readExact contentLength carry polls
  return ((headers, body), carry, polls)

/-- `n` frames, read one after the other. -/
def readFrames (readHeaders : Bytes → List Poll → Option (Bytes × Bytes × List Poll)) :
    ℕ → Bytes → List Poll → Option (List (Bytes × Bytes) × Bytes × List Poll)
  | 0, carry, polls => some ([], carry, polls)
  | n + 1, carry, polls => do
    let (frame, carry, polls) ← readFrame readHeaders carry polls
    let (frames, carry, polls) ← readFrames readHeaders n carry polls
    return (frame :: frames, carry, polls)

/-! ### Frames -/

/-- The length of the body that the headers of a frame announce. -/
inductive Announces : Bytes → ℕ → Prop
  | none {headers : Bytes} (h : ¬contentLengthKey <:+: headers) : Announces headers 0
  | some (before blanks digits rest : Bytes) (hblanks : ∀ b ∈ blanks, b = 32 ∨ b = 9)
      (hdigits : ∀ b ∈ digits, isDigit b = true) (hne : digits ≠ [])
      (hrest : ∀ b ∈ rest.head?, isDigit b = false) :
      Announces (before ++ contentLengthKey ++ (blanks ++ digits ++ rest)) (decimal digits)

/-- A frame: a block of header lines, which is `headers` with a line feed at its
    end, and a body. -/
structure Frame where
  headers : Bytes
  body : Bytes
  /-- No line of the block is empty. -/
  no_blankLine : ¬blankLine <:+: lf :: (headers ++ [lf])
  /-- `Content-Length:` occurs at most once. -/
  once : (headers.tails.countP fun s => contentLengthKey <+: s) ≤ 1
  announces : Announces headers body.length
  /-- The body is read into a string, whose length is a `size_t`. -/
  length_lt : body.length < 2 ^ 64

/-- The bytes of a frame: the block, an empty line, and the body. -/
def Frame.encode (f : Frame) : Bytes := f.headers ++ blankLine ++ f.body

variable {headers carry rest : Bytes} {chunks : List Bytes} {n : ℕ}

theorem blankLine_ne_nil : blankLine ≠ [] := nofun

theorem contentLengthKey_ne_nil : contentLengthKey ≠ [] := nofun

/-! ### The length of the body -/

theorem dropWhile_isSpace {blanks s : Bytes} (hblanks : ∀ b ∈ blanks, b = 32 ∨ b = 9)
    (hs : ∀ b ∈ s.head?, isSpace b = false) :
    ((blanks ++ s).dropWhile (· = 32)).dropWhile isSpace = s := by
  have hs' : s.dropWhile isSpace = s := by
    rcases s with _ | ⟨b, s⟩
    · rfl
    · exact List.dropWhile_cons_of_neg (by simp [hs b rfl])
  induction blanks with
  | nil =>
    rcases s with _ | ⟨b, s⟩
    · rfl
    · have hb : b ≠ 32 := by
        rintro rfl
        exact absurd (hs 32 rfl) (by decide)
      rwa [List.nil_append, List.dropWhile_cons_of_neg (by simpa using hb)]
  | cons b blanks ih =>
    have ih := ih fun b hb => hblanks b (List.mem_cons_of_mem _ hb)
    rcases hblanks b List.mem_cons_self with rfl | rfl
    · rwa [List.cons_append, List.dropWhile_cons_of_pos (by decide)]
    · -- A tab ends the first scan, which skips spaces only, but not the second.
      rw [List.cons_append, List.dropWhile_cons_of_neg (by decide),
        List.dropWhile_cons_of_pos (by decide), List.dropWhile_append_of_pos]
      · exact hs'
      · intro c hc
        rcases hblanks c (List.mem_cons_of_mem _ hc) with rfl | rfl <;> decide

theorem strtoul_digits {digits rest : Bytes} (hdigits : ∀ b ∈ digits, isDigit b = true)
    (hne : digits ≠ []) (hrest : ∀ b ∈ rest.head?, isDigit b = false)
    (hn : decimal digits < 2 ^ 64) {s : Bytes} (hs : s.dropWhile isSpace = digits ++ rest) :
    strtoul s = decimal digits := by
  obtain ⟨d, digits, rfl⟩ := List.exists_cons_of_ne_nil hne
  have hd : 48 ≤ d ∧ d ≤ 57 := by simpa [isDigit] using hdigits d List.mem_cons_self
  have htake : (d :: digits ++ rest).takeWhile isDigit = d :: digits := by
    rw [List.takeWhile_append_of_pos hdigits]
    rcases rest with _ | ⟨b, rest⟩
    · simp
    · rw [List.takeWhile_cons_of_neg (by simp [hrest b rfl]), List.append_nil]
  -- A digit is not a sign.
  have hsign : d ≠ 45 ∧ d ≠ 43 := by
    constructor <;> rintro rfl <;> exact absurd hd.1 (by decide)
  rw [strtoul, hs]
  split
  rename_i negative t heq
  split at heq
  · rename_i hcons
    exact absurd (List.cons.inj hcons).1 hsign.1
  · rename_i hcons
    exact absurd (List.cons.inj hcons).1 hsign.2
  · obtain ⟨rfl, rfl⟩ := Prod.mk.inj heq
    show (if 2 ^ 64 ≤ decimal (List.takeWhile isDigit (d :: digits ++ rest)) then 2 ^ 64 - 1
      else decimal (List.takeWhile isDigit (d :: digits ++ rest))) = _
    rw [htake, if_neg (Nat.not_le.2 hn)]

/-- The frame's header is the first one the client finds, as there is no other. -/
theorem cut_eq_of_once {before rest : Bytes}
    (h : ((before ++ contentLengthKey ++ rest).tails.countP fun s => contentLengthKey <+: s) ≤ 1) :
    ∃ before', cut contentLengthKey (before ++ contentLengthKey ++ rest) = some (before', rest) := by
  rcases hcut : cut contentLengthKey (before ++ contentLengthKey ++ rest) with _ | ⟨a, b⟩
  · exact absurd ⟨before, rest, rfl⟩ ((cut_eq_none contentLengthKey_ne_nil).1 hcut)
  · obtain ⟨heq, -⟩ := (cut_eq_some contentLengthKey_ne_nil).1 hcut
    -- Both occurrences begin a tail of the headers, and only one tail has any.
    rw [List.countP_eq_length_filter] at h
    have hmem : ∀ x y, before ++ contentLengthKey ++ rest = x ++ contentLengthKey ++ y →
        contentLengthKey ++ y ∈ (before ++ contentLengthKey ++ rest).tails.filter
          fun s => contentLengthKey <+: s := by
      intro x y hxy
      rw [List.mem_filter, List.mem_tails, hxy, List.append_assoc]
      exact ⟨List.suffix_append _ _, by simp⟩
    have hone := hmem a b heq
    have hother := hmem before rest rfl
    generalize List.filter _ _ = l at h hone hother
    rcases l with _ | ⟨s, _ | ⟨t, l⟩⟩
    · simp at hone
    · rw [List.mem_singleton] at hone hother
      exact ⟨a, by rw [List.append_cancel_left (hone.trans hother.symm)]⟩
    · simp at h

theorem parseContentLength_eq (h : Announces headers n) (hn : n < 2 ^ 64)
    (honce : (headers.tails.countP fun s => contentLengthKey <+: s) ≤ 1) :
    parseContentLength headers = n := by
  rw [parseContentLength]
  rcases h with hnone | ⟨before, blanks, digits, rest, hblanks, hdigits, hne, hrest⟩
  · rw [(cut_eq_none contentLengthKey_ne_nil).2 hnone]
  · obtain ⟨before', hcut⟩ := cut_eq_of_once honce
    rw [hcut]
    refine strtoul_digits hdigits hne hrest hn ?_
    rw [List.append_assoc]
    refine dropWhile_isSpace hblanks fun b hb => ?_
    obtain ⟨d, digits, rfl⟩ := List.exists_cons_of_ne_nil hne
    obtain rfl := Option.mem_some_iff.1 hb
    have hd : 48 ≤ d ∧ d ≤ 57 := by simpa [isDigit] using hdigits d List.mem_cons_self
    rw [isSpace, Bool.or_eq_false_iff, Bool.and_eq_false_iff]
    refine ⟨?_, .inr ?_⟩
    · have : d ≠ 32 := by
        rintro rfl
        exact absurd hd.1 (by decide)
      simpa using this
    · have : ¬d ≤ 13 := fun h => absurd (UInt8.le_trans hd.1 h) (by decide)
      simpa using this

/-! ### Reading frames -/

/-- The ways to wait for headers that agree on data: bytes are appended to the
    carried ones until they contain a blank line. -/
structure ReadsHeaders
    (readHeaders : Bytes → List Poll → Option (Bytes × Bytes × List Poll)) : Prop where
  of_cut : ∀ carry polls out rest, cut blankLine carry = some (out, rest) →
    readHeaders carry polls = some (out, rest, polls)
  data : ∀ carry bytes polls, cut blankLine carry = none →
    readHeaders carry (.data bytes :: polls) = readHeaders (carry ++ bytes) polls

theorem readsHeaders_client : ReadsHeaders readUntilBlankLine where
  of_cut carry polls out rest h := by rw [readUntilBlankLine.eq_def, h]
  data carry bytes polls h := by rw [readUntilBlankLine.eq_def, h]

theorem readsHeaders_listener : ReadsHeaders waitForFrameHeader where
  of_cut carry polls out rest h := by rw [waitForFrameHeader.eq_def, h]
  data carry bytes polls h := by rw [waitForFrameHeader.eq_def, h]

variable {readHeaders : Bytes → List Poll → Option (Bytes × Bytes × List Poll)}

/-- Headers are read up to the first blank line of the stream, whatever its
    portions, and the rest of the stream is kept. -/
theorem ReadsHeaders.eq (hr : ReadsHeaders readHeaders) (polls : List Poll)
    (hheaders : ¬blankLine <:+: headers ++ [lf])
    (h : carry ++ chunks.flatten = headers ++ blankLine ++ rest) :
    ∃ carry' chunks', readHeaders carry (chunks.map .data ++ polls) =
        some (headers, carry', chunks'.map .data ++ polls) ∧
      carry' ++ chunks'.flatten = rest ∧ chunks' <:+ chunks := by
  induction chunks generalizing carry with
  | nil =>
    rw [List.flatten_nil, List.append_nil] at h
    have hcut : cut blankLine carry = some (headers, rest) :=
      (cut_eq_some blankLine_ne_nil).2 ⟨h, hheaders⟩
    exact ⟨rest, [], hr.of_cut carry _ _ _ hcut, by simp, List.suffix_refl _⟩
  | cons c chunks ih =>
    rcases hcut : cut blankLine carry with _ | ⟨out, rest'⟩
    · rw [List.flatten_cons, ← List.append_assoc] at h
      obtain ⟨carry', chunks', hread, hrest, hsuffix⟩ := ih h
      exact ⟨carry', chunks', by rw [List.map_cons, List.cons_append, hr.data _ _ _ hcut, hread],
        hrest, hsuffix.trans (List.suffix_cons c chunks)⟩
    · -- The blank line found in the carried bytes is the first one of the stream.
      obtain ⟨rfl, hout⟩ := (cut_eq_some blankLine_ne_nil).1 hcut
      rw [List.append_assoc] at h
      have heq := (cut_append blankLine_ne_nil hout _).symm.trans
        (h ▸ cut_append blankLine_ne_nil hheaders rest)
      obtain ⟨rfl, rfl⟩ := Prod.mk.inj (Option.some.inj heq)
      exact ⟨rest', c :: chunks, hr.of_cut _ _ _ _ hcut, rfl, List.suffix_refl _⟩

theorem readExact_eq {body : Bytes} (polls : List Poll)
    (h : carry ++ chunks.flatten = body ++ rest) :
    ∃ carry' chunks', readExact body.length carry (chunks.map .data ++ polls) =
        some (body, carry', chunks'.map .data ++ polls) ∧
      carry' ++ chunks'.flatten = rest ∧ chunks' <:+ chunks := by
  induction chunks generalizing carry with
  | nil =>
    rw [List.flatten_nil, List.append_nil] at h
    subst h
    refine ⟨rest, [], ?_, by simp, List.suffix_refl _⟩
    rw [readExact.eq_def, if_pos (by simp)]
    simp
  | cons c chunks ih =>
    rw [readExact.eq_def]
    split_ifs with hlen
    · obtain ⟨t, rfl⟩ : body <+: carry :=
        List.prefix_of_prefix_length_le ⟨rest, h.symm⟩ (List.prefix_append _ _) hlen
      rw [List.append_assoc, List.append_cancel_left_eq] at h
      exact ⟨t, c :: chunks, by simp, h, List.suffix_refl _⟩
    · rw [List.flatten_cons, ← List.append_assoc] at h
      obtain ⟨carry', chunks', hread, hrest, hsuffix⟩ := ih h
      exact ⟨carry', chunks', hread, hrest, hsuffix.trans (List.suffix_cons c chunks)⟩

/-- A frame is read off a stream that begins with it. -/
theorem readFrame_eq (hr : ReadsHeaders readHeaders) (f : Frame) (polls : List Poll)
    (h : carry ++ chunks.flatten = f.encode ++ rest) :
    ∃ carry' chunks', readFrame readHeaders carry (chunks.map .data ++ polls) =
        some ((f.headers, f.body), carry', chunks'.map .data ++ polls) ∧
      carry' ++ chunks'.flatten = rest ∧ chunks' <:+ chunks := by
  have hheaders : ¬blankLine <:+: f.headers ++ [lf] := fun hin =>
    f.no_blankLine (List.infix_cons_iff.2 (.inr hin))
  rw [Frame.encode, List.append_assoc] at h
  obtain ⟨carry₁, chunks₁, hread₁, hrest₁, hsuffix₁⟩ := hr.eq polls hheaders h
  have hlen : parseContentLength f.headers = f.body.length :=
    parseContentLength_eq f.announces f.length_lt f.once
  by_cases hbody : f.body.length = 0
  · obtain hnil := List.eq_nil_of_length_eq_zero hbody
    refine ⟨carry₁, chunks₁, ?_, by rw [hrest₁, hnil, List.nil_append], hsuffix₁⟩
    simp [readFrame, hread₁, hlen, hnil]
  · obtain ⟨carry₂, chunks₂, hread₂, hrest₂, hsuffix₂⟩ := readExact_eq polls hrest₁
    refine ⟨carry₂, chunks₂, ?_, hrest₂, hsuffix₂.trans hsuffix₁⟩
    simp [readFrame, hread₁, hlen, hbody, hread₂]

/-- So are the frames of a stream that begins with several. -/
theorem readFrames_append (hr : ReadsHeaders readHeaders) (fs : List Frame) (polls : List Poll)
    (h : carry ++ chunks.flatten = (fs.map Frame.encode).flatten ++ rest) :
    ∃ carry' chunks', readFrames readHeaders fs.length carry (chunks.map .data ++ polls) =
        some (fs.map fun f => (f.headers, f.body), carry', chunks'.map .data ++ polls) ∧
      carry' ++ chunks'.flatten = rest ∧ chunks' <:+ chunks := by
  induction fs generalizing carry chunks with
  | nil => exact ⟨carry, chunks, rfl, by simpa using h, List.suffix_refl _⟩
  | cons f fs ih =>
    rw [List.map_cons, List.flatten_cons, List.append_assoc] at h
    obtain ⟨carry₁, chunks₁, hread₁, hrest₁, hsuffix₁⟩ := readFrame_eq hr f polls h
    obtain ⟨carry₂, chunks₂, hread₂, hrest₂, hsuffix₂⟩ := ih hrest₁
    refine ⟨carry₂, chunks₂, ?_, hrest₂, hsuffix₂.trans hsuffix₁⟩
    simp [readFrames, hread₁, hread₂]

/-- The frames of a stream are recovered, headers and bodies, by the client and
    by the listener, however `recv` portions the stream; nothing is left over. -/
theorem readFrames_eq (fs : List Frame) (chunks : List Bytes) (hchunks : ∀ c ∈ chunks, c ≠ [])
    (h : chunks.flatten = (fs.map Frame.encode).flatten) :
    readFrames readUntilBlankLine fs.length [] (chunks.map .data) =
        some (fs.map fun f => (f.headers, f.body), [], []) ∧
      readFrames waitForFrameHeader fs.length [] (chunks.map .data) =
        some (fs.map fun f => (f.headers, f.body), [], []) := by
  have hreads : ∀ readHeaders, ReadsHeaders readHeaders →
      readFrames readHeaders fs.length [] (chunks.map .data) =
        some (fs.map fun f => (f.headers, f.body), [], []) := by
    intro readHeaders hr
    have h' : [] ++ chunks.flatten = (fs.map Frame.encode).flatten ++ [] := by simpa using h
    obtain ⟨carry', chunks', hread, hrest, hsuffix⟩ := readFrames_append hr fs [] h'
    -- Nothing is left of the stream, so no portion is, as none is empty.
    obtain ⟨rfl, hflatten⟩ := List.append_eq_nil_iff.1 hrest
    have hnil : chunks' = [] := by
      rcases chunks' with _ | ⟨c, chunks'⟩
      · rfl
      · exact absurd (List.flatten_eq_nil_iff.1 hflatten c List.mem_cons_self)
          (hchunks c (hsuffix.subset List.mem_cons_self))
    rw [hnil] at hread
    simpa using hread
  exact ⟨hreads _ readsHeaders_client, hreads _ readsHeaders_listener⟩

/-! ### What has been read -/

theorem readUntilBlankLine_some {polls polls' : List Poll} {out : Bytes}
    (h : readUntilBlankLine carry polls = some (out, rest, polls')) :
    ∃ chunks : List Bytes, polls = chunks.map .data ++ polls' ∧
      carry ++ chunks.flatten = out ++ blankLine ++ rest ∧ ¬blankLine <:+: out ++ [lf] := by
  induction polls generalizing carry with
  | nil =>
    rw [readUntilBlankLine.eq_def] at h
    rcases hcut : cut blankLine carry with _ | ⟨a, b⟩
    · simp [hcut] at h
    · simp only [hcut, Option.some.injEq, Prod.mk.injEq] at h
      obtain ⟨rfl, rfl, rfl⟩ := h
      obtain ⟨rfl, hn⟩ := (cut_eq_some blankLine_ne_nil).1 hcut
      exact ⟨[], rfl, by simp, hn⟩
  | cons poll polls ih =>
    rw [readUntilBlankLine.eq_def] at h
    rcases hcut : cut blankLine carry with _ | ⟨a, b⟩
    · rcases poll with bytes | _ | _ | _
      · simp only [hcut] at h
        obtain ⟨chunks, rfl, heq, hn⟩ := ih h
        exact ⟨bytes :: chunks, rfl, by rw [← heq]; simp, hn⟩
      all_goals simp [hcut] at h
    · simp only [hcut, Option.some.injEq, Prod.mk.injEq] at h
      obtain ⟨rfl, rfl, rfl⟩ := h
      obtain ⟨rfl, hn⟩ := (cut_eq_some blankLine_ne_nil).1 hcut
      exact ⟨[], rfl, by simp, hn⟩

theorem readExact_some {polls polls' : List Poll} {out : Bytes}
    (h : readExact n carry polls = some (out, rest, polls')) :
    ∃ chunks : List Bytes, polls = chunks.map .data ++ polls' ∧
      carry ++ chunks.flatten = out ++ rest ∧ out.length = n := by
  induction polls generalizing carry with
  | nil =>
    rw [readExact.eq_def] at h
    split_ifs at h with hlen
    obtain ⟨rfl, rfl, rfl⟩ : carry.take n = out ∧ carry.drop n = rest ∧ [] = polls' := by
      simpa using h
    exact ⟨[], rfl, by simp, List.length_take_of_le hlen⟩
  | cons poll polls ih =>
    rw [readExact.eq_def] at h
    split_ifs at h with hlen
    · obtain ⟨rfl, rfl, rfl⟩ : carry.take n = out ∧ carry.drop n = rest ∧ poll :: polls = polls' := by
        simpa using h
      exact ⟨[], rfl, by simp, List.length_take_of_le hlen⟩
    · rcases poll with bytes | _ | _ | _
      · obtain ⟨chunks, rfl, heq, hn⟩ := ih h
        exact ⟨bytes :: chunks, rfl, by rw [← heq]; simp, hn⟩
      all_goals cases h

theorem readFrame_some {polls polls' : List Poll} {headers body : Bytes}
    (h : readFrame readUntilBlankLine carry polls = some ((headers, body), rest, polls')) :
    ∃ chunks : List Bytes, polls = chunks.map .data ++ polls' ∧
      carry ++ chunks.flatten = headers ++ blankLine ++ (body ++ rest) ∧
      ¬blankLine <:+: headers ++ [lf] ∧ body.length = parseContentLength headers := by
  simp only [readFrame, Option.bind_eq_bind, Option.bind_eq_some_iff] at h
  obtain ⟨⟨headers₁, carry₁, polls₁⟩, hread₁, h⟩ := h
  obtain ⟨chunks₁, rfl, heq₁, hn⟩ := readUntilBlankLine_some hread₁
  dsimp only at h
  split_ifs at h with hlen
  · obtain ⟨⟨rfl, rfl⟩, rfl, rfl⟩ : (headers₁ = headers ∧ [] = body) ∧ carry₁ = rest ∧
        polls₁ = polls' := by simpa using h
    exact ⟨chunks₁, rfl, by simpa using heq₁, hn, hlen.symm⟩
  · rw [Option.bind_eq_some_iff] at h
    obtain ⟨⟨body₂, carry₂, polls₂⟩, hread₂, h⟩ := h
    obtain ⟨⟨rfl, rfl⟩, rfl, rfl⟩ : (headers₁ = headers ∧ body₂ = body) ∧ carry₂ = rest ∧
        polls₂ = polls' := by simpa using h
    obtain ⟨chunks₂, rfl, heq₂, hlen₂⟩ := readExact_some hread₂
    refine ⟨chunks₁ ++ chunks₂, by simp, ?_, hn, hlen₂⟩
    rw [List.flatten_append, ← List.append_assoc, heq₁, List.append_assoc, heq₂]

/-- A reply whose body contains a blank line. -/
private def response : Frame where
  headers := ascii "Content-Type: api/response\nContent-Length: 4"
  body := ascii "+\n\nK"
  no_blankLine := by decide
  once := by decide
  announces := .some (ascii "Content-Type: api/response\n") (ascii " ") (ascii "4") []
    (by decide +kernel) (by decide +kernel) (by decide +kernel) (by decide +kernel)
  length_lt := by decide

/-- A reply without a body. -/
private def reply : Frame where
  headers := ascii "Content-Type: command/reply"
  body := []
  no_blankLine := by decide
  once := by decide
  announces := .none (by decide)
  length_lt := by decide

/-- Portions that end within the blank lines. -/
theorem readFrames_eq_response :
    readFrames readUntilBlankLine 2 []
        [.data (response.encode.take 45), .data (response.encode.drop 45 ++ reply.encode)] =
      some ([(response.headers, response.body), (reply.headers, reply.body)], [], []) :=
  (readFrames_eq [response, reply]
    [response.encode.take 45, response.encode.drop 45 ++ reply.encode]
    (by decide) (by decide)).1

end EslFraming

end Yuviz.Gateway
