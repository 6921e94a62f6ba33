import Yuviz.Infix
import Mathlib.Data.Nat.Notation

/-!
# Reading a stream

An `asyncio.StreamReader`: the bytes that have arrived and are not yet read, and
the portions in which the others will arrive before the end of file. What a read
returns and what it leaves to be read is determined by the bytes alone
(`StreamReader.all`), not by their portions.
-/

namespace Yuviz.Python

abbrev Bytes := List UInt8

/-- `\n`. -/
def lf : UInt8 := 10

/-- `\r`. -/
def cr : UInt8 := 13

structure StreamReader where
  buffer : Bytes
  /-- What is still to arrive, until the end of file. -/
  chunks : List Bytes

namespace StreamReader

/-- The bytes that are left to be read. -/
def all (r : StreamReader) : Bytes := r.buffer ++ r.chunks.flatten

/-- The longest line that `readline` returns, without its end. -/
def limit : ℕ := 65536

/-- `readline`, given the bytes that have arrived and those that will. -/
def readlineFrom (buffer : Bytes) (chunks : List Bytes) : Option (Bytes × StreamReader) :=
  match cut [lf] buffer with
  | some (line, rest) => if line.length ≤ limit then some (line ++ [lf], ⟨rest, chunks⟩) else none
  | none =>
    if limit < buffer.length then none
    else
      match chunks with
      | [] => some (buffer, ⟨[], []⟩)
      | chunk :: chunks => readlineFrom (buffer ++ chunk) chunks

/-- `readline`: a line with its end, or what is left when there is no end of line
    any more; `none` is the `ValueError` for a line that is too long. -/
def readline (r : StreamReader) : Option (Bytes × StreamReader) := readlineFrom r.buffer r.chunks

/-- `readexactly`, given the bytes that have arrived and those that will. -/
def readexactlyFrom (n : ℕ) (buffer : Bytes) (chunks : List Bytes) :
    Option (Bytes × StreamReader) :=
  if n ≤ buffer.length then some (buffer.take n, ⟨buffer.drop n, chunks⟩)
  else
    match chunks with
    | [] => none
    | chunk :: chunks => readexactlyFrom n (buffer ++ chunk) chunks

/-- `readexactly(n)`, where `none` is an `IncompleteReadError`. -/
def readexactly (n : ℕ) (r : StreamReader) : Option (Bytes × StreamReader) :=
  readexactlyFrom n r.buffer r.chunks

variable {r r' : StreamReader} {buffer line rest data : Bytes} {chunks : List Bytes} {n : ℕ}

theorem cut_lf_eq_some : cut [lf] buffer = some (line, rest) ↔
    buffer = line ++ lf :: rest ∧ lf ∉ line := by
  rw [cut_eq_some (List.cons_ne_nil lf []), List.dropLast_singleton, List.append_nil,
    List.singleton_infix_iff, List.append_assoc, List.singleton_append]

theorem cut_lf_eq_none : cut [lf] buffer = none ↔ lf ∉ buffer := by
  rw [cut_eq_none (List.cons_ne_nil lf []), List.singleton_infix_iff]

/-- Bytes that end no line belong to the line that they begin. -/
theorem length_le_of_notMem {t : Bytes} (h : lf ∉ buffer) (heq : buffer ++ t = line ++ lf :: rest) :
    buffer.length ≤ line.length := by
  rcases List.append_eq_append_iff.1 heq with ⟨w, rfl, -⟩ | ⟨w, rfl, hw⟩
  · simp
  · rcases w with _ | ⟨x, w⟩
    · simp
    · obtain rfl := (List.cons.inj hw).1
      exact absurd (List.mem_append_right _ List.mem_cons_self) h

/-- What is read and what is left make up the stream. -/
theorem append_of_readlineFrom (h : readlineFrom buffer chunks = some (line, r')) :
    line ++ r'.all = buffer ++ chunks.flatten := by
  induction chunks generalizing buffer with
  | nil =>
    rw [readlineFrom.eq_def] at h
    rcases hcut : cut [lf] buffer with _ | ⟨a, b⟩
    · simp only [hcut, Option.ite_none_left_eq_some, Option.some.injEq, Prod.mk.injEq] at h
      obtain ⟨-, rfl, rfl⟩ := h
      simp [all]
    · simp only [hcut, Option.ite_none_right_eq_some, Option.some.injEq, Prod.mk.injEq] at h
      obtain ⟨-, rfl, rfl⟩ := h
      rw [(cut_lf_eq_some.1 hcut).1, all]
      simp
  | cons chunk chunks ih =>
    rw [readlineFrom.eq_def] at h
    rcases hcut : cut [lf] buffer with _ | ⟨a, b⟩
    · simp only [hcut, Option.ite_none_left_eq_some] at h
      rw [ih h.2, List.flatten_cons, List.append_assoc]
    · simp only [hcut, Option.ite_none_right_eq_some, Option.some.injEq, Prod.mk.injEq] at h
      obtain ⟨-, rfl, rfl⟩ := h
      rw [(cut_lf_eq_some.1 hcut).1, all]
      simp

theorem append_of_readline (h : r.readline = some (line, r')) : line ++ r'.all = r.all :=
  append_of_readlineFrom h

theorem length_lt_of_readline (h : r.readline = some (line, r')) (hne : line ≠ []) :
    r'.all.length < r.all.length := by
  rw [← append_of_readline h, List.length_append]
  have := List.length_pos_of_ne_nil hne
  omega

theorem readlineFrom_of_append (h : buffer ++ chunks.flatten = line ++ lf :: rest)
    (hline : lf ∉ line) (hlimit : line.length ≤ limit) :
    ∃ r', readlineFrom buffer chunks = some (line ++ [lf], r') ∧ r'.all = rest := by
  induction chunks generalizing buffer with
  | nil =>
    rw [List.flatten_nil, List.append_nil] at h
    rw [readlineFrom.eq_def, cut_lf_eq_some.2 ⟨h, hline⟩]
    exact ⟨⟨rest, []⟩, if_pos hlimit, by simp [all]⟩
  | cons chunk chunks ih =>
    rw [readlineFrom.eq_def]
    rcases hcut : cut [lf] buffer with _ | ⟨a, b⟩
    · have hle := length_le_of_notMem (cut_lf_eq_none.1 hcut) h
      rw [List.flatten_cons, ← List.append_assoc] at h
      obtain ⟨r', hread, hr'⟩ := ih h
      exact ⟨r', (if_neg (by omega)).trans hread, hr'⟩
    · -- The end of line that has arrived is the first one of the stream.
      obtain ⟨rfl, hfirst⟩ := cut_lf_eq_some.1 hcut
      rw [List.append_assoc, List.cons_append] at h
      have heq := (cut_lf_eq_some.2 ⟨h, hline⟩).symm.trans (cut_lf_eq_some.2 ⟨rfl, hfirst⟩)
      obtain ⟨rfl, rfl⟩ := Prod.mk.inj (Option.some.inj heq)
      exact ⟨⟨b, chunk :: chunks⟩, if_pos hlimit, rfl⟩

/-- A line is read as such, however it arrives. -/
theorem readline_of_append (h : r.all = line ++ lf :: rest) (hline : lf ∉ line)
    (hlimit : line.length ≤ limit) :
    ∃ r', r.readline = some (line ++ [lf], r') ∧ r'.all = rest :=
  readlineFrom_of_append h hline hlimit

theorem readlineFrom_of_notMem (h : lf ∉ buffer ++ chunks.flatten)
    (hlimit : (buffer ++ chunks.flatten).length ≤ limit) :
    ∃ r', readlineFrom buffer chunks = some (buffer ++ chunks.flatten, r') ∧ r'.all = [] := by
  have hle : buffer.length ≤ limit := (List.prefix_append _ _).length_le.trans hlimit
  have hmem : lf ∉ buffer := fun hmem => h (List.mem_append_left _ hmem)
  induction chunks generalizing buffer with
  | nil =>
    rw [readlineFrom.eq_def, cut_lf_eq_none.2 hmem, List.flatten_nil, List.append_nil]
    exact ⟨⟨[], []⟩, if_neg (Nat.not_lt.2 hle), rfl⟩
  | cons chunk chunks ih =>
    rw [List.flatten_cons, ← List.append_assoc] at h hlimit ⊢
    obtain ⟨r', hread, hr'⟩ := ih h hlimit ((List.prefix_append _ _).length_le.trans hlimit)
      fun hmem => h (List.mem_append_left _ hmem)
    rw [readlineFrom.eq_def, cut_lf_eq_none.2 hmem]
    exact ⟨r', (if_neg (Nat.not_lt.2 hle)).trans hread, hr'⟩

/-- At the end of file, what is left is read although no line end follows. -/
theorem readline_of_notMem (h : lf ∉ r.all) (hlimit : r.all.length ≤ limit) :
    ∃ r', r.readline = some (r.all, r') ∧ r'.all = [] :=
  readlineFrom_of_notMem h hlimit

theorem readexactlyFrom_of_append (h : buffer ++ chunks.flatten = data ++ rest) :
    ∃ r', readexactlyFrom data.length buffer chunks = some (data, r') ∧ r'.all = rest := by
  induction chunks generalizing buffer with
  | nil =>
    rw [List.flatten_nil, List.append_nil] at h
    subst h
    rw [readexactlyFrom.eq_def, if_pos (by simp)]
    exact ⟨⟨rest, []⟩, by simp, by simp [all]⟩
  | cons chunk chunks ih =>
    rw [readexactlyFrom.eq_def]
    split_ifs with hle
    · obtain ⟨t, rfl⟩ : data <+: buffer :=
        List.prefix_of_prefix_length_le ⟨rest, h.symm⟩ (List.prefix_append _ _) hle
      rw [List.append_assoc, List.append_cancel_left_eq] at h
      exact ⟨⟨t, chunk :: chunks⟩, by simp, h⟩
    · rw [List.flatten_cons, ← List.append_assoc] at h
      exact ih h

/-- As many bytes as are asked for are read, however they arrive. -/
theorem readexactly_of_append (h : r.all = data ++ rest) :
    ∃ r', r.readexactly data.length = some (data, r') ∧ r'.all = rest :=
  readexactlyFrom_of_append h

theorem readexactlyFrom_eq_none (h : (buffer ++ chunks.flatten).length < n) :
    readexactlyFrom n buffer chunks = none := by
  have hlt : buffer.length < n := (List.prefix_append _ _).length_le.trans_lt h
  induction chunks generalizing buffer with
  | nil => rw [readexactlyFrom.eq_def, if_neg (Nat.not_le.2 hlt)]
  | cons chunk chunks ih =>
    rw [List.flatten_cons, ← List.append_assoc] at h
    rw [readexactlyFrom.eq_def, if_neg (Nat.not_le.2 hlt)]
    exact ih h ((List.prefix_append _ _).length_le.trans_lt h)

theorem readexactly_eq_none (h : r.all.length < n) : r.readexactly n = none :=
  readexactlyFrom_eq_none h

end StreamReader

end Yuviz.Python
