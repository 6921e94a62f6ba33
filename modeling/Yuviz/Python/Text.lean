import Yuviz.Python.Json
import Yuviz.Python.StreamReader
import Yuviz.Python.Words
import Mathlib.Algebra.Order.Ring.Nat

/-!
# Text that is received

What a program does to bytes that it receives as text: it decodes them
(`decode`), takes them apart into lines (`splitlines`) and reads numbers in them.
Decoding replaces what is not UTF-8, and yet an ASCII character stays where it
is, whatever is around it (`decode_append_cons`).
-/

namespace Yuviz.Python

/-- A character in UTF-8 of which some bytes are read: the number of bytes after
    the next one, the bits so far, and the range in which the next byte must be. -/
structure Utf8Prefix where
  more : ℕ
  acc : ℕ
  low : ℕ
  high : ℕ
  low_ge : 128 ≤ low
  /-- The character is none that one byte stands for. -/
  le : 128 ≤ (64 * acc + (low - 128)) * 64 ^ more

/-- What a byte begins that is not ASCII. -/
def utf8Prefix? (b : ℕ) : Option Utf8Prefix :=
  if h : 0xc2 ≤ b ∧ b ≤ 0xdf then some ⟨0, b - 0xc0, 0x80, 0xbf, le_rfl, by omega⟩
  else if b = 0xe0 then some ⟨1, 0, 0xa0, 0xbf, by decide, by decide⟩
  else if b = 0xed then some ⟨1, 0xd, 0x80, 0x9f, by decide, by decide⟩
  else if h : 0xe1 ≤ b ∧ b ≤ 0xef then some ⟨1, b - 0xe0, 0x80, 0xbf, le_rfl, by omega⟩
  else if b = 0xf0 then some ⟨2, 0, 0x90, 0xbf, by decide, by decide⟩
  else if h : 0xf1 ≤ b ∧ b ≤ 0xf3 then some ⟨2, b - 0xf0, 0x80, 0xbf, le_rfl, by omega⟩
  else if b = 0xf4 then some ⟨2, 4, 0x80, 0x8f, by decide, by decide⟩
  else none

/-- What stands in the text for a prefix that is not completed. -/
def Utf8Prefix.flush (p : Option Utf8Prefix) : List Char :=
  if p.isSome then ['\ufffd'] else []

/-- The first byte of a character. -/
def Utf8Prefix.start (b : UInt8) : List Char × Option Utf8Prefix :=
  if b.toNat < 0x80 then ([Char.ofNat b.toNat], none)
  else
    match utf8Prefix? b.toNat with
    | some p => ([], some p)
    | none => (['\ufffd'], none)

/-- A byte after the prefix of a character. -/
def Utf8Prefix.next (p : Utf8Prefix) (b : UInt8) : List Char × Option Utf8Prefix :=
  if h : p.low ≤ b.toNat ∧ b.toNat ≤ p.high then
    match hmore : p.more with
    | 0 => ([Char.ofNat (64 * p.acc + (b.toNat - 0x80))], none)
    | more + 1 =>
      ([], some ⟨more, 64 * p.acc + (b.toNat - 0x80), 0x80, 0xbf, le_rfl, by
        have hle := p.le
        rw [hmore, Nat.pow_succ, mul_comm _ 64, ← mul_assoc] at hle
        refine hle.trans (Nat.mul_le_mul_right _ ?_)
        omega⟩)
  else
    let (text, p) := start b
    ('\ufffd' :: text, p)

/-- A byte, after a prefix or none. -/
def Utf8Prefix.read (p : Option Utf8Prefix) (b : UInt8) : List Char × Option Utf8Prefix :=
  p.elim (start b) (·.next b)

/-- The text that bytes stand for, after a prefix or none. -/
def decodeFrom (p : Option Utf8Prefix) : Bytes → List Char
  | [] => Utf8Prefix.flush p
  | b :: s => (Utf8Prefix.read p b).1 ++ decodeFrom (Utf8Prefix.read p b).2 s

/-- `bytes.decode(errors="replace")`. -/
def decode (s : Bytes) : List Char := decodeFrom none s

/-- `str.encode` of ASCII characters. -/
def encodeAscii (s : List Char) : Bytes := s.map fun c => UInt8.ofNat c.toNat

/-- The characters at which `str.splitlines` ends a line; `\r\n` is one end. -/
def isLineBoundary (c : Char) : Bool :=
  c.toNat ∈ [0xa, 0xb, 0xc, 0xd, 0x1c, 0x1d, 0x1e, 0x85, 0x2028, 0x2029]

/-- The lines of a text that begins with `line`. -/
def splitlinesFrom (line : List Char) : List Char → List (List Char)
  | [] => if line = [] then [] else [line]
  | '\r' :: '\n' :: s => line :: splitlinesFrom [] s
  | c :: s =>
    if isLineBoundary c then line :: splitlinesFrom [] s else splitlinesFrom (line ++ [c]) s

/-- `str.splitlines`. -/
def splitlines (s : List Char) : List (List Char) := splitlinesFrom [] s

/-! ### Decoding -/

variable {p : Option Utf8Prefix} {a s : Bytes} {b : UInt8} {c : Char} {line l t : List Char}

theorem start_of_lt (h : b.toNat < 128) : Utf8Prefix.start b = ([Char.ofNat b.toNat], none) :=
  if_pos h

theorem read_of_lt (h : b.toNat < 128) :
    Utf8Prefix.read p b = (Utf8Prefix.flush p ++ [Char.ofNat b.toNat], none) := by
  rcases p with _ | p
  · exact start_of_lt h
  · -- No byte of a sequence is ASCII.
    have hlow : ¬(p.low ≤ b.toNat ∧ b.toNat ≤ p.high) := fun hb => by
      have := p.low_ge
      omega
    rw [Utf8Prefix.read, Option.elim_some, Utf8Prefix.next, dif_neg hlow, start_of_lt h]
    rfl

/-- An ASCII character ends what is before it. -/
theorem decode_append_cons (h : b.toNat < 128) (a s : Bytes) :
    decode (a ++ b :: s) = decode a ++ Char.ofNat b.toNat :: decode s := by
  have hfrom : ∀ p, decodeFrom p (a ++ b :: s) =
      decodeFrom p a ++ Char.ofNat b.toNat :: decode s := by
    induction a with
    | nil =>
      intro p
      change (Utf8Prefix.read p b).1 ++ decodeFrom (Utf8Prefix.read p b).2 s =
        Utf8Prefix.flush p ++ Char.ofNat b.toNat :: decode s
      rw [read_of_lt h, List.append_assoc]
      rfl
    | cons x a ih =>
      intro p
      rw [List.cons_append, decodeFrom, decodeFrom, ih, List.append_assoc]
  exact hfrom none

theorem decode_of_forall_lt (h : ∀ b ∈ s, b.toNat < 128) :
    decode s = s.map fun b => Char.ofNat b.toNat := by
  induction s with
  | nil => rfl
  | cons b s ih =>
    rw [List.forall_mem_cons] at h
    rw [← List.nil_append (b :: s), decode_append_cons h.1, ih h.2]
    rfl

theorem decode_encodeAscii (h : ∀ c ∈ l, c.toNat < 128) : decode (encodeAscii l) = l := by
  have htoNat : ∀ c ∈ l, (UInt8.ofNat c.toNat).toNat = c.toNat := fun c hc => by
    rw [UInt8.toNat_ofNat', Nat.mod_eq_of_lt (by have := h c hc; omega)]
  rw [encodeAscii, decode_of_forall_lt, List.map_map]
  · refine (List.map_congr_left fun c hc => ?_).trans (List.map_id' l)
    rw [Function.comp_apply, htoNat c hc, Char.ofNat_toNat]
  · simp only [List.forall_mem_map]
    exact fun c hc => (htoNat c hc).trans_lt (h c hc)

theorem eq_of_ofNat_eq {n : ℕ} (hc : c ≠ '\x00') (h : Char.ofNat n = c) : c.toNat = n := by
  by_cases hn : n.isValidChar
  · rw [← h, Char.ofNat, dif_pos hn]
    rfl
  · rw [Char.ofNat, dif_neg hn] at h
    exact absurd h.symm hc

/-- An ASCII character is read where it stands, and only there. -/
theorem mem_read (hc : c.toNat < 128) (hne : c ≠ '\x00') (h : c ∈ (Utf8Prefix.read p b).1) :
    UInt8.ofNat c.toNat = b := by
  have hstart : c ∈ (Utf8Prefix.start b).1 → UInt8.ofNat c.toNat = b := by
    intro h
    unfold Utf8Prefix.start at h
    split_ifs at h
    · rw [eq_of_ofNat_eq hne (List.mem_singleton.1 h).symm, UInt8.ofNat_toNat]
    · split at h
      · exact absurd h List.not_mem_nil
      · exact absurd (List.mem_singleton.1 h ▸ hc) (by decide)
  rcases p with _ | p
  · exact hstart h
  · rw [Utf8Prefix.read, Option.elim_some, Utf8Prefix.next] at h
    split_ifs at h with hb
    · split at h
      · -- The last byte of a sequence: the character is not ASCII.
        rename_i hmore
        have hle := p.le
        rw [hmore, Nat.pow_zero, mul_one] at hle
        have := eq_of_ofNat_eq hne (List.mem_singleton.1 h).symm
        omega
      · exact absurd h List.not_mem_nil
    · rcases List.mem_cons.1 h with rfl | h
      · exact absurd hc (by decide)
      · exact hstart h

theorem mem_of_mem_decode (hc : c.toNat < 128) (hne : c ≠ '\x00') (h : c ∈ decode s) :
    UInt8.ofNat c.toNat ∈ s := by
  have hfrom : ∀ p, c ∈ decodeFrom p s → UInt8.ofNat c.toNat ∈ s := by
    clear h
    induction s with
    | nil =>
      intro p h
      rcases p with _ | p
      · exact absurd h List.not_mem_nil
      · exact absurd (List.mem_singleton.1 h ▸ hc) (by decide)
    | cons b s ih =>
      intro p h
      rcases List.mem_append.1 h with h | h
      · exact mem_read hc hne h ▸ List.mem_cons_self
      · exact List.mem_cons_of_mem _ (ih _ h)
  exact hfrom none h

/-! ### Lines -/

theorem splitlinesFrom_append (h : ∀ c ∈ l, isLineBoundary c = false) (t : List Char) :
    splitlinesFrom line (l ++ t) = splitlinesFrom (line ++ l) t := by
  induction l generalizing line with
  | nil => rw [List.nil_append, List.append_nil]
  | cons c l ih =>
    rw [List.forall_mem_cons] at h
    have hcr : c ≠ '\r' := by
      rintro rfl
      exact absurd h.1 (by decide)
    rw [List.cons_append, splitlinesFrom, if_neg (by simp [h.1]), ih h.2, List.append_assoc]
    · rfl
    · exact fun _ heq => absurd heq hcr

/-- The lines consist of characters of the text. -/
theorem mem_of_mem_splitlinesFrom (h : l ∈ splitlinesFrom line t) (hc : c ∈ l) :
    c ∈ line ∨ c ∈ t := by
  fun_induction splitlinesFrom line t with
  | case1 => exact absurd h List.not_mem_nil
  | case2 line hline => exact .inl (List.mem_singleton.1 h ▸ hc)
  | case3 line t ih =>
    rcases List.mem_cons.1 h with rfl | h
    · exact .inl hc
    · have := ih h
      simp_all
  | case4 line c' t hnot hboundary ih =>
    rcases List.mem_cons.1 h with rfl | h
    · exact .inl hc
    · have := ih h
      simp_all
  | case5 line c' t hnot hboundary ih =>
    have := ih h
    simp only [List.mem_append, List.mem_cons] at this ⊢
    tauto

/-! ### Numbers -/

theorem isDigit_bounds (h : c.isDigit) : 48 ≤ c.toNat ∧ c.toNat ≤ 57 := Char.isDigit_iff_toNat.1 h

theorem isspace_of_isDigit (h : c.isDigit) : isspace c = false := by
  have := isDigit_bounds h
  rw [isspace, decide_eq_false_iff_not]
  simp only [List.mem_cons, List.not_mem_nil, or_false]
  omega

theorem digit?_of_isDigit (h : c.isDigit) : digit? c = some (c.toNat - 48) := by
  have hc := isDigit_bounds h
  rw [digit?, decimalZeros, List.find?_cons_of_pos]
  · rfl
  · rw [decide_eq_true_eq]
    omega

/-- `int` of decimal digits. -/
theorem intOfStr_of_forall_isDigit (hne : l ≠ []) (hl : ∀ c ∈ l, c.isDigit)
    (hlength : l.length ≤ maxStrDigits) :
    intOfStr (String.ofList l) = some (Nat.ofDigitChars 10 l 0 : ℤ) := by
  have hspace : ∀ c ∈ l, isIntSpace c = false := fun c hc => by
    rw [isIntSpace, isspace_of_isDigit (hl c hc), Bool.false_and]
  have hdigits : intDigits l = some (l.map fun c => c.toNat - 48) := by
    have hgroup : l.mapM digit? = some (l.map fun c => c.toNat - 48) :=
      mapM_eq_some_map fun c hc => digit?_of_isDigit (hl c hc)
    have hsplit : l.splitOn '_' = [l] := by
      refine List.splitOn_eq_singleton fun hmem => ?_
      exact absurd (hl _ hmem) (by decide)
    rw [intDigits, hsplit, List.mapM_cons, if_neg hne, hgroup]
    simp
  obtain ⟨c, l', rfl⟩ := List.exists_cons_of_ne_nil hne
  have hc := isDigit_bounds (hl c List.mem_cons_self)
  have htrim : ((c :: l').dropWhile isIntSpace).rdropWhile isIntSpace = c :: l' := by
    rw [List.dropWhile_cons_of_neg (by simp [hspace c List.mem_cons_self]),
      List.rdropWhile_eq_self_iff]
    intro hne
    simp [hspace _ (List.getLast_mem hne)]
  -- A digit is not a sign.
  have hsign : c ≠ '+' ∧ c ≠ '-' := by
    constructor <;> rintro rfl <;> exact absurd hc.1 (by decide)
  rw [intOfStr, String.toList_ofList, htrim]
  dsimp only
  split
  · rename_i heq
    exact absurd (List.cons.inj heq).1 hsign.1
  · rename_i heq
    exact absurd (List.cons.inj heq).1 hsign.2
  · rw [hdigits, Option.bind_some, if_pos (by simpa using hlength), Option.map_some,
      Nat.ofDigitChars_eq_foldl, List.foldl_map]
    rfl

end Yuviz.Python
