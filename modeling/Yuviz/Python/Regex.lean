import Yuviz.Python.Scan
import Yuviz.Python.Str

/-!
# Regular expressions

What a pattern matches from a position of a text on, in the order in which a
backtracking matcher tries it: the first alternative before the second, and
more before less. Words are bounded by the characters of `\w`, which are given.
-/

namespace Yuviz.Python

inductive Regex
  /-- One character of a class. -/
  | char (p : Char → Bool)
  /-- `\b`. -/
  | boundary
  /-- Any number of characters of a class, as many as possible. -/
  | many (p : Char → Bool)
  | seq (r s : Regex)
  | alt (r s : Regex)
  | optional (r : Regex)

namespace Regex

/-- A position in a text. -/
structure Position where
  before : Option Char
  rest : List Char

/-- Where `many p` may end. -/
def runMany (p : Char → Bool) : Option Char → List Char → List Position
  | before, [] => [⟨before, []⟩]
  | before, c :: s => if p c then runMany p (some c) s ++ [⟨before, c :: s⟩] else [⟨before, c :: s⟩]

/-- Where a match may end, in the order of preference. -/
def run (isWord : Char → Bool) : Regex → Position → List Position
  | char _, ⟨_, []⟩ => []
  | char p, ⟨_, c :: s⟩ => if p c then [⟨some c, s⟩] else []
  | boundary, x => if x.before.any isWord ≠ x.rest.head?.any isWord then [x] else []
  | many p, x => runMany p x.before x.rest
  | seq r s, x => (r.run isWord x).flatMap (s.run isWord)
  | alt r s, x => r.run isWord x ++ s.run isWord x
  | optional r, x => r.run isWord x ++ [x]

/-- A text, each character with the one before. -/
def cells (s : List Char) : List (Option Char × Char) := (none :: s.map some).zip s

theorem cells_map_snd (l : List Char) : (cells l).map Prod.snd = l := by
  rw [cells, List.map_snd_zip]
  simp

/-- The match of the pattern at the head of the text, and its length. -/
def matchAt (isWord : Char → Bool) (r : Regex) :
    List (Option Char × Char) → Option (List Char × ℕ)
  | [] => none
  | cells@((before, _) :: _) =>
    let s := cells.map Prod.snd
    (r.run isWord ⟨before, s⟩).head?.map fun e =>
      let n := s.length - e.rest.length
      (s.take n, n)

/-- `re.search`. -/
def search (isWord : Char → Bool) (r : Regex) (s : List Char) : Bool :=
  ((cells s).tails.filterMap (r.matchAt isWord)).head?.isSome

/-- `re.findall`: the matches. -/
def findall (isWord : Char → Bool) (r : Regex) (s : List Char) : List (List Char) :=
  Python.findall (r.matchAt isWord) (cells s)

/-- `re.sub`. -/
def sub (isWord : Char → Bool) (r : Regex) (repl s : List Char) : List Char :=
  (scan (r.matchAt isWord) 0 (cells s)).flatMap (Sum.elim (fun c => [c.2]) fun _ => repl)

/-- `re.split`. -/
def split (isWord : Char → Bool) (r : Regex) (s : List Char) : List (List Char) :=
  (Python.split (r.matchAt isWord) (cells s)).map fun l => l.map Prod.snd

theorem matchAt_eq_none {isWord : Char → Bool} {r : Regex} {l : List (Option Char × Char)}
    (h : ∀ x : Position, x.rest = l.map Prod.snd → r.run isWord x = []) :
    r.matchAt isWord l = none := by
  cases l with
  | nil => rfl
  | cons cell l => rw [matchAt, h _ rfl, List.head?_nil, Option.map_none]

/-- A text is left whole where no part of it matches. -/
theorem split_eq_singleton {isWord : Char → Bool} {r : Regex} {s : List Char}
    (h : ∀ x : Position, x.rest <:+ s → r.run isWord x = []) : r.split isWord s = [s] := by
  rw [split, Python.split_eq_singleton, List.map_singleton, cells_map_snd]
  intro l hl
  refine matchAt_eq_none fun x hx => h x ?_
  rw [hx, ← cells_map_snd s]
  exact hl.map Prod.snd

/-- What `many p` takes is of the class. -/
theorem mem_runMany {p : Char → Bool} {before : Option Char} {s : List Char} {e : Position}
    (h : e ∈ runMany p before s) : ∃ w, s = w ++ e.rest ∧ ∀ c ∈ w, p c := by
  induction s generalizing before with
  | nil =>
    obtain rfl := List.mem_singleton.1 h
    exact ⟨[], rfl, nofun⟩
  | cons c s ih =>
    rw [runMany] at h
    split_ifs at h with hc
    · rcases List.mem_append.1 h with h | h
      · obtain ⟨w, rfl, hw⟩ := ih h
        exact ⟨c :: w, rfl, List.forall_mem_cons.2 ⟨hc, hw⟩⟩
      · obtain rfl := List.mem_singleton.1 h
        exact ⟨[], rfl, nofun⟩
    · obtain rfl := List.mem_singleton.1 h
      exact ⟨[], rfl, nofun⟩

/-- What can be read of the parts of a text, if the text parts where it matches. -/
theorem flatMap_split {γ : Type*} {isWord : Char → Bool} {r : Regex} {f : List Char → List γ}
    (h : ∀ x e, e ∈ r.run isWord x → ∃ w, x.rest = w ++ e.rest ∧ w ≠ [] ∧
      ∀ s, f (s ++ (w ++ e.rest)) = f s ++ f e.rest) (s : List Char) :
    (r.split isWord s).flatMap f = f s := by
  rw [split, List.flatMap_map, Python.flatMap_split fun l m n hl hmatch => ?_, cells_map_snd]
  obtain ⟨⟨before, c⟩, l, rfl⟩ := List.exists_cons_of_ne_nil hl
  rw [matchAt] at hmatch
  obtain ⟨e, he, heq⟩ := Option.map_eq_some_iff.1 hmatch
  obtain ⟨w, hrest, hne, hf⟩ := h _ e (List.mem_of_mem_head? he)
  have hrest : ((before, c) :: l).map Prod.snd = w ++ e.rest := hrest
  obtain rfl : w.length = n := by
    have hn : (((before, c) :: l).map Prod.snd).length - e.rest.length = n := congrArg Prod.snd heq
    rwa [hrest, List.length_append, Nat.add_sub_cancel] at hn
  refine ⟨by simpa using hne, fun x => ?_⟩
  rw [List.map_append, List.map_drop, hrest, hf, List.drop_left]

/-! ### Patterns -/

/-- All in turn. -/
def all : List Regex → Regex
  | [] => many fun _ => false
  | [r] => r
  | r :: rs => seq r (all rs)

/-- Any of them. -/
def any : List Regex → Regex
  | [] => char fun _ => false
  | [r] => r
  | r :: rs => alt r (any rs)

/-- A character, where case is ignored: the letters that are not ASCII are those that
    have an ASCII letter for their lower case, or are taken for one. -/
def eqIgnoreCase (c x : Char) : Bool :=
  x.toLower = c || (c = 'i' && x.toNat ∈ [0x130, 0x131]) || (c = 's' && x.toNat = 0x17f) ||
    (c = 'k' && x.toNat = 0x212a)

/-- A text of lower-case letters, where case is ignored. -/
def word (s : String) : Regex := all (s.toList.map fun c => char (eqIgnoreCase c))

/-- `\d`. -/
def digit : Regex := char isdecimal

/-- `[a-b]`. -/
def range (a b : Char) : Regex := char fun c => a ≤ c && c ≤ b

/-- `\s*`. -/
def spaces : Regex := many isspace

end Regex

end Yuviz.Python
