import Yuviz.Python.Dict
import Yuviz.Python.Str
import Mathlib.Data.Finset.Basic
import Mathlib.Data.List.Sort
import Mathlib.Data.Rat.Defs
import Mathlib.Data.String.Basic

/-!
# The values of a JSON document

What `json.loads` returns, and what Python's built-in functions and operators
make of it. They agree on less than it may seem: `1`, `1.0` and `True` are
equal, and so are two objects with the same fields in another order, but `str`
tells them apart.
-/

namespace Yuviz.Python

/-- What the language leaves to its implementation: the Unicode tables, and the
    order in which a set of strings is gone through. -/
class Runtime where
  /-- `str.lower`. -/
  lower : String → String
  /-- `str.isprintable` of one character. -/
  isprintable : Char → Bool
  order : Finset String → List String
  mem_order : ∀ s x, x ∈ order s ↔ x ∈ s

/-- `sorted(s)` of a set of strings. -/
def sorted (s : Finset String) : List String :=
  Quot.liftOn s.1 (List.insertionSort (· ≤ ·)) fun l l' h =>
    ((List.perm_insertionSort _ l).trans
      (h.trans (List.perm_insertionSort _ l').symm)).eq_of_pairwise'
      (List.pairwise_insertionSort _ l) (List.pairwise_insertionSort _ l')

theorem mem_sorted_iff {s : Finset String} {x : String} : x ∈ sorted s ↔ x ∈ s := by
  obtain ⟨⟨l⟩, hs⟩ := s
  exact List.mem_insertionSort _

/-- An implementation that knows the ASCII letters, and keeps its sets sorted. -/
@[reducible] def Runtime.ascii : Runtime where
  lower s := String.ofList (s.toList.map Char.toLower)
  isprintable _ := true
  order := sorted
  mem_order _ _ := mem_sorted_iff

inductive Json
  | null
  | bool (b : Bool)
  | int (n : ℤ)
  /-- A number with a fraction or an exponent: its value (or an infinity, negative
      or not, when it exceeds the range of a double) and the text `str` has for it. -/
  | float (value : ℚ ⊕ Bool) (text : String)
  | str (s : String)
  | arr (items : List Json)
  | obj (fields : List (String × Json))

theorem mapM_eq_some_map {α β : Type} {f : α → Option β} {g : α → β} {l : List α}
    (h : ∀ a ∈ l, f a = some (g a)) : l.mapM f = some (l.map g) := by
  induction l with
  | nil => rfl
  | cons a l ih =>
    rw [List.forall_mem_cons] at h
    rw [List.mapM_cons, h.1, ih h.2]
    rfl

/-- The value of one decimal digit. -/
def digit? (c : Char) : Option ℕ :=
  (decimalZeros.find? fun z => z ≤ c.toNat ∧ c.toNat < z + 10).map (c.toNat - ·)

/-- The spaces `int` removes: those of `str.strip`, but for the four separators. -/
def isIntSpace (c : Char) : Bool := isspace c && !(0x1c ≤ c.toNat && c.toNat ≤ 0x1f)

/-- The digits of an unsigned literal, in groups separated by an underscore. -/
def intDigits (s : List Char) : Option (List ℕ) :=
  ((s.splitOn '_').mapM fun group => if group = [] then none else group.mapM digit?).map
    List.flatten

/-- The longest literal `int` accepts. -/
def maxStrDigits : ℕ := 4300

/-- `int(s)`, where `none` is a `ValueError`. -/
def intOfStr (s : String) : Option ℤ :=
  let s := (s.toList.dropWhile isIntSpace).rdropWhile isIntSpace
  let unsigned := fun s => (intDigits s).bind fun ds =>
    if ds.length ≤ maxStrDigits then some (ds.foldl (fun n d => 10 * n + d) 0) else none
  match s with
  | '+' :: s => (unsigned s).map Int.ofNat
  | '-' :: s => (unsigned s).map fun n => -Int.ofNat n
  | s => (unsigned s).map Int.ofNat

/-- The digits of an escape sequence. -/
def hex (width n : ℕ) : String :=
  let ds := Nat.toDigits 16 n
  String.ofList (List.replicate (width - ds.length) '0' ++ ds)

section

variable [Runtime]

/-- What `repr` writes for one character between the quotes `quote`. -/
def reprChar (quote c : Char) : String :=
  if c = quote ∨ c = '\\' then "\\" ++ String.singleton c
  else if c = '\n' then "\\n"
  else if c = '\r' then "\\r"
  else if c = '\t' then "\\t"
  else if (c.toNat < 0x7f ∧ 0x20 ≤ c.toNat) ∨ (0x7f < c.toNat ∧ Runtime.isprintable c) then
    String.singleton c
  else if c.toNat < 0x100 then "\\x" ++ hex 2 c.toNat
  else if c.toNat < 0x10000 then "\\u" ++ hex 4 c.toNat
  else "\\U" ++ hex 8 c.toNat

/-- `repr(s)` of a string. -/
def quoted (s : String) : String :=
  let quote := if '\'' ∈ s.toList ∧ '"' ∉ s.toList then '"' else '\''
  String.singleton quote ++ String.join (s.toList.map (reprChar quote)) ++ String.singleton quote

mutual

/-- `repr(x)`. -/
def Json.repr : Json → String
  | .null => "None"
  | .bool true => "True"
  | .bool false => "False"
  | .int n => toString n
  | .float _ text => text
  | .str s => quoted s
  | .arr items => "[" ++ ", ".intercalate (reprItems items) ++ "]"
  | .obj fields => "\x7b" ++ ", ".intercalate (reprFields fields) ++ "\x7d"

def Json.reprItems : List Json → List String
  | [] => []
  | x :: xs => x.repr :: reprItems xs

def Json.reprFields : List (String × Json) → List String
  | [] => []
  | (k, v) :: xs => (quoted k ++ ": " ++ v.repr) :: reprFields xs

end

end

/-- `\u` and the code unit. -/
def unicodeEscape (n : ℕ) : String := "\\u" ++ hex 4 n

/-- What `json.dumps` writes for one character of a string. -/
def dumpsChar (c : Char) : String :=
  if c = '"' then "\\\""
  else if c = '\\' then "\\\\"
  else if c = '\n' then "\\n"
  else if c = '\r' then "\\r"
  else if c = '\t' then "\\t"
  else if c.toNat = 0x8 then "\\b"
  else if c.toNat = 0xc then "\\f"
  else if 0x20 ≤ c.toNat ∧ c.toNat < 0x7f then String.singleton c
  else if c.toNat < 0x10000 then unicodeEscape c.toNat
  else
    let n := c.toNat - 0x10000
    unicodeEscape (0xd800 + n / 0x400) ++ unicodeEscape (0xdc00 + n % 0x400)

def dumpsStr (s : String) : String := "\"" ++ String.join (s.toList.map dumpsChar) ++ "\""

mutual

/-- `json.dumps(x)`. -/
def Json.dumps : Json → String
  | .null => "null"
  | .bool true => "true"
  | .bool false => "false"
  | .int n => toString n
  | .float (.inr negative) _ => if negative then "-Infinity" else "Infinity"
  | .float (.inl _) text => text
  | .str s => dumpsStr s
  | .arr items => "[" ++ ", ".intercalate (dumpsItems items) ++ "]"
  | .obj fields => "\x7b" ++ ", ".intercalate (dumpsFields fields) ++ "\x7d"

def Json.dumpsItems : List Json → List String
  | [] => []
  | x :: xs => x.dumps :: dumpsItems xs

def Json.dumpsFields : List (String × Json) → List String
  | [] => []
  | (k, v) :: xs => (dumpsStr k ++ ": " ++ v.dumps) :: dumpsFields xs

end

namespace Json

/-- `str(x)`. -/
def toStr [Runtime] : Json → String
  | .str s => s
  | x => x.repr

/-- `bool(x)`. -/
def truthy : Json → Bool
  | .null => false
  | .bool b => b
  | .int n => n ≠ 0
  | .float value _ => value ≠ .inl 0
  | .str s => s ≠ ""
  | .arr items => !items.isEmpty
  | .obj fields => !fields.isEmpty

/-- The value of what Python takes as a number in a comparison. -/
def number : Json → Option (ℚ ⊕ Bool)
  | .bool b => some (.inl (if b then 1 else 0))
  | .int n => some (.inl n)
  | .float value _ => some value
  | _ => none

mutual

/-- `x == y`. -/
def eq : Json → Json → Bool
  | .null, .null => true
  | .str s, .str t => s = t
  | .arr xs, .arr ys => eqItems xs ys
  | .obj xs, .obj ys => eqFields xs ys && ys.all fun f => f.1 ∈ xs.map Prod.fst
  | x, y => x.number.isSome && x.number = y.number

def eqItems : List Json → List Json → Bool
  | [], [] => true
  | x :: xs, y :: ys => eq x y && eqItems xs ys
  | _, _ => false

def eqFields : List (String × Json) → Dict String Json → Bool
  | [], _ => true
  | (k, v) :: xs, ys =>
    (match ys.get? k with
      | some w => eq v w
      | none => false) && eqFields xs ys

end

inductive IntError
  | valueError
  | typeError
  | overflowError
  deriving DecidableEq, Repr

/-- `int(x)`. -/
def toInt : Json → Except IntError ℤ
  | .bool b => .ok (if b then 1 else 0)
  | .int n => .ok n
  | .float (.inl q) _ => .ok (q.num.tdiv q.den)
  | .float (.inr _) _ => .error .overflowError
  | .str s => (intOfStr s).elim (.error .valueError) .ok
  | .null | .arr _ | .obj _ => .error .typeError

/-- `raw.get(key)`. -/
def get (raw : Dict String Json) (key : String) : Json := (raw.get? key).getD .null

/-- `str(x or default)`. -/
def strOr [Runtime] (x : Json) (default : String) : String :=
  if x.truthy then x.toStr else default

end Json

end Yuviz.Python
