import Mathlib
import Yuviz.Python.Json
import Yuviz.Python.Scan

/-!
# Templates

The prompts and lines of a workflow refer to variables, `{{ name }}` or
`{{ name | fallback }}`. A second pattern catches any other use of the braces,
which the agent would otherwise read out.
-/

namespace Yuviz.Config

open Python

def isNameStart (c : Char) : Bool := c.isAlpha || c = '_'

def isNameChar (c : Char) : Bool := c.isAlphanum || c = '_'

/-- `_TEMPLATE_RE`, matched at the head of a text: the name, the fallback if there
    is one, and the length of the match. -/
def templateRe : List Char → Option ((String × Option String) × ℕ)
  | '\x7b' :: '\x7b' :: s =>
    let s₁ := s.dropWhile isspace
    if s₁.head?.any isNameStart then
      let s₂ := (s₁.dropWhile isNameChar).dropWhile isspace
      let (fallback, s₃) := match s₂ with
        | '|' :: t => (some (String.ofList (t.takeWhile (· ≠ '\x7d'))), t.dropWhile (· ≠ '\x7d'))
        | _ => (none, s₂)
      match s₃ with
      | '\x7d' :: '\x7d' :: rest =>
        some ((String.ofList (s₁.takeWhile isNameChar), fallback), s.length + 2 - rest.length)
      | _ => none
    else none
  | _ => none

/-- `_ANY_BRACES_RE`: the text of the match, and its length. -/
def anyBracesRe : List Char → Option (String × ℕ)
  | '\x7b' :: '\x7b' :: s =>
    let closing := ((s.dropWhile (· ≠ '\x7d')).take 2).takeWhile (· = '\x7d')
    let chunk := '\x7b' :: '\x7b' :: s.takeWhile (· ≠ '\x7d') ++ closing
    some (String.ofList chunk, chunk.length)
  | _ => none

def templateVariables (text : String) : Finset String :=
  ((findall templateRe text.toList).map Prod.fst).toFinset

/-- `_TEMPLATE_RE.fullmatch`. -/
def isTemplate (chunk : String) : Bool :=
  (templateRe chunk.toList).any fun m => m.2 = chunk.length

def malformedTemplates (text : String) : List String :=
  (findall anyBracesRe text.toList).filter (!isTemplate ·)

/-- Neither `None` nor the empty string. -/
def hasValue : Option Json → Bool
  | none | some .null | some (.str "") => false
  | _ => true

/-- What a placeholder is replaced by. -/
def renderMatch [Runtime] (vars : Dict String Json) (m : String × Option String) : String :=
  match vars.get? m.1 with
  | none | some .null | some (.str "") => stripStr (m.2.getD "")
  | some value => value.toStr

def render [Runtime] (text : String) (vars : Dict String Json) : String :=
  String.ofList (unmatched anyBracesRe
    (sub templateRe (fun m => (renderMatch vars m).toList) text.toList))

end Yuviz.Config
