import DynamoExpr.Numeral.Decimal
import DynamoExpr.Text

/-!
# Paths

A path leads from a top-level attribute into a document by attribute names and list indexes.  The
type is parametric in what stands for a name: the name itself, or the number of its alias.  The text
of a path is one or more segments joined by points.  A segment is a name without points and brackets,
and after it any number of indexes in brackets.
-/

namespace DynamoExpr

inductive PathStep (ν : Type) where
  | attribute (name : ν)
  | index (i : Nat)
deriving DecidableEq

/-- A top-level attribute and the steps from there. -/
structure Path (ν : Type) where
  head : ν
  tail : List (PathStep ν)
deriving DecidableEq

abbrev AttributePath := Path String

variable {ν μ : Type}

def PathStep.traverse {m : Type → Type} [Monad m] (f : ν → m μ) : PathStep ν → m (PathStep μ)
  | .attribute name => do return .attribute (← f name)
  | .index i => pure (.index i)

namespace Path

def steps (path : Path ν) : List (PathStep ν) := .attribute path.head :: path.tail

def names (path : Path ν) : List ν :=
  path.steps.filterMap fun
    | .attribute name => some name
    | .index _ => none

/-- Replaces the names from left to right. -/
def traverse {m : Type → Type} [Monad m] (f : ν → m μ) (path : Path ν) : m (Path μ) := do
  let head ← f path.head
  let tail ← path.tail.mapM (PathStep.traverse f)
  return ⟨head, tail⟩

end Path

def PathStep.display : PathStep String → String
  | .attribute name => "." ++ name
  | .index i => "[" ++ toString i ++ "]"

def Path.display (path : AttributePath) : String :=
  path.head ++ "".intercalate (path.tail.map PathStep.display)

/-! ## Reading paths -/

inductive PathFault where
  | emptyName
  | strayClose
  | afterIndex
  | unclosed
  | indexDigits
  | indexRange
deriving DecidableEq

def PathFault.message : PathFault → String
  | .emptyName => "empty attribute name"
  | .strayClose => "unbalanced ']'"
  | .afterIndex => "unexpected characters after list index"
  | .unclosed => "unclosed '['"
  | .indexDigits => "list index must be a non-negative integer"
  | .indexRange => "list index out of range"

inductive NameError where
  | emptyPath
  | malformed (text : String) (fault : PathFault)
  | emptyKey
deriving DecidableEq

def NameError.message : NameError → String
  | .emptyPath => "attribute path must not be empty"
  | .malformed text fault => "invalid path " ++ Text.quote text ++ ": " ++ fault.message
  | .emptyKey => "key attribute name must not be empty"

namespace Path

/-- The pieces between the occurrences of a character; one more than there are occurrences. -/
def pieces (separator : Char) : List Char → List (List Char)
  | [] => [[]]
  | c :: rest =>
    if c = separator then [] :: pieces separator rest
    else
      match pieces separator rest with
      | [] => [[c]]
      | piece :: more => (c :: piece) :: more

/-- One more than the greatest index. -/
def indexLimit : Nat := Nat.pow 2 64

def readIndex (digits : List Char) : Except PathFault Nat :=
  if digits = [] ∨ ¬ digits.all Char.isDigit then .error .indexDigits
  else if Numeral.digitsValue digits < indexLimit then .ok (Numeral.digitsValue digits)
  else .error .indexRange

/--
Reads the indexes of a segment from the pieces between closing brackets.  Every piece but the last
is an opening bracket with an index; the last is what follows the last closing bracket.
-/
def readIndexes : List (List Char) → Except PathFault (List Nat)
  | [] => .ok []
  | ['[' :: _] => .error .unclosed
  | [_ :: _] => .error .afterIndex
  | [[]] => .ok []
  | ('[' :: digits) :: more => do
    let i ← readIndex digits
    let is ← readIndexes more
    .ok (i :: is)
  | _ => .error .afterIndex

def readSegment (segment : List Char) : Except PathFault (String × List Nat) :=
  let name := segment.takeWhile (· != '[')
  if name = [] then .error .emptyName
  else if ']' ∈ name then .error .strayClose
  else
    (readIndexes (pieces ']' (segment.dropWhile (· != '[')))).map fun indexes =>
      (String.ofList name, indexes)

def readSegments : List (List Char) → Except PathFault (List (String × List Nat))
  | [] => .ok []
  | segment :: rest => do
    let first ← readSegment segment
    let others ← readSegments rest
    .ok (first :: others)

def segmentSteps (segment : String × List Nat) : List (PathStep String) :=
  .attribute segment.1 :: segment.2.map .index

def read (text : String) : Except NameError AttributePath :=
  if text = "" then .error .emptyPath
  else
    match readSegments (pieces '.' text.toList) with
    | .error fault => .error (.malformed text fault)
    | .ok [] => .error .emptyPath
    | .ok ((name, indexes) :: rest) =>
      .ok ⟨name, indexes.map .index ++ rest.flatMap segmentSteps⟩

/-- The path of a key attribute, whose name is taken as it stands. -/
def ofKey (name : String) : Except NameError AttributePath :=
  if name = "" then .error .emptyKey else .ok ⟨name, []⟩

end Path

/--
A path as an operand.  One whose text is at fault remembers that, and the expression that holds it
does not build.
-/
inductive NameRef where
  | path (path : AttributePath)
  | faulty (error : NameError)
deriving DecidableEq

namespace NameRef

def ofExcept : Except NameError AttributePath → NameRef
  | .ok p => .path p
  | .error e => .faulty e

def ofText (text : String) : NameRef := ofExcept (Path.read text)

def ofKey (name : String) : NameRef := ofExcept (Path.ofKey name)

def path? : NameRef → Except NameError AttributePath
  | .path p => .ok p
  | .faulty e => .error e

end NameRef

end DynamoExpr
