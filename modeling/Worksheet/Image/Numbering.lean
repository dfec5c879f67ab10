import Worksheet.Image
import Worksheet.Rule

/-!
# Image numbers

The numbers of the images of a document are distinct, start at a first number
and increase by one. A finding about a number points at the last image that has
it.

* `Numbering.numbered` gives the images with their numbers;
* `Numbering.duplicates`, `Numbering.wrongStart` and `Numbering.gaps` say what is
  wrong with a list of numbers;
* `Numbering.findings` turns this into findings.
-/

namespace Worksheet.Numbering

/-- The images that have a number, with it. -/
def numbered : List Image → Except Fault (List (Nat × Image))
  | [] => .ok []
  | i :: is => do
    match ← Image.number i.src with
    | none => numbered is
    | some n => return (n, i) :: (← numbered is)

/-- The last image with a number. -/
def lastWith? (numbers : List (Nat × Image)) (n : Nat) : Option Image :=
  (numbers.reverse.find? (·.1 = n)).map (·.2)

/-- What can be wrong with the numbers of images. -/
inductive Problem where
  /-- A number is used more than once. -/
  | duplicate (n count : Nat)
  /-- The lowest number is not the first one. -/
  | wrongStart (n : Nat)
  /-- A number does not follow the one before it. -/
  | gap (previous n : Nat)
deriving DecidableEq, Repr

/-- The numbers in ascending order. -/
def ordered (numbers : List Nat) : List Nat := numbers.mergeSort (· ≤ ·)

/-- The numbers in ascending order, each once. -/
def distinct : List Nat → List Nat
  | [] => []
  | [n] => [n]
  | m :: n :: rest => if m = n then distinct (n :: rest) else m :: distinct (n :: rest)

/-- The numbers that are used more than once. -/
def duplicates (numbers : List Nat) : List Problem :=
  ((distinct (ordered numbers)).filter fun n => 1 < numbers.count n).map fun n =>
    .duplicate n (numbers.count n)

/-- Whether the lowest number is not the first one. -/
def wrongStart (first : Int) (numbers : List Nat) : List Problem :=
  match (ordered numbers).head? with
  | none => []
  | some n => if (n : Int) = first then [] else [.wrongStart n]

/-- The places in a list of numbers where the next one does not follow. -/
def gapsIn : List Nat → List Problem
  | [] => []
  | [_] => []
  | m :: n :: rest => (if n = m + 1 then [] else [.gap m n]) ++ gapsIn (n :: rest)

/-- The places in the ascending numbers where the next one does not follow. -/
def gaps (numbers : List Nat) : List Problem := gapsIn (ordered numbers)

/-- What is wrong with numbers, in the order in which it is reported. -/
def problems (first : Int) (numbers : List Nat) : List Problem :=
  duplicates numbers ++ wrongStart first numbers ++ gaps numbers

namespace Problem

/-- The number that a problem is about. -/
def subject : Problem → Nat
  | duplicate n _ | wrongStart n | gap _ n => n

/-- How bad a problem is. -/
def severity : Problem → Severity
  | duplicate .. => .error
  | _ => .warning

/-- The kind of finding for a problem. -/
def code : Problem → Code
  | duplicate .. => .imageDuplicateNumber
  | wrongStart _ => .imageNumberStart
  | gap .. => .imageNumberGap

/-- The message for a problem; numbers are padded but for duplicates. -/
def message (s : ImageSettings) : Problem → Except Fault Text
  | duplicate n count =>
    return lit "Duplicate image number: " ++ (← writeInteger n) ++ lit " is used " ++
      decimal count ++ lit " times"
  | wrongStart n =>
    return lit "Image numbering should start with " ++ (← zeroPad s.firstNumber s.numberWidth) ++
      lit ", found " ++ (← zeroPad n s.numberWidth)
  | gap previous n =>
    return lit "Image numbering is not sequential. Expected " ++
      (← zeroPad (previous + 1) s.numberWidth) ++ lit ", found " ++ (← zeroPad n s.numberWidth)

end Problem

/-- The finding for a problem. -/
def finding (s : Settings) (numbers : List (Nat × Image)) (p : Problem) :
    Except Fault Diagnostic := do
  let message ← p.message s.images
  let image := (lastWith? numbers p.subject).getD ⟨[], [], 0, false⟩
  let span ← checkedSpan image.start image.stop
  return {
    severity := p.severity
    code := p.code
    message
    source := s.source
    rule := Images.ruleName
    start := span.1
    stop := span.2 }

/-- The findings about the numbers of images. -/
def findings (images : List Image) (s : Settings) : Except Fault (List Diagnostic) := do
  let numbers ← numbered images
  (problems s.images.firstNumber (numbers.map (·.1))).mapM (finding s numbers)

end Worksheet.Numbering
