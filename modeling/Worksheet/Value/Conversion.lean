import Worksheet.Value.Shown

/-!
# Reading values

What a value counts as when something else is expected in its place:

* `Value.truth`: a truth value. Nothing, zero and everything empty count as
  false;
* `Value.toInteger`: a whole number, cut off at the decimal point or read from a
  text;
* `Value.elements`: a list. A text has its characters as elements, a mapping its
  keys;
* `Value.part`: a mapping, of which one key is looked up.
-/

namespace Worksheet.Value

/-- What a value counts as when a truth value is expected. -/
def truth : Value → Bool
  | null => false
  | bool b => b
  | int i => i != 0
  | real x => x.nonzero
  | text t => !t.isEmpty
  | codes cs => !cs.isEmpty
  | bytes bs => !bs.isEmpty
  | list vs | set vs => !vs.isEmpty
  | map es => !es.isEmpty
  | again _ v => v.truth
  | date _ | moment _ | pair _ _ => true

/-- What a value counts as when a whole number is expected. -/
def toInteger (v : Value) : Except Fault Int :=
  match v with
  | int i => .ok i
  | bool b => .ok (if b then 1 else 0)
  | real x =>
    match x with
    | .nan => .error .notANumber
    | .infinite _ => .error .infiniteNumber
    | .finite .. => .ok (x.truncate?.getD 0)
  | text t => readInteger t
  | codes cs => .error (.malformedInteger 10 (quotedCodes cs))
  | bytes bs =>
    let malformed := Fault.malformedInteger 10 (quotedBytes bs)
    if bs.any (128 ≤ ·) then .error malformed
    else match readInteger (bs.map fun b => Char.ofNat b.toNat) with
    | .error (.malformedInteger ..) => .error malformed
    | result => result
  | _ => .error (.notNumeric v.fullTypeName)

/-- A text of one character, which is given by its code. -/
def ofCode (n : Nat) : Value :=
  match charOf? n with
  | some c => text [c]
  | none => codes [n]

/-- The elements of a value when a list is expected. -/
def elements (v : Value) : Except Fault (List Value) :=
  match v with
  | list vs | set vs => .ok (vs.map bare)
  | pair a b => .ok [a.bare, b.bare]
  | text t => .ok (t.map fun c => text [c])
  | codes cs => .ok (cs.map ofCode)
  | bytes bs => .ok (bs.map fun b => int b.toNat)
  | map es => .ok (es.map (·.1))
  | _ => .error (.notIterable v.fullTypeName)

/-- The value of a key when a mapping is expected. -/
def part (v : Value) (key : Text) : Except Fault Value :=
  match v with
  | map es =>
    match Entries.field? es key with
    | some w => .ok w.bare
    | none => .error (.missingKey key)
  | list _ => .error (.numberedParts (lit "list indices must be integers or slices, not str"))
  | pair _ _ => .error (.numberedParts (lit "tuple indices must be integers or slices, not str"))
  | bytes _ => .error (.numberedParts (lit "byte indices must be integers or slices, not str"))
  | text _ | codes _ =>
    .error (.numberedParts (lit "string indices must be integers, not 'str'"))
  | _ => .error (.notSubscriptable v.fullTypeName)

end Worksheet.Value
