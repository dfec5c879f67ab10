import Worksheet.Value

/-!
# Sets

A set keeps its elements in a table whose size is a power of two. The place of an
element starts from a number, its `residue`: the place is that number modulo the
size, and where it is taken another one is looked for. Elements are listed by their
places, so that numbers stand in an order of their own.

* `Value.setOf` is the set with given elements. If they are not all numbers they
  stay in the order in which they are given.
-/

namespace Worksheet.Value

/-- The prime number modulo which numbers are taken. -/
def residueBase : Nat := Nat.pow 2 61 - 1

/-- The residue of a fraction `m · 2 ^ (e - 1074)`, where `2 ^ 61` counts as one. -/
def binaryResidue (m e : Nat) : Nat :=
  m * Nat.pow 2 ((e + 61 * 18 - 1074) % 61) % residueBase

/-- A residue with the sign of a number, as a word of 64 bits. -/
def residueWord (negative : Bool) (n : Nat) : Nat :=
  let i : Int := if negative then -n else n
  ((if i = -1 then -2 else i) % Nat.pow 2 64).toNat

/-- The number from which the place of an element starts, if it is a number. -/
def residue? : Value → Option Nat
  | bool b => some (if b then 1 else 0)
  | int i => some (residueWord (decide (i < 0)) (i.natAbs % residueBase))
  | real (.finite s m e) => some (residueWord s (binaryResidue m e))
  | real (.infinite s) => some (residueWord s 314159)
  | _ => none

/-- A table: at every place there is an element with its residue, or nothing. -/
abbrev Places := Array (Option (Value × Nat))

namespace Places

/-- The number of places after a taken one that are tried next. -/
def neighbours : Nat := 9

/-- The first free place among `count` places from one on. -/
def free? (ps : Places) : (count place : Nat) → Option Nat
  | 0, _ => none
  | count + 1, place =>
    if (ps[place]?).any Option.isNone then some place else ps.free? count (place + 1)

/-- A free place for an element. Where all neighbours are taken, `shift` tells how
far away the search goes on. -/
def find (ps : Places) : (fuel place shift : Nat) → Nat
  | 0, place, _ => place
  | fuel + 1, place, shift =>
    let count := if place + neighbours < ps.size then neighbours + 1 else 1
    match ps.free? count place with
    | some place => place
    | none =>
      let shift := shift / 32
      ps.find fuel ((place * 5 + 1 + shift) % ps.size) shift

/-- The table with one more element. -/
def put (ps : Places) (e : Value × Nat) : Places :=
  ps.setIfInBounds (ps.find (ps.size + 16) (e.2 % ps.size) e.2) (some e)

/-- The elements by their places. -/
def elements (ps : Places) : List (Value × Nat) := ps.toList.filterMap id

/-- The smallest size above a number that is reached by doubling. -/
def sizeAbove (n : Nat) : (fuel size : Nat) → Nat
  | 0, size => size
  | fuel + 1, size => if n < size then size else sizeAbove n fuel (2 * size)

/-- The table with its elements put into more than `n` places. -/
def resize (ps : Places) (n : Nat) : Places :=
  ps.elements.foldl put (Array.replicate (sizeAbove n n 8) none)

/-- Whether a table with `count` elements needs more places. -/
def isFull (ps : Places) (count : Nat) : Bool := (ps.size - 1) * 3 ≤ count * 5

/-- The number of elements up to which a table grows fourfold, and not twofold. -/
def largeCount : Nat := 50000

/-- The table with one more element, in more places if it is full then. -/
def insert (ps : Places) (e : Value × Nat) : Places :=
  let ps := ps.put e
  let count := ps.elements.length
  if ps.isFull count then ps.resize (if largeCount < count then count * 2 else count * 4) else ps

/-- The table of elements, for whose number there is room from the start. -/
def ofList (es : List (Value × Nat)) : Places :=
  let start : Places := Array.replicate 8 none
  es.foldl insert (if start.isFull es.length then start.resize (es.length * 2) else start)

end Places

/-- The set with given elements, which are distinct. -/
def setOf (vs : List Value) : Value :=
  match vs.mapM fun v => v.residue?.map fun n => (v, n) with
  | some es => set ((Places.ofList es).elements.map (·.1))
  | none => set vs

end Worksheet.Value
