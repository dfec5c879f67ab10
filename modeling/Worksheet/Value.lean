import Worksheet.Alphabet
import Worksheet.Calendar
import Worksheet.Number.Binary64

/-!
# Values

The values that a settings file or a JSON text can hold. A mapping is a list of
entries in the order in which their keys came first; two keys are the same if
they are equal as values, so that the whole number 1, the number 1.0 and the
truth value `true` are one key.
-/

namespace Worksheet

/-- A value of a settings file or a JSON text. -/
inductive Value where
  | null
  | bool (b : Bool)
  | int (i : Int)
  | real (x : Binary64)
  | text (t : Text)
  /-- A text by the codes of its characters, some of which no character has. -/
  | codes (cs : List Nat)
  | bytes (bs : List UInt8)
  | date (d : Date)
  | moment (t : Moment)
  | list (vs : List Value)
  | pair (a b : Value)
  | set (vs : List Value)
  | map (entries : List (Value × Value))
  /-- A list or a mapping within itself: the one that lies `levels` lists, mappings,
  sets or pairs further out, and its value, as far as anyone looks into it. -/
  | again (levels : Nat) (v : Value)

/-- The entries of a mapping in order. -/
abbrev Entries := List (Value × Value)

namespace Value

/-- A value as a number, scaled by `Binary64.units`, where it is one. -/
def number? : Value → Option Int
  | bool b => some (if b then Binary64.units else 0)
  | int i => some (i * Binary64.units)
  | real x => x.scaled?
  | _ => none

/-- Whether two values that can be keys are the same key. Truth values count as
the numbers 0 and 1. -/
def sameKey (a b : Value) : Bool :=
  match a.number?, b.number? with
  | some m, some n => m == n
  | none, none =>
    match a, b with
    | null, null => true
    | real x, real y => x == y && x != .nan
    | text s, text t => s == t
    | codes s, codes t => s == t
    | bytes s, bytes t => s == t
    | date s, date t => s == t
    | moment s, moment t => s.offset.isSome == t.offset.isSome && s.microseconds == t.microseconds
    | _, _ => false
  | _, _ => false

/-- Whether a value can be a key of a mapping or an element of a set. -/
def isKey : Value → Bool
  | list _ | set _ | map _ | again .. => false
  | pair a b => a.isKey && b.isKey
  | _ => true

/-- A text in an alphabet as a value. -/
def ofText {α : Type} [Alphabet α] (t : Text α) : Value :=
  match Alphabet.narrow t with
  | .ok u => .text u
  | .error _ => .codes (Alphabet.codes t)

@[simp] theorem ofText_char (t : Text) : ofText t = .text t := rfl

/-- A value that is looked at by itself. -/
def bare : Value → Value
  | again _ v => v
  | v => v

end Value

namespace Entries

/-- The value of a key. -/
def get? (key : Value) : Entries → Option Value
  | [] => none
  | (k, v) :: rest => if k.sameKey key then some v else get? key rest

/-- The entries with a value for a key: it takes the place of the value that the
key had, or comes last. -/
def put (key value : Value) : Entries → Entries
  | [] => [(key, value)]
  | (k, v) :: rest => if k.sameKey key then (k, value) :: rest else (k, v) :: put key value rest

/-- The mapping that results from putting entries in one after another. -/
def ofList (es : List (Value × Value)) : Entries := es.foldl (fun m e => put e.1 e.2 m) []

/-- The value of a key that is a text. -/
def field? (es : Entries) (name : Text) : Option Value := get? (.text name) es

end Entries

/-- The distinct values of a list, each at its first place. -/
def distinctValues (vs : List Value) : List Value :=
  vs.foldl (fun s v => if s.any (·.sameKey v) then s else s ++ [v]) []

end Worksheet
