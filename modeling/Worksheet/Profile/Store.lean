import Worksheet.Profile.Bundled

/-!
# The store of profiles

Settings that have been read are kept under the name of their profile, so that
whoever asks for a name again gets the same settings. They are handed out by
number: what is changed about them is seen by all who hold the number.

* `ProfileStore.load` always reads a profile, `ProfileStore.get` only if it has
  to; it keeps what it has read;
* `ProfileStore.clear` forgets which settings belong to which name.
-/

namespace Worksheet

/-- The settings that have been handed out, and the numbers of those that belong
to a name. -/
structure ProfileStore where
  handed : List Settings := []
  known : List (Text × Nat) := []

namespace ProfileStore

/-- The number of the settings that are kept for a name. -/
def known? (st : ProfileStore) (name : Text) : Option Nat :=
  (st.known.find? (·.1 = name)).map (·.2)

/-- The settings with a number. -/
def settings? (st : ProfileStore) (n : Nat) : Option Settings := st.handed[n]?

/-- Reads a bundled profile, and hands out its settings under a new number. -/
def load (st : ProfileStore) (name : Text) : Except Fault (Nat × ProfileStore) := do
  let s ← (Profile.loadBundled name).result
  return (st.handed.length, { st with handed := st.handed ++ [s] })

/-- The store in which a name has settings with a given number. -/
def keep (st : ProfileStore) (name : Text) (n : Nat) : ProfileStore :=
  { st with known := (name, n) :: st.known.filter (·.1 ≠ name) }

/-- Hands out the settings of a bundled profile: if wanted, those that are kept
for its name. -/
def get (st : ProfileStore) (name : Text) (useKept : Bool) : Except Fault (Nat × ProfileStore) :=
  match if useKept then st.known? name else none with
  | some n => .ok (n, st)
  | none => do
    let (n, st) ← st.load name
    return (n, st.keep name n)

/-- The store without settings that are kept for a name. -/
def clear (st : ProfileStore) : ProfileStore := { st with known := [] }

/-- The store with another description of the settings with a number. -/
def describe (st : ProfileStore) (n : Nat) (description : Value) : ProfileStore :=
  { st with handed := st.handed.modify n fun s => { s with description } }

end ProfileStore

end Worksheet
