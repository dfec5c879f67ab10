import Worksheet.Files
import Worksheet.Profile
import Worksheet.Yaml.Value

/-!
# Profiles in files

A profile is kept in a file as YAML. An empty file is a profile that changes
nothing.

* `Profile.ofBytes` reads the contents of such a file, and `Profile.load` finds the
  file first.
-/

namespace Worksheet.Profile

/-- The fault of a profile whose values cannot be turned into settings. Other
faults stay what they are. -/
def fileFault (name : Text) (f : Fault) : Fault :=
  if f.kind = lit "TypeError" ∨ f.kind = lit "ValueError" then .badProfile name f.message else f

/-- The settings of a profile that has been read from a file. -/
def ofValue (name : Text) (v : Value) : Reading :=
  let r := read v (FileName.stem name)
  { r with result := r.result.mapError (fileFault name) }

/-- The profile in the contents of a file. -/
def valueOf (name : Text) (bytes : List UInt8) : Except Fault Value := do
  match Yaml.read (.ofBytes bytes) with
  | .error (.fault f) => throw f
  | .error _ => throw (.brokenYaml name)
  | .ok v =>
    match v with
    | .null => return .map []
    | .map _ => return v
    | _ => throw (.profileNotMapping name v.typeName)

/-- The settings in the contents of a file. -/
def ofBytes (name : Text) (bytes : List UInt8) : Reading :=
  match valueOf name bytes with
  | .error f => { result := .error f }
  | .ok v => ofValue name v

/-- The settings in a file, by what reading it gave. -/
def ofContents (name : Text) : Except FileProblem (List UInt8) → Reading
  | .error p => { result := .error (.file p name) }
  | .ok bytes => ofBytes name bytes

/-- The settings in a file. -/
def load (fs : Files) (name : Text) : Reading :=
  let name := FileName.normal name
  ofContents name (fs.read name)

end Worksheet.Profile
