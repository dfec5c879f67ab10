import Worksheet.Journal
import Worksheet.Settings
import Worksheet.Value.Conversion

/-!
# Profiles

A profile is a mapping that says what differs from the default settings. Its
sections describe the profile itself, the documents that are checked, the
switches of the rules and the rule for images.

* `RuleToggle.read?` reads a switch; a malformed one is skipped, which is told to
  the journal;
* `ImageSettings.read` reads the section for images, and refuses keys that it
  does not know;
* `Profile.read` reads a whole profile.
-/

namespace Worksheet

/-- What comes out of reading a profile: the calls made to the journal, and the
settings or a fault. -/
structure Reading where
  calls : List Call := []
  result : Except Fault Settings

namespace Value

/-- The value of a key of a mapping, or else a default. A value that is no
mapping has no keys. -/
def fieldOr (v : Value) (name : Text) (default : Value) : Except Fault Value :=
  match v with
  | map es => .ok ((Entries.field? es name).getD default).bare
  | _ => .error (.withoutFields v.typeName (lit "get"))

/-- A list of texts. A single text stands for a list of itself; the elements of
any other list are written as texts. -/
def textList (v : Value) : Except Fault (List Text) :=
  match v with
  | text t => .ok [t]
  | codes cs => .ok [Text.ofCodes cs]
  | _ => do (← v.elements).mapM written

/-- A section of a profile, which is a mapping. A section that is left empty
counts as one without keys. -/
def sectionOf (profile : Value) (name : Text) : Except Fault Value := do
  let v ← profile.fieldOr name .null
  match v with
  | map _ => return v
  | _ => if v.truth then throw (.notMapping name v.typeName) else return map []

end Value

namespace RuleToggle

/-- A switch of a profile. Only its name has to be there. -/
def read (v : Value) : Except Fault RuleToggle := do
  let id ← v.part (lit "id")
  let enabled ← v.fieldOr (lit "enabled") (.bool true)
  let description ← v.fieldOr (lit "description") (.text [])
  return { id, enabled := enabled.truth, description }

/-- The call that tells of a switch that is skipped: how it begins, and what is
wrong with it. -/
def skippedCall (shown : Text) (f : Fault) : Call where
  logger := Logger.ofChannel .system
  urgency := .warning
  event := lit "invalid_rule_skipped"
  fields := [(lit "entry", .text (shown.take 80)), (lit "error", .text f.message)]

/-- The switches that are well formed, and the calls for those that are not. The
second part is the fault of a malformed one that cannot be shown either; nothing
is read after it. -/
def readAll : List Value → List Call × Except Fault (List RuleToggle)
  | [] => ([], .ok [])
  | v :: vs =>
    match read v with
    | .ok t =>
      let rest := readAll vs
      (rest.1, rest.2.map (t :: ·))
    | .error f =>
      match v.shown with
      | .error f => ([], .error f)
      | .ok shown =>
        let rest := readAll vs
        (skippedCall shown f :: rest.1, rest.2)

end RuleToggle

namespace ImageSettings

/-- The keys of the section for images. -/
def keys : List Text :=
  [lit "typo_window", lit "stray_path_padding", lit "folder_suffix", lit "number_width",
   lit "first_number"]

/-- The texts among values, if they are all texts. -/
def texts? : List Value → Option (List Text)
  | [] => some []
  | .text t :: vs => (texts? vs).map (t :: ·)
  | .codes cs :: vs => (texts? vs).map (Text.ofCodes cs :: ·)
  | _ => none

/-- A number as its place among all numbers: below, among or above the finite ones,
and among these by its value. -/
def rank? : Value → Option (Int × Int)
  | .real (.infinite negative) => some (if negative then -1 else 1, 0)
  | .real .nan => some (0, 0)
  | v => v.number?.map (0, ·)

/-- The fault of two values of which the first cannot be put in order after the
second. -/
def orderFault? (a b : Value) : Option Fault :=
  match a, b with
  | .text _, .text _ | .text _, .codes _ | .codes _, .text _ | .codes _, .codes _
  | .bytes _, .bytes _ | .date _, .date _ => none
  | .date _, .moment _ | .moment _, .date _ => some .dayAndTime
  | .moment s, .moment t =>
    if s.offset.isSome = t.offset.isSome then none else some .timesApart
  | _, _ =>
    if (rank? a).isSome && (rank? b).isSome then none
    else some (.notOrdered a.fullTypeName b.fullTypeName)

/-- Whether a number comes before another one or is equal to it. -/
def atMost (a b : Value) : Bool :=
  match rank? a, rank? b with
  | some m, some n => m.1 < n.1 || (m.1 == n.1 && m.2 ≤ n.2)
  | _, _ => true

/-- The fault of keys that are not known. They are listed in their order, so that
keys of different kinds cannot be listed. -/
def unknownKeys (vs : List Value) : Fault :=
  match texts? vs with
  | some ts => .unknownImageSettings (ts.mergeSort fun a b => !Text.before b a)
  | none =>
    match (vs.zip vs.tail).findSome? fun p => orderFault? p.1 p.2 with
    | some f => f
    | none =>
      let least := vs.find? fun v => vs.all (atMost v)
      .notText 0 ((least.map Value.fullTypeName).getD [])

/-- The section for images. -/
def read (v : Value) : Except Fault ImageSettings := do
  let elements ← v.elements
  match elements.find? (!·.isKey) with
  | some w => throw (.notHashable w.typeName)
  | none => pure ()
  match (distinctValues elements).filter fun w => !keys.any fun k => w.sameKey (.text k) with
  | [] => pure ()
  | unknown => throw (unknownKeys unknown)
  let number (name : String) (default : Int) : Except Fault Int := do
    (← v.fieldOr (lit name) (.int default)).toInteger
  let typoWindow ← number "typo_window" 50
  let strayPadding ← number "stray_path_padding" 5
  let folderSuffix ← (← v.fieldOr (lit "folder_suffix") (.text (lit "_files"))).written
  let numberWidth ← number "number_width" 2
  let firstNumber ← number "first_number" 1
  if typoWindow < 0 ∨ strayPadding < 0 then throw .negativeWindow
  return {
    typoWindow := typoWindow.toNat
    strayPadding := strayPadding.toNat
    folderSuffix, numberWidth, firstNumber }

end ImageSettings

namespace Profile

/-- The parts of a profile that are looked at first. -/
structure Sections where
  profile : Value
  documents : Value
  rules : List Value

/-- The sections on the profile and on documents, and the entries of the one on
rules. -/
def sections (v : Value) : Except Fault Sections := do
  let profile ← v.sectionOf (lit "profile")
  let documents ← v.sectionOf (lit "documents")
  let rules ← v.fieldOr (lit "rules") .null
  return { profile, documents, rules := ← if rules.truth then rules.elements else pure [] }

/-- The settings of a profile whose switches have been read. -/
def settings (v : Value) (defaultName : Text) (s : Sections) (toggles : List RuleToggle) :
    Except Fault Settings := do
  let texts (ts : List Text) : Value := .list (ts.map .text)
  let default : Settings := {}
  let name ← s.profile.fieldOr (lit "name") (.text defaultName)
  let description ← s.profile.fieldOr (lit "description") (.text [])
  let source ← (← v.fieldOr (lit "source") (.text default.source)).written
  let extensions ← (← s.documents.fieldOr (lit "extensions") (texts default.extensions)).textList
  let languageIds ←
    (← s.documents.fieldOr (lit "language_ids") (texts default.languageIds)).textList
  let images ← ImageSettings.read (← v.sectionOf (lit "images"))
  return { name, description, source, extensions, languageIds, toggles, images }

/-- The settings of a profile, which has a default name. -/
def read (v : Value) (defaultName : Text) : Reading :=
  match sections v with
  | .error f => { result := .error f }
  | .ok s =>
    let toggles := RuleToggle.readAll s.rules
    { calls := toggles.1
      result := do settings v defaultName s (← toggles.2) }

end Profile

end Worksheet
