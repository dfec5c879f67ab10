import Worksheet.About
import Worksheet.Value

/-!
# Settings

What a profile can change about the rules. The default values are the
conventions of the stock worksheets.

* `Settings.toggle?` finds the switch of a rule;
* `Settings.enables` tells whether a rule is to run: it is, unless the first
  switch with its name is off.
-/

namespace Worksheet

/-- A switch that turns one rule on or off. Its name and its description are
whatever values the profile holds. -/
structure RuleToggle where
  id : Value
  enabled : Bool := true
  description : Value := .text []

/-- What can be changed about the rule for images. -/
structure ImageSettings where
  /-- The number of characters on each side of a bare image path in which a
  mistyped tag is looked for. -/
  typoWindow : Nat := 50
  /-- The number of characters on each side of a bare path that the warning about
  it covers. -/
  strayPadding : Nat := 5
  /-- The folder of a document's images is the stem of its name with this text
  behind it. -/
  folderSuffix : Text := lit "_files"
  /-- The width to which image numbers are padded in messages. -/
  numberWidth : Int := 2
  /-- The number of the first image. -/
  firstNumber : Int := 1

/-- The settings under which documents are checked. -/
structure Settings where
  name : Value := .text (lit "default")
  description : Value := .text []
  /-- The name under which findings are reported. -/
  source : Text := About.source
  /-- The endings of the names of documents that are checked. -/
  extensions : List Text := [lit ".html", lit ".htm"]
  /-- The language names of documents that are checked. -/
  languageIds : List Text := [lit "html", lit "php"]
  toggles : List RuleToggle := []
  images : ImageSettings := {}

namespace Settings

/-- The first switch for a rule. -/
def toggle? (s : Settings) (rule : Text) : Option RuleToggle :=
  s.toggles.find? fun t => t.id.sameKey (.text rule)

/-- Whether a rule is to run. -/
def enables (s : Settings) (rule : Text) : Bool :=
  match s.toggle? rule with
  | none => true
  | some t => t.enabled

end Settings

end Worksheet
