import Worksheet.Fault
import Worksheet.Text.Quoted

/-!
# Characters in YAML

The classes of characters on which the structure of a YAML text rests, the ways in
which reading such a text can fail, and what a scalar can hold. Line breaks are
the line feed, the next line and the separators of lines and paragraphs; the
carriage return has been turned into a line feed before.
-/

namespace Worksheet.Yaml

/-- Why a YAML text stands for no value. -/
inductive Failure where
  /-- The text is not one document of YAML. -/
  | broken
  /-- The text ends where it would have to go on. -/
  | unfinished
  /-- A scalar of the text has no value of its kind. -/
  | fault (f : Fault)

/-- The failure of a text that is wrong from here on: it is unfinished if nothing
follows. -/
def Failure.before (rest : Text) : Failure := if rest = [] then unfinished else broken

/-- What a scalar holds. -/
inductive Content where
  | text (t : Text)
  /-- Codes of characters, some of which no character has. -/
  | codes (cs : List Nat)
deriving DecidableEq, Repr

/-- The scalar with given codes of its characters. -/
def Content.ofCodes (cs : List Nat) : Content :=
  match cs.mapM charOf? with
  | some t => text t
  | none => codes cs

/-- A line break. -/
def isBreak (c : Char) : Bool := c == '\n' || c == '\x85' || c == '\u2028' || c == '\u2029'

/-- What a line break stands for within a scalar. -/
def breakValue (c : Char) : Char := if c = '\x85' then '\n' else c

/-- A blank or a tab. -/
def isGap (c : Char) : Bool := c == ' ' || c == '\t'

/-- Whether a text is at an end or goes on with a blank, a tab or a break. -/
def endsWord : Text → Bool
  | [] => true
  | c :: _ => isGap c || isBreak c

/-- Whether a text is at an end or goes on with a blank or a break. -/
def endsTag : Text → Bool
  | [] => true
  | c :: _ => c == ' ' || isBreak c

/-- Whether the line that begins here separates documents. -/
def separatesDocuments : Text → Bool
  | '-' :: '-' :: '-' :: rest => endsWord rest
  | '.' :: '.' :: '.' :: rest => endsWord rest
  | _ => false

/-- A character of the name of an anchor, a directive or a tag handle. -/
def isNameChar (c : Char) : Bool :=
  ('0' ≤ c && c ≤ '9') || ('A' ≤ c && c ≤ 'Z') || ('a' ≤ c && c ≤ 'z') || c == '-' || c == '_'

/-- A character that may stand in a text at all. -/
def isAllowed (c : Char) : Bool :=
  c == '\t' || c == '\n' || c == '\r' || (' ' ≤ c && c ≤ '~') || c == '\x85' ||
    ('\xA0' ≤ c && c ≤ '\uFFFD') || 0x10000 ≤ c.toNat

end Worksheet.Yaml
