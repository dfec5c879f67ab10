import Worksheet.Alphabet
import Worksheet.Diagnostic
import Worksheet.Settings

/-!
# Documents

A document is a text with a name. Its lines end at `CR LF`, at a lone `CR` and
at a lone `LF`.

* `Text.lines` gives the span of every line without its break;
* `Document.positionAt` turns an offset into line and column, and
  `Document.offsetAt` turns them back;
* `Diagnostic.locate` fills in the ranges of a finding, and `Diagnostic.locateAll`
  those of several findings;
* `Document.isHtmlLike` tells whether a document is to be checked at all.
-/

namespace Worksheet

/-- The span of a line without its break. -/
structure LineSpan where
  start : Nat
  stop : Nat
deriving DecidableEq, Repr

/-- The lines of a text that goes on at offset `n`, in a line that started at
offset `start`. -/
def Text.linesFrom (start : Nat) : Nat → Text → List LineSpan
  | n, [] => [⟨start, n⟩]
  | n, '\r' :: '\n' :: cs => ⟨start, n⟩ :: linesFrom (n + 2) (n + 2) cs
  | n, c :: cs =>
    if c = '\r' ∨ c = '\n' then ⟨start, n⟩ :: linesFrom (n + 1) (n + 1) cs
    else linesFrom start (n + 1) cs

/-- The lines of a text; there is always at least one. -/
def Text.lines (t : Text) : List LineSpan := Text.linesFrom 0 0 t

/-- A document that is checked. Its name is that of a file. -/
structure Document (α : Type := Char) [Alphabet α] where
  text : Text
  name : Text α := Alphabet.embed (lit "untitled")
  /-- The name of its language, if the host knows it. -/
  languageId : Option Text := none

variable {α : Type} [Alphabet α]

namespace Document

/-- A document with a text as its name, in an alphabet. -/
def embed (d : Document) : Document α := ⟨d.text, Alphabet.embed d.name, d.languageId⟩

/-- The number of lines. -/
def lineCount (d : Document α) : Nat := d.text.lines.length

/-- The line and column of an offset in a text that has given lines and a given
length. An offset outside of the text stands for the nearest end of the text, and
an offset inside of a line break for the end of the line. -/
def positionIn (lines : List LineSpan) (length : Nat) (offset : Int) : Position :=
  let n := (min offset length).toNat
  let line := lines.countP (·.start ≤ n) - 1
  let span := lines.getD line ⟨0, 0⟩
  ⟨line, min n span.stop - span.start⟩

/-- The line and column of an offset. -/
def positionAt (d : Document α) (offset : Int) : Position :=
  positionIn d.text.lines d.text.length offset

/-- The offset of a line and column. A line after the last one stands for the
end of the text, and a column after the end of its line for the end of the
line. -/
def offsetAt (d : Document α) (p : Position) : Nat :=
  match d.text.lines[p.line]? with
  | none => d.text.length
  | some span => min (span.start + p.column) span.stop

/-- Whether a document is checked: because of its language, or because of the
end of its name. Case does not matter. -/
def isHtmlLike [DecidableEq α] (d : Document α) (s : Settings) : Bool :=
  (match d.languageId with
    | none => false
    | some language => !language.isEmpty && s.languageIds.contains (Text.lower language)) ||
  let name := Alphabet.lower d.name
  s.extensions.any fun e => (Alphabet.embed (Text.lower e)).isSuffixOf name

end Document

/-- The correction with its range, given the position of every offset. -/
def Correction.locateBy (place : Int → Position) (c : Correction α) : Correction α :=
  { c with range := some ⟨place c.start, place c.stop⟩ }

namespace Diagnostic

/-- The finding with its range and the range of its correction, given the position
of every offset. -/
def locateBy (place : Int → Position) (d : Diagnostic α) : Diagnostic α :=
  { d with
    range := some ⟨place d.start, place d.stop⟩
    fix := d.fix.map (·.locateBy place) }

/-- The finding with its range and the range of its correction in a document. -/
def locate (doc : Document α) (d : Diagnostic α) : Diagnostic α := d.locateBy doc.positionAt

/-- Findings with their ranges in a document; its lines are found once for all of
them. -/
def locateAll (doc : Document α) (ds : List (Diagnostic α)) : List (Diagnostic α) :=
  let place := Document.positionIn doc.text.lines doc.text.length
  ds.map (locateBy place)

end Diagnostic

end Worksheet
