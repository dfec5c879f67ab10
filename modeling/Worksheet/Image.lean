import Worksheet.FileName
import Worksheet.Number.Decimal
import Worksheet.Pattern
import Worksheet.Text.Blank

/-!
# Images

Worksheets show images with tags such as `<img src="lesson5_files/01.png">`: the
folder is named after the document, and the images are numbered. Tags with the
misspelt attribute `sc` are recognised as well.

* `Image.all` finds the image tags of a text: first those with `src`, then those
  with `sc`, each from left to right;
* `Image.number` reads the number of an image from its source;
* `Image.folderFor` is the folder that belongs to a document.
-/

namespace Worksheet

/-- An image tag. -/
structure Image where
  fullText : Text
  src : Text
  start : Int
  /-- Whether the attribute was written `sc`. -/
  misspelt : Bool := false
deriving DecidableEq, Repr

namespace Image

/-- The offset just past the tag. -/
def stop (i : Image) : Int := i.start + i.fullText.length

/-- What a tag with the given attribute looks like. Its group is the source. -/
def pattern (attr : Text) : Pattern :=
  .all [.anyCase (lit "<img"), .oneOrMore isBlank, .fewest (· != '>'),
    .anyCase (attr ++ lit "=\""), .group (.most (· != '"')), .exactly (lit "\""),
    .most (· != '>'), .exactly (lit ">")]

/-- The tags with the given attribute, from left to right. -/
def allWith (attr : Text) (misspelt : Bool) (t : Text) : List Image :=
  ((pattern attr).scan t).map fun m => ⟨m.text, m.group 0, m.start, misspelt⟩

/-- The image tags of a text. -/
def all (t : Text) : List Image := allWith (lit "src") false t ++ allWith (lit "sc") true t

/-- What the number of an image looks like within its source. Its group is the
number. -/
def numberPattern : Pattern :=
  .all [.exactly (lit "/"), .group (.oneOrMore isDecimal), .exactly (lit ".")]

/-- The number in the source of an image, if it has one. -/
def number (src : Text) : Except Fault (Option Nat) :=
  match numberPattern.find? src with
  | none => .ok none
  | some m => some <$> readDigits (m.group 0)

/-- The folder for the images of a document: the stem of the last part of its
name, whichever slash is used, with a suffix. -/
def folderFor {α : Type} [DecidableEq α] [Alphabet α] (name : Text α) (suffix : Text) : Text α :=
  FileName.stem (name.afterLast fun c => c == Alphabet.ofChar '\\' || c == FileName.slash) ++
    (Alphabet.embed suffix : Text α)

end Image

/-- The name of the rule that reports on images. -/
def Images.ruleName : Text := lit "r20_images"

end Worksheet
