import Worksheet.Image
import Worksheet.Rule
import Worksheet.Text.Word

/-!
# Mistyped image tags

A numbered image path such as `lesson5_files/01.png` that is the source of no
image was probably meant to be. For the first place of every such path, a
mistyped tag is looked for in a window around it: `<im`, `<imge`, `<image`,
`<i mg`, or `<img` with a mangled attribute. If one is found, the correction
puts the right tag in its place. If no finding covers the path, the bare path
itself is reported.

* `Typo.paths` lists the distinct paths of a text;
* `Typo.inWindow?` looks for a mistyped tag;
* `Typo.findings` are the findings in a text.
-/

namespace Worksheet

/-- The offset just past the `>` that closes the tag which goes on at an offset,
if this comes before the next `<`; otherwise the offset itself. -/
def tagEnd (t : Text) (offset : Int) : Int :=
  let n := (min offset t.length).toNat
  match (Pattern.seq (.most fun c => c != '<' && c != '>') (.exactly (lit ">"))).matchAt n
      (t.drop n) with
  | none => offset
  | some m => m.stop

namespace Typo

/-- What a numbered image path looks like. -/
def pathPattern : Pattern :=
  .all [.group (.oneOrMore isWord), .anyCase (lit "_files/"), .group (.oneOrMore isDecimal),
    .anyCase (lit ".png")]

/-- Anything up to a `>`, then one of several attributes with a value. -/
def attributePattern (names : Pattern) : Pattern :=
  .all [.fewest (· != '>'), names, .exactly (lit "=\""), .most (· != '"'), .exactly (lit "\"")]

/-- A mistyped tag name with a source. -/
def namePattern (name : Text) : Pattern :=
  .all [.anyCase name, .oneOrMore isBlank,
    attributePattern (.either (.anyCase (lit "src")) (.anyCase (lit "sc")))]

/-- What mistyped tags look like, in the order in which they are looked for. -/
def patterns : List Pattern :=
  [namePattern (lit "<im"), namePattern (lit "<imge"), namePattern (lit "<image"),
   namePattern (lit "<i mg"),
   .all [.exactly (lit "<"), .most isBlank, .anyCase (lit "img"),
    attributePattern (.either (.anyCase (lit "s")) (.either (.anyCase (lit "sr"))
      (.either (.anyCase (lit "rc")) (.anyCase (lit "scr")))))]]

/-- The elements of a list, each once, in the order of their first places. -/
def distinct (ts : List Text) : List Text :=
  ts.foldl (fun seen t => if t ∈ seen then seen else seen ++ [t]) []

/-- The distinct image paths of a text, in the order of their first places. -/
def paths (t : Text) : List Text := distinct ((pathPattern.scan t).map (·.text))

/-- Whether a path is part of the source of an image. -/
def accounted (images : List Image) (path : Text) : Bool :=
  images.any fun i => i.src.includes path

/-- The mistyped tag in a window: of the first kind that occurs, the first. -/
def inWindow? (window : Text) : Option Match := patterns.findSome? (·.find? window)

/-- The tag that a path should stand in. -/
def correctTag (path : Text) : Text := lit "<img src=\"" ++ path ++ lit "\">"

/-- The finding for a mistyped tag between two offsets. The correction reaches
through the `>` of the tag, so that one tag is left. -/
def typoFinding (t : Text) (s : Settings) (path : Text) (start stop : Nat) : Diagnostic where
  severity := .error
  code := .imageTagTypo
  message := lit "Possible typo in image tag. Should be " ++ correctTag path
  source := s.source
  rule := Images.ruleName
  start
  stop
  fix := some ⟨start, (tagEnd t stop).toNat, correctTag path, none⟩

/-- The finding for a bare path at an offset. -/
def strayFinding (t : Text) (s : Settings) (path : Text) (offset : Nat) : Diagnostic :=
  let span := t.padded offset (offset + path.length) s.images.strayPadding
  { severity := .warning
    code := .imagePathOutsideTag
    message :=
      lit "File path found outside a proper <img> tag. Check for HTML syntax errors."
    source := s.source
    rule := Images.ruleName
    start := span.1.toNat
    stop := span.2.toNat }

/-- The call that tells of a mistyped tag. -/
def typoCall (path found : Text) : Call where
  logger := Logger.ofRule Images.ruleName
  urgency := .verbose
  event := lit "tag_typo_found"
  fields := [(lit "path", .text path), (lit "typo", .text (found.take 40))]

/-- The call that tells of a bare path. -/
def strayCall (path : Text) (offset : Nat) : Call where
  logger := Logger.ofRule Images.ruleName
  urgency := .verbose
  event := lit "stray_image_path"
  fields := [(lit "path", .text path), (lit "offset", .int offset)]

/-- A finding together with the call that tells of it. -/
abbrev Report := Diagnostic × Call

/-- The mistyped tag that is found for a path at an offset. -/
def typoReport (t : Text) (s : Settings) (path : Text) (offset : Nat) : Option Report :=
  let window := t.window offset (offset + path.length) s.images.typoWindow
  (inWindow? window.2).map fun m =>
    let start := window.1.toNat + m.start
    (typoFinding t s path start (start + m.text.length), typoCall path m.text)

/-- The reports so far, and those for one more path. The bare path is reported
if none of them covers it. -/
def step (t : Text) (s : Settings) (sofar : List Report) (path : Text) : List Report :=
  let offset := (Text.offsetOf? path t).getD 0
  let reports := sofar ++ (typoReport t s path offset).toList
  if reports.any (·.1.covers offset) then reports
  else reports ++ [(strayFinding t s path offset, strayCall path offset)]

/-- The reports on the paths of a text that belong to none of the images. -/
def reports (t : Text) (images : List Image) (s : Settings) : List Report :=
  ((paths t).filter fun p => !accounted images p).foldl (step t s) []

/-- The findings in a text. -/
def findings (t : Text) (images : List Image) (s : Settings) : List Diagnostic :=
  (reports t images s).map (·.1)

end Typo

end Worksheet
