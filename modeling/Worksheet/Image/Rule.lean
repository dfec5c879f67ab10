import Worksheet.Image.Folder
import Worksheet.Image.Numbering
import Worksheet.Image.Typo

/-!
# The rule for images

Mistyped tags and bare paths first, then the folders of the images, then their
numbers.
-/

namespace Worksheet.Images

variable {α : Type} [DecidableEq α] [Alphabet α]

/-- The call that tells how many images there are. -/
def countCall (images : List Image) : Call where
  logger := Logger.ofRule ruleName Channel.extract
  urgency := .debug
  event := lit "images_extracted"
  fields :=
    [(lit "count", .int images.length),
     (lit "sc_attribute", .int (images.countP (·.misspelt)))]

/-- The findings in a document with its images: those about mistyped tags, which
are given, and then those about the images. -/
def findings (d : Document α) (s : Settings) (images : List Image) (typos : List Diagnostic) :
    Except Fault (List (Diagnostic α)) := do
  let folder := Image.folderFor d.name s.images.folderSuffix
  let misplaced ← Folder.findings images folder s
  let misnumbered ← Numbering.findings images s
  return (typos.map Diagnostic.embed : List (Diagnostic α)) ++ misplaced ++
    (misnumbered.map Diagnostic.embed : List (Diagnostic α))

theorem findings_eq (d : Document) (s : Settings) (images : List Image) (typos : List Diagnostic) :
    findings d s images typos = do
      let misplaced ← Folder.findings images (Image.folderFor d.name s.images.folderSuffix) s
      let misnumbered ← Numbering.findings images s
      return typos ++ misplaced ++ misnumbered := by
  simp only [findings, Diagnostic.embed_char, List.map_id]

/-- The rule for images. -/
def rule : Rule α where
  name := ruleName
  run d s :=
    let images := Image.all d.text
    let reports := Typo.reports d.text images s
    { calls := countCall images :: reports.map (·.2)
      result := findings d s images (reports.map (·.1)) }

end Worksheet.Images
