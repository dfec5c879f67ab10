import Worksheet.Image
import Worksheet.Rule

/-!
# Image folders

The images of a document belong into one folder. For every image elsewhere
there is a finding; where the attribute is spelt right, the finding has a
correction that changes the folder and keeps the name of the file.
-/

namespace Worksheet.Folder

open Alphabet

variable {α : Type} [DecidableEq α] [Alphabet α]

/-- Whether an image has a source outside of the folder. -/
def misplaced (folder : Text α) (i : Image) : Bool :=
  !i.src.isEmpty && !Text.includes (embed i.src) folder

theorem misplaced_eq (folder : Text) (i : Image) :
    misplaced folder i = (!i.src.isEmpty && !i.src.includes folder) := rfl

/-- The tag of an image with its source moved into the folder. -/
def correctedTag (folder : Text α) (i : Image) : Text α :=
  Text.replaceFirst (embed i.fullText) (embed i.src)
    (folder ++ [(FileName.slash : α)] ++ (embed (FileName.last i.src) : Text α))

theorem correctedTag_eq (folder : Text) (i : Image) :
    correctedTag folder i =
      Text.replaceFirst i.fullText i.src (folder ++ ['/'] ++ FileName.last i.src) := rfl

/-- The finding for a misplaced image. -/
def finding (s : Settings) (folder : Text α) (i : Image) : Except Fault (Diagnostic α) := do
  let span ← checkedSpan i.start i.stop
  return {
    severity := .warning
    code := .imageFolder
    message :=
      (embed (lit "Image source should be in \"") : Text α) ++ folder ++
        (embed (lit "\" folder") : Text α)
    source := s.source
    rule := Images.ruleName
    start := span.1
    stop := span.2
    fix :=
      if i.misspelt then none else some ⟨span.1, span.2, correctedTag folder i, none⟩ }

/-- The findings for the images that are not in the folder. -/
def findings (images : List Image) (folder : Text α) (s : Settings) :
    Except Fault (List (Diagnostic α)) :=
  (images.filter (misplaced folder)).mapM (finding s folder)

end Worksheet.Folder
