import Worksheet.Profile.File

/-!
# Bundled profiles

The profiles that come with the program: the conventions of the stock worksheets,
and a profile under which only images are checked.

* `Profile.loadBundled` reads one of them by its name.
-/

namespace Worksheet.Profile

/-- The profile with the stock conventions. -/
def defaultText : Text := Text.join ['\n'] <| List.map lit [
  "# Stock worksheet conventions.",
  "profile:",
  "  name: default",
  "  description: Image references and grading annotations for HTML worksheets",
  "",
  "source: Educational Validator",
  "",
  "documents:",
  "  extensions: [\".html\", \".htm\"]",
  "  language_ids: [\"html\", \"php\"]",
  "",
  "rules:",
  "  - id: r10_marks",
  "    enabled: true",
  "    description: '\"Total for question\" annotations use mark/marks correctly'",
  "  - id: r20_images",
  "    enabled: true",
  "    description: Image tags are well formed, in the document's folder, and numbered 01, 02, ...",
  "",
  "images:",
  "  typo_window: 50",
  "  stray_path_padding: 5",
  "  folder_suffix: _files",
  "  number_width: 2",
  "  first_number: 1",
  ""]

/-- The profile for images only. -/
def imagesOnlyText : Text := Text.join ['\n'] <| List.map lit [
  "# Only check image references; grading annotations are left alone.",
  "profile:",
  "  name: images_only",
  "  description: Image reference checks without the mark/marks rule",
  "",
  "rules:",
  "  - id: r10_marks",
  "    enabled: false",
  "  - id: r20_images",
  "    enabled: true",
  ""]

/-- The names of the bundled profiles. -/
def names : List Text := [lit "default", lit "images_only"]

/-- The ending of the names of their files. -/
def ending : Text := lit ".yaml"

/-- The name of the directory with the files of the bundled profiles. -/
def directory : Text := lit "<profiles>"

/-- The place of the bundled profiles in the directory where the program is
installed. -/
def home : List Text := [About.program, lit "config", lit "profiles"]

/-- The directories of the installed program beside the one with the profiles. -/
def otherDirectories : List Text := ["cli", "core", "ir", "output", "rules"].map lit

/-- The files of the bundled profiles, looked up from their directory. -/
def bundled : Files where
  entries :=
    [(home ++ [lit "default.yaml"], .file (Utf8.encode defaultText)),
     (home ++ [lit "images_only.yaml"], .file (Utf8.encode imagesOnlyText))] ++
      otherDirectories.map fun d => ([About.program, d], .directory)
  current := home

/-- The name of the file of a bundled profile, as it is shown. -/
def shownPath (name : Text) : Text :=
  let file := name ++ ending
  FileName.normal (if file.head? = some '/' then file else directory ++ '/' :: file)

/-- The settings of a bundled profile. -/
def loadBundled (name : Text) : Reading :=
  let file := name ++ ending
  match bundled.holds file with
  | .error p => { result := .error (.file p (shownPath name)) }
  | .ok false => { result := .error (.profileNotFound (shownPath name)) }
  | .ok true => load bundled file

end Worksheet.Profile
