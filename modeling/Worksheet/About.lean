import Worksheet.Text

/-!
# The program

The names and versions under which the program appears in its output.
-/

namespace Worksheet.About

/-- The name of the program. -/
def program : Text := lit "edval"

/-- The version of the program. -/
def version : Text := lit "0.1.0"

/-- The version of the format in which saved reports are expected. -/
def formatVersion : Text := lit "0.1.0"

/-- The name under which findings are reported unless the settings give
another one. -/
def source : Text := lit "Educational Validator"

end Worksheet.About
