import Worksheet.Alphabet

/-!
# Problems with files

Why a file cannot be read or written, and how this is put into words.
-/

namespace Worksheet

/-- Why a file cannot be read or written. -/
inductive FileProblem where
  /-- There is nothing under this name. -/
  | missing
  /-- A part of the name before the last is no directory. -/
  | notDirectory
  /-- There is a directory under this name. -/
  | isDirectory
  /-- A part of the name, or all of it, is too long. -/
  | nameTooLong
  /-- The name holds a character that no name can hold. -/
  | badName
  /-- A part of the name stands for no bytes. -/
  | unencodable (failure : Utf8.Unwritable)
  /-- The file can only be read. -/
  | readOnly
  /-- Any other problem, in the words of the system. -/
  | other (message : Text)
deriving DecidableEq, Repr

namespace FileProblem

/-- The class of faults that a problem belongs to. -/
def kind : FileProblem → Text
  | missing => lit "FileNotFoundError"
  | notDirectory => lit "NotADirectoryError"
  | isDirectory => lit "IsADirectoryError"
  | nameTooLong => lit "OSError"
  | badName => lit "ValueError"
  | unencodable _ => lit "UnicodeEncodeError"
  | readOnly => lit "PermissionError"
  | other _ => lit "OSError"

/-- Whether no file can have the name, so that it is refused before any file is looked
for. -/
def refuses : FileProblem → Bool
  | badName | unencodable _ => true
  | _ => false

variable {α : Type} [Alphabet α]

/-- A message of the system, with its number and the name of the file. -/
def systemMessage (number : Nat) (text : Text) (name : Text α) : Text :=
  lit "[Errno " ++ decimal number ++ lit "] " ++ text ++ lit ": " ++ Alphabet.quoted name

/-- What is said about a problem with a file. -/
def message (name : Text α) : FileProblem → Text
  | missing => systemMessage 2 (lit "No such file or directory") name
  | notDirectory => systemMessage 20 (lit "Not a directory") name
  | isDirectory => systemMessage 21 (lit "Is a directory") name
  | nameTooLong => systemMessage 36 (lit "File name too long") name
  | badName => lit "embedded null byte"
  | unencodable failure => failure.message
  | readOnly => lit "read-only file system"
  | other message => message

end FileProblem

end Worksheet
