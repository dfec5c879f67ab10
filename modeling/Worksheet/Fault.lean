import Worksheet.Files.Problem
import Worksheet.Text.Utf8

/-!
# Faults

Why an operation cannot give a result. Every fault is a cause; the words for it
are in one place, `Fault.message`, and the class of faults that it belongs to,
by which reports and logs name it, is `Fault.kind`.
-/

namespace Worksheet

/-- A step on the way into a nested value: the name of a field or the index of
an element. -/
inductive Step where
  | field (name : Text)
  | index (i : Nat)
deriving DecidableEq, Repr

/-- What is wrong with one part of a value that was to become a record: where it
is, and the name of the rule that it breaks. -/
structure Violation where
  place : List Step
  rule : Text
deriving DecidableEq, Repr

/-- The largest number of decimal digits that a number may have when it is read
or written. -/
def digitLimit : Nat := 4300

/-- The codes of characters are first read as numbers below this one. -/
def characterWord : Nat := Nat.pow 2 31

/-- Why an operation gives no result. -/
inductive Fault where
  /-- A run of `count` decimal digits is too long to be read as a number. -/
  | tooManyDigits (count : Nat)
  /-- A number has too many decimal digits to be written. -/
  | numberTooLong
  /-- A width does not fit into a machine word. -/
  | widthTooLarge
  /-- A text, given as it is shown, is no whole number in a base. -/
  | malformedInteger (base : Nat) (shown : Text)
  /-- A floating-point number that is not a number has no integer part. -/
  | notANumber
  /-- An infinite number has no integer part. -/
  | infiniteNumber
  /-- A value of a type that cannot become a whole number. -/
  | notNumeric (type : Text)
  /-- A value of a type without elements. -/
  | notIterable (type : Text)
  /-- A value of a type without fields. -/
  | withoutFields (type field : Text)
  /-- A value of a type whose parts are not found by a key. -/
  | notSubscriptable (type : Text)
  /-- A value whose parts are numbered, and not found by a text; the complaint
  depends on the type. -/
  | numberedParts (complaint : Text)
  /-- A value of a type that cannot be a key. -/
  | notHashable (type : Text)
  /-- A value of a type that names no file. -/
  | notPath (type : Text)
  /-- A value of a type in which nothing can be looked for. -/
  | notTextual (type : Text)
  /-- Two values that have no order. -/
  | notOrdered (left right : Text)
  /-- A day and a time have no order. -/
  | dayAndTime
  /-- Two times have no order if the distance from universal time is known of one
  only. -/
  | timesApart
  /-- A part of a joined text that is no text. -/
  | notText (index : Nat) (type : Text)
  /-- A part of a settings file that must be a mapping. -/
  | notMapping (section_ type : Text)
  /-- Keys of the image settings that are not known. -/
  | unknownImageSettings (keys : List Text)
  /-- A window size below zero. -/
  | negativeWindow
  /-- A mapping lacks a key. -/
  | missingKey (key : Text)
  /-- A text, given as it is shown, is no floating-point number. -/
  | malformedReal (shown : Text)
  /-- A number does not fit into a floating-point number. -/
  | realTooLarge
  /-- A number is wanted where there is no character at all. -/
  | emptyNumber
  /-- A number is too large to be the code of a character. -/
  | noCharacter (code : Nat)
  /-- A day or a time that does not exist. -/
  | noMoment (reason : Text)
  /-- A value that is looked for within itself without an end. -/
  | endless
  /-- A file that is no YAML, or more than one document of it. What is said about it names
  the file and ends there; the words of the YAML reader, which would follow behind a colon,
  are left out. -/
  | brokenYaml (file : Text)
  /-- A profile that is no mapping. -/
  | profileNotMapping (file type : Text)
  /-- A profile that cannot be turned into settings. -/
  | badProfile (file reason : Text)
  /-- There is no profile of this name. -/
  | profileNotFound (path : Text)
  /-- A file that cannot be read or written. -/
  | file (problem : FileProblem) (name : Text)
  /-- Bytes that are no text. -/
  | notEncoded (failure : Utf8.Failure)
  /-- A text with more than characters, which cannot be written. -/
  | notWritable (failure : Utf8.Unwritable)
  /-- A report in a version of the format that cannot be read. -/
  | unreadableVersion (version : Text)
  /-- A value breaks the rules of the record that it was to become. -/
  | invalid (violations : List Violation)
  /-- Any other fault, given by its kind and its message. -/
  | other (kind message : Text)
deriving DecidableEq, Repr

namespace Fault

/-- The class of faults that a fault belongs to. -/
def kind : Fault → Text
  | tooManyDigits _ | numberTooLong | malformedInteger .. | notANumber | notMapping ..
  | unknownImageSettings _ | negativeWindow | malformedReal _ | noMoment _
  | unreadableVersion _ => lit "ValueError"
  | notNumeric _ | notIterable _ | notSubscriptable _ | numberedParts _ | notHashable _
  | notPath _ | notTextual _ | notOrdered .. | dayAndTime | timesApart | notText .. => lit "TypeError"
  | withoutFields .. => lit "AttributeError"
  | widthTooLarge | infiniteNumber | realTooLarge => lit "OverflowError"
  | noCharacter code => if code < characterWord then lit "ValueError" else lit "OverflowError"
  | missingKey _ => lit "KeyError"
  | emptyNumber => lit "IndexError"
  | endless => lit "RecursionError"
  | brokenYaml _ | profileNotMapping .. | badProfile .. => lit "ConfigError"
  | profileNotFound _ => lit "FileNotFoundError"
  | file problem _ => problem.kind
  | notEncoded _ => lit "UnicodeDecodeError"
  | notWritable _ => lit "UnicodeEncodeError"
  | invalid _ => lit "ValidationError"
  | other kind _ => kind

/-- What a fault says about a conversion that exceeds the limit. -/
def limitMessage (detail : Text) : Text :=
  lit "Exceeds the limit (" ++ decimal digitLimit ++
    lit " digits) for integer string conversion" ++ detail ++
    lit "; use sys.set_int_max_str_digits() to increase the limit"

/-- A name between single quotes. -/
def single (name : Text) : Text := '\'' :: (name ++ ['\''])

/-- What a fault says. -/
def message : Fault → Text
  | tooManyDigits count => limitMessage (lit ": value has " ++ decimal count ++ lit " digits")
  | numberTooLong => limitMessage []
  | widthTooLarge => lit "Python int too large to convert to C ssize_t"
  | malformedInteger base shown =>
    lit "invalid literal for int() with base " ++ decimal base ++ lit ": " ++ shown.take 200
  | notANumber => lit "cannot convert float NaN to integer"
  | infiniteNumber => lit "cannot convert float infinity to integer"
  | notNumeric type =>
    lit "int() argument must be a string, a bytes-like object or a real number, not " ++
      single type
  | notIterable type => single type ++ lit " object is not iterable"
  | withoutFields type field => single type ++ lit " object has no attribute " ++ single field
  | notSubscriptable type => single type ++ lit " object is not subscriptable"
  | numberedParts complaint => complaint
  | notHashable type => lit "unhashable type: " ++ single type
  | notPath type => lit "expected str, bytes or os.PathLike object, not " ++ type
  | notTextual type => lit "expected string or bytes-like object, got " ++ single type
  | notOrdered left right =>
    lit "'<' not supported between instances of " ++ single left ++ lit " and " ++ single right
  | dayAndTime => lit "can't compare datetime.datetime to datetime.date"
  | timesApart => lit "can't compare offset-naive and offset-aware datetimes"
  | notText index type =>
    lit "sequence item " ++ decimal index ++ lit ": expected str instance, " ++ type ++ lit " found"
  | notMapping section_ type => single section_ ++ lit " must be a mapping, got " ++ type
  | unknownImageSettings keys => lit "Unknown image settings: " ++ Text.join (lit ", ") keys
  | negativeWindow => lit "Window sizes must not be negative"
  | missingKey key => key.quoted
  | malformedReal shown => lit "could not convert string to float: " ++ shown
  | realTooLarge => lit "int too large to convert to float"
  | emptyNumber => lit "string index out of range"
  | noCharacter code =>
    if code < characterWord then lit "chr() arg not in range(0x110000)"
    else lit "Python int too large to convert to C int"
  | noMoment reason => reason
  | endless => lit "maximum recursion depth exceeded"
  | brokenYaml name => lit "Invalid YAML in " ++ name
  | profileNotMapping name type =>
    lit "Profile " ++ name ++ lit " must be a mapping, got " ++ type
  | badProfile name reason => lit "Invalid profile " ++ name ++ lit ": " ++ reason
  | profileNotFound path => lit "Profile not found: " ++ path
  | file problem name => problem.message name
  | notEncoded failure => failure.message
  | notWritable failure => failure.message
  | unreadableVersion version => lit "Incompatible IR version: " ++ version
  | invalid violations => decimal violations.length ++ lit " validation errors"
  | other _ message => message

/-- The fault of a file that cannot be read or written. -/
def ofFile {α : Type} [Alphabet α] (problem : FileProblem) (name : Text α) : Fault :=
  match Alphabet.narrow name with
  | .ok t => .file problem t
  | .error _ => .other problem.kind (problem.message name)

end Fault

end Worksheet
