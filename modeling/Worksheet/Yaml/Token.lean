import Worksheet.Yaml.Characters

/-!
# Tokens of YAML

The parts of a YAML text, in the order in which the structure of the document is
read from them. Indentation shows in tokens for the start and the end of block
collections.

* `Token.readAnchor`, `Token.readTag` and `Token.readDirective` read the tokens
  that consist of a mark and a name.
-/

namespace Worksheet.Yaml

/-- A part of a YAML text. -/
inductive Token where
  | streamEnd
  /-- The major version that a document is written in. -/
  | version (major : Nat)
  /-- An abbreviation for the beginning of tags. -/
  | abbreviation (handle stem : Text)
  /-- A directive without a meaning. -/
  | directive
  | documentStart
  | documentEnd
  | blockSequenceStart
  | blockMappingStart
  | blockEnd
  | flowSequenceStart
  | flowSequenceEnd
  | flowMappingStart
  | flowMappingEnd
  | blockEntry
  | flowEntry
  | key
  | value
  | alias (name : Text)
  | anchor (name : Text)
  /-- A tag; without a handle the suffix is all of it. -/
  | tag (handle : Option Text) (suffix : Text)
  /-- A scalar, and whether it is plain. -/
  | scalar (content : Content) (plain : Bool)
deriving DecidableEq, Repr

namespace Token

/-! ## Anchors -/

/-- A character that may follow the name of an anchor. -/
def endsAnchor : Text → Bool
  | [] => true
  | c :: cs => endsWord (c :: cs) || (lit "?:,]\x7d%@\x60").contains c

/-- The name of an anchor or an alias, and the rest. -/
def readAnchor (t : Text) : Except Failure (Text × Text) :=
  let name := t.takeWhile isNameChar
  let rest := t.dropWhile isNameChar
  if name = [] then .error (.before rest)
  else if !endsAnchor rest then .error .broken
  else .ok (name, rest)

/-! ## Tags -/

/-- A character of a tag. -/
def isTagChar (c : Char) : Bool :=
  isNameChar c || (lit ";/?:@&=+$,.!~*'()[]").contains c

/-- The bytes that escapes at the start of a text stand for, and the rest. -/
def escapedBytes : Text → Except Failure (List UInt8 × Text)
  | [] => .ok ([], [])
  | c :: cs =>
    if c = '%' then
      match cs with
      | a :: b :: rest =>
        match hexValue? a, hexValue? b with
        | some m, some n => do
          let r ← escapedBytes rest
          return (UInt8.ofNat (m * 16 + n) :: r.1, r.2)
        | _, _ => .error .broken
      | [a] => .error (if (hexValue? a).isSome then .unfinished else .broken)
      | [] => .error .unfinished
    else .ok ([], c :: cs)

/-- The characters of a tag, and the rest. -/
def tagChars : (fuel : Nat) → Text → Except Failure (Text × Text)
  | 0, t => .ok ([], t)
  | _ + 1, [] => .ok ([], [])
  | fuel + 1, c :: cs =>
    if c = '%' then do
      let (bytes, rest) ← escapedBytes (c :: cs)
      match Utf8.decode bytes with
      | .error _ => throw .broken
      | .ok part =>
        let r ← tagChars fuel rest
        return (part ++ r.1, r.2)
    else if isTagChar c then do
      let r ← tagChars fuel cs
      return (c :: r.1, r.2)
    else .ok ([], c :: cs)

/-- The characters of a tag, of which there is at least one, and the rest. -/
def readTagChars (t : Text) : Except Failure (Text × Text) :=
  match t with
  | [] => .error .unfinished
  | c :: _ => if c = '%' || isTagChar c then tagChars (t.length + 1) t else .error .broken

/-- A handle: names between exclamation marks, or a single mark before a blank. -/
def readHandle (t : Text) : Except Failure (Text × Text) :=
  match t with
  | '!' :: ' ' :: rest => .ok (['!'], ' ' :: rest)
  | '!' :: cs =>
    match cs.dropWhile isNameChar with
    | '!' :: rest => .ok ('!' :: (cs.takeWhile isNameChar ++ ['!']), rest)
    | rest => .error (.before rest)
  | t => .error (.before t)

/-- The tag after its mark, and the rest. -/
def readTag (t : Text) : Except Failure (Token × Text) := do
  let (handle, suffix, rest) ← match t with
    | '<' :: cs => do
      let (name, rest) ← readTagChars cs
      match rest with
      | '>' :: rest => pure (none, name, rest)
      | rest => throw (Failure.before rest)
    | _ =>
      if endsWord t then pure (none, ['!'], t)
      else do
        let head := t.takeWhile fun c => !(c == ' ' || isBreak c)
        let (handle, rest) ← if '!' ∈ head then readHandle ('!' :: t) else pure (['!'], t)
        let (name, rest) ← readTagChars rest
        pure (some handle, name, rest)
  if endsTag rest then return (.tag handle suffix, rest) else throw .broken

/-! ## Directives -/

/-- A number, which has to be there, and the rest. -/
def readNumber (t : Text) : Except Failure (Nat × Text) :=
  match t.takeWhile isAsciiDigit with
  | [] => .error (.before t)
  | ds =>
    if digitLimit < ds.length then .error (.fault (.tooManyDigits ds.length))
    else .ok (digitsValue ds, t.dropWhile isAsciiDigit)

/-- The major version of a document, and the rest. -/
def readVersion (t : Text) : Except Failure (Token × Text) := do
  let (major, rest) ← readNumber (t.dropWhile (· == ' '))
  match rest with
  | '.' :: rest =>
    let (_, rest) ← readNumber rest
    if endsTag rest then return (.version major, rest) else throw .broken
  | rest => throw (.before rest)

/-- An abbreviation for tags, and the rest. -/
def readAbbreviation (t : Text) : Except Failure (Token × Text) := do
  let (handle, rest) ← readHandle (t.dropWhile (· == ' '))
  match rest with
  | ' ' :: rest =>
    let (stem, rest) ← readTagChars (rest.dropWhile (· == ' '))
    if endsTag rest then return (.abbreviation handle stem, rest) else throw .broken
  | rest => throw (.before rest)

/-- The text after a line on which only a comment is left. -/
def skipLine (t : Text) : Except Failure Text :=
  let rest := match t.dropWhile (· == ' ') with
    | '#' :: rest => rest.dropWhile (!isBreak ·)
    | rest => rest
  match rest with
  | [] => .ok []
  | c :: cs => if isBreak c then .ok cs else .error .broken

/-- The directive after its mark, and the rest. -/
def readDirective (t : Text) : Except Failure (Token × Text) := do
  let name := t.takeWhile isNameChar
  let rest := t.dropWhile isNameChar
  if name = [] then throw (.before rest)
  if !endsTag rest then throw .broken
  let (token, rest) ←
    if name = lit "YAML" then readVersion rest
    else if name = lit "TAG" then readAbbreviation rest
    else pure (directive, rest.dropWhile (!isBreak ·))
  return (token, ← skipLine rest)

end Token

end Worksheet.Yaml
