import Worksheet.Yaml.Scalar.Block
import Worksheet.Yaml.Scalar.Quoted
import Worksheet.Yaml.Source
import Worksheet.Yaml.Token

/-!
# Reading tokens

Whether something is the key of a mapping shows only at the colon after it. A
lexer therefore remembers, for every level of brackets, the place where a key may
have started, and puts the token for the key there once it meets the colon. Such
a key lies within one line and is at most `keyLimit` characters long. The token at
such a place is not settled as long as the key is possible.

* `Tokens.ofSource` gives the tokens of a source, and what comes of going on where
  there are no more of them.
-/

namespace Worksheet.Yaml

/-- A place in a text. -/
structure Place where
  index : Nat := 0
  line : Nat := 0
  column : Nat := 0
deriving DecidableEq, Repr

/-- The mark with which a text may begin. It takes up no column. -/
def byteOrderMark : Char := '\uFEFF'

/-- The place after a character. -/
def Place.next (p : Place) (c : Char) : Place :=
  if isBreak c then ⟨p.index + 1, p.line + 1, 0⟩
  else ⟨p.index + 1, p.line, if c = byteOrderMark then p.column else p.column + 1⟩

/-- The start of what may turn out to be a key. -/
structure PossibleKey where
  /-- The number of tokens before it. -/
  position : Nat
  /-- Whether it has to be a key, because of its column. -/
  required : Bool
  place : Place

/-- The tokens that have been read, and what is known about the text that
follows. -/
structure Lexer where
  rest : Text
  place : Place := {}
  tokens : List Token := []
  /-- The columns of the block collections around, the innermost first. -/
  indents : List Nat := []
  /-- The possible keys of the levels of brackets, the innermost first. -/
  keys : List (Option PossibleKey) := [none]
  /-- Whether a key may start here. -/
  keyAllowed : Bool := true
  finished : Bool := false

/-- The largest number of characters from the start of a key to its colon. -/
def keyLimit : Nat := 1024

namespace Lexer

/-- The column of the innermost block collection, or a column before the first if
there is none. -/
def indent (l : Lexer) : Int :=
  match l.indents with
  | [] => -1
  | n :: _ => n

/-- Whether the place is within brackets. -/
def inFlow (l : Lexer) : Bool := 1 < l.keys.length

/-- The lexer moved on to a later part of the text. -/
def moveTo (l : Lexer) (rest : Text) : Lexer :=
  let passed := l.rest.take (l.rest.length - rest.length)
  { l with rest, place := passed.foldl Place.next l.place }

/-- The lexer with one more token. -/
def emit (l : Lexer) (t : Token) : Lexer := { l with tokens := l.tokens ++ [t] }

/-- The lexer with a token put in where a key started. -/
def insertAt (l : Lexer) (position : Nat) (t : Token) : Lexer :=
  { l with tokens := l.tokens.take position ++ t :: l.tokens.drop position }

/-! ## Keys -/

/-- The possible key of the innermost level. -/
def key? (l : Lexer) : Option PossibleKey := l.keys.head?.join

/-- The lexer with another possible key of the innermost level. -/
def setKey (l : Lexer) (k : Option PossibleKey) : Lexer := { l with keys := k :: l.keys.tail }

/-- The lexer without a possible key of the innermost level. -/
def dropKey (l : Lexer) : Except Failure Lexer :=
  match l.key? with
  | some k => if k.required then .error .broken else .ok (l.setKey none)
  | none => .ok l

/-- The lexer after it has noted that a key may start here. -/
def noteKey (l : Lexer) : Except Failure Lexer :=
  if l.keyAllowed then do
    let required := !l.inFlow && l.indent == l.place.column
    return (← l.dropKey).setKey (some ⟨l.tokens.length, required, l.place⟩)
  else .ok l

/-- Whether a possible key is no longer one. -/
def isStale (l : Lexer) (k : PossibleKey) : Bool :=
  k.place.line != l.place.line || keyLimit < l.place.index - k.place.index

/-- The lexer without possible keys that are no longer such. -/
def dropStaleKeys (l : Lexer) : Except Failure Lexer :=
  let stale (k : Option PossibleKey) : Bool := k.any l.isStale
  if l.keys.any fun k => stale k && k.any (·.required) then .error .broken
  else .ok { l with keys := l.keys.map fun k => if stale k then none else k }

/-! ## Indentation -/

/-- The lexer after the ends of the block collections that are indented deeper
than a column. -/
def unwind (l : Lexer) (column : Int) : Lexer :=
  if l.inFlow then l
  else
    let deeper (n : Nat) : Bool := column < n
    { l with
      indents := l.indents.dropWhile deeper
      tokens := l.tokens ++ (l.indents.takeWhile deeper).map fun _ => .blockEnd }

/-- Whether a block collection starts at a column. -/
def opensAt (l : Lexer) (column : Nat) : Bool := !l.inFlow && l.indent < column

/-- The lexer after the start of a block collection, if there is one here. -/
def openHere (l : Lexer) (t : Token) : Lexer :=
  if l.opensAt l.place.column then
    { l with indents := l.place.column :: l.indents, tokens := l.tokens ++ [t] }
  else l

/-! ## Tokens -/

/-- The text after blanks, breaks and comments, and whether a break is among
them. -/
def skip (inComment : Bool) : Text → Bool × Text
  | [] => (false, [])
  | c :: cs =>
    if isBreak c then (true, (skip false cs).2)
    else if inComment then skip true cs
    else if c = ' ' then skip false cs
    else if c = '#' then skip true cs
    else (false, c :: cs)

/-- The lexer at the next token, after the ends of the collections that this
token does not belong to. -/
def approach (l : Lexer) : Except Failure Lexer := do
  let (broken, rest) := skip false l.rest
  let l := l.moveTo rest
  let l := if broken && !l.inFlow then { l with keyAllowed := true } else l
  let l ← l.dropStaleKeys
  return l.unwind l.place.column

/-- The lexer after a token that stands before or after a document. -/
def separator (l : Lexer) (t : Token) (rest : Text) : Except Failure Lexer := do
  let l ← (l.unwind (-1)).dropKey
  return ({ l with keyAllowed := false }.moveTo rest).emit t

/-- The lexer at the end of the text. -/
def finish (l : Lexer) : Except Failure Lexer := do
  let l ← (l.unwind (-1)).dropKey
  return { l.emit .streamEnd with finished := true }

/-- The lexer after a bracket that opens a collection. -/
def openFlow (l : Lexer) (t : Token) (rest : Text) : Except Failure Lexer := do
  let l := ((← l.noteKey).moveTo rest).emit t
  return { l with keys := none :: l.keys, keyAllowed := true }

/-- The lexer after a bracket that closes a collection. -/
def closeFlow (l : Lexer) (t : Token) (rest : Text) : Except Failure Lexer := do
  if !l.inFlow then throw .broken
  let l := ((← l.dropKey).moveTo rest).emit t
  return { l with keys := l.keys.tail, keyAllowed := false }

/-- The lexer after a comma within brackets. -/
def flowEntry (l : Lexer) (rest : Text) : Except Failure Lexer := do
  let l ← l.dropKey
  return ({ l with keyAllowed := true }.moveTo rest).emit .flowEntry

/-- The lexer after a dash that marks an entry. -/
def blockEntry (l : Lexer) (rest : Text) : Except Failure Lexer := do
  if !l.inFlow && !l.keyAllowed then throw .broken
  let l ← (l.openHere .blockSequenceStart).dropKey
  let l := { l with keyAllowed := true }
  return (l.moveTo rest).emit .blockEntry

/-- The lexer after a question mark that marks a key. -/
def explicitKey (l : Lexer) (rest : Text) : Except Failure Lexer := do
  if !l.inFlow && !l.keyAllowed then throw .broken
  let l ← (l.openHere .blockMappingStart).dropKey
  let l := { l with keyAllowed := !l.inFlow }
  return (l.moveTo rest).emit .key

/-- The lexer after the colon of a key that had no mark. -/
def endKey (l : Lexer) (k : PossibleKey) : Lexer :=
  let opens := l.opensAt k.place.column
  let l := (l.insertAt k.position .key).setKey none
  let l := { l with keyAllowed := false }
  if opens then
    { l with indents := k.place.column :: l.indents }.insertAt k.position .blockMappingStart
  else l

/-- The lexer after a colon that marks a value. -/
def mappingValue (l : Lexer) (rest : Text) : Except Failure Lexer := do
  let l ← match l.key? with
    | some k => pure (l.endKey k)
    | none => do
      if !l.inFlow && !l.keyAllowed then throw .broken
      let l ← (l.openHere .blockMappingStart).dropKey
      pure { l with keyAllowed := !l.inFlow }
  return (l.moveTo rest).emit .value

/-- The lexer after a token that may belong to a key. -/
def inKey (l : Lexer) (read : Except Failure (Token × Text)) : Except Failure Lexer := do
  let l ← l.noteKey
  let (t, rest) ← read
  return ({ l with keyAllowed := false }.moveTo rest).emit t

/-- The lexer after a block scalar. -/
def blockScalar (l : Lexer) (fold : Bool) (t : Text) : Except Failure Lexer := do
  let l ← l.dropKey
  let (text, rest) ← Block.read fold l.indent t
  return ({ l with keyAllowed := true }.moveTo rest).emit (.scalar (.text text) false)

/-- A scalar in quotes, and the rest. -/
def quotedScalar (double : Bool) (t : Text) : Except Failure (Token × Text) := do
  let (codes, rest) ← Quoted.read double (t.length + 1) t
  return (.scalar (.ofCodes codes) false, rest)

/-- The lexer after a plain scalar. -/
def plainScalar (l : Lexer) : Except Failure Lexer := do
  let l ← l.noteKey
  let (text, rest, broken) :=
    Plain.read l.inFlow (l.indent + 1) (l.rest.length + 1) false l.rest
  return ({ l with keyAllowed := broken }.moveTo rest).emit (.scalar (.text text) true)

/-- An anchor or an alias, and the rest. -/
def named (token : Text → Token) (t : Text) : Except Failure (Token × Text) := do
  let (name, rest) ← Token.readAnchor t
  return (token name, rest)

/-- Whether a plain scalar starts with a character before a given text. -/
def startsPlain (inFlow : Bool) (c : Char) (cs : Text) : Bool :=
  !(isGap c || isBreak c || (lit "-?:,[]\x7b\x7d#&*!|>'\"%@\x60").contains c) ||
    (!endsWord cs && (c == '-' || (!inFlow && (c == '?' || c == ':'))))

/-- The lexer after the next token. -/
def next (l : Lexer) : Except Failure Lexer := do
  let l ← l.approach
  let inFlow := l.inFlow
  match l.rest with
  | [] => l.finish
  | c :: cs =>
    if l.place.column = 0 ∧ c = '%' then
      let (t, rest) ← Token.readDirective cs
      l.separator t rest
    else if l.place.column = 0 ∧ separatesDocuments (c :: cs) then
      l.separator (if c = '-' then .documentStart else .documentEnd) (cs.drop 2)
    else if c = '[' then l.openFlow .flowSequenceStart cs
    else if c = '\x7b' then l.openFlow .flowMappingStart cs
    else if c = ']' then l.closeFlow .flowSequenceEnd cs
    else if c = '\x7d' then l.closeFlow .flowMappingEnd cs
    else if c = ',' then l.flowEntry cs
    else if c = '-' ∧ endsWord cs then l.blockEntry cs
    else if c = '?' ∧ (inFlow ∨ endsWord cs) then l.explicitKey cs
    else if c = ':' ∧ (inFlow ∨ endsWord cs) then l.mappingValue cs
    else if c = '*' then l.inKey (named .alias cs)
    else if c = '&' then l.inKey (named .anchor cs)
    else if c = '!' then l.inKey (Token.readTag cs)
    else if c = '|' ∧ !inFlow then l.blockScalar false cs
    else if c = '>' ∧ !inFlow then l.blockScalar true cs
    else if c = '\'' then l.inKey (quotedScalar false cs)
    else if c = '"' then l.inKey (quotedScalar true cs)
    else if startsPlain inFlow c cs then l.plainScalar
    else throw .broken

/-- The number of tokens that are settled: those before the first possible key. -/
def settled (l : Lexer) : Nat :=
  let possible := (l.keys.filterMap id).filter (!l.isStale ·)
  (possible.map (·.position)).foldl min l.tokens.length

end Lexer

/-- Tokens, and the failure of reading one more token after them. -/
structure Tokens where
  list : List Token
  failure : Failure := .broken

namespace Tokens

/-- The tokens that are settled before a failure. -/
def before (l : Lexer) (f : Failure) : Tokens := ⟨l.tokens.take l.settled, f⟩

/-- The tokens up to the end of a source, or up to a failure. Where a token ends
shows only in the character behind it, so a cut comes before the token that
reaches it. -/
def ofLexer (cut : Option Failure) : (fuel : Nat) → Lexer → Tokens
  | 0, l => before l .broken
  | fuel + 1, l =>
    let reaches (rest : Text) : Bool := cut.isSome && rest.isEmpty
    let failure := cut.getD .broken
    if reaches (Lexer.skip false l.rest).2 then before l failure
    else
      match l.next with
      | .error .unfinished => before l failure
      | .error f => before l f
      | .ok next =>
        if next.finished then ⟨next.tokens, .broken⟩
        else if reaches next.rest then before l failure
        else ofLexer cut fuel next

/-- The tokens of a source. -/
def ofSource (s : Source) : Tokens :=
  let start : Lexer := { rest := s.text }
  let start := match s.text with
    | c :: cs => if c = byteOrderMark then start.moveTo cs else start
    | [] => start
  ofLexer s.cut (s.text.length + 2) start

end Tokens

end Worksheet.Yaml
