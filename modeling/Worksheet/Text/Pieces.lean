import Worksheet.Number.Binary64
import Worksheet.Text.Utf8

/-!
# Texts that arrive in pieces

A file is decoded piece by piece, while its characters are handed out in portions.
So the beginning of a text can be used although its end cannot be decoded, and the
place of a fault counts from the piece in which it lies. Every line ends with a
line feed.

* `Pieces.portion` hands out the next portion.
-/

namespace Worksheet

/-- The text with line feeds for carriage returns, of which one before a line
feed is left out. -/
def Text.plainBreaks : Text → Text
  | '\r' :: '\n' :: cs => '\n' :: plainBreaks cs
  | c :: cs => (if c = '\r' then '\n' else c) :: plainBreaks cs
  | [] => []

/-- What is left of a text that arrives in pieces. -/
structure Pieces where
  /-- The bytes that have not arrived yet. -/
  bytes : List UInt8
  /-- The bytes of a character that has not arrived as a whole. -/
  begun : List UInt8 := []
  /-- Whether a carriage return is held back, as a line feed may follow it. -/
  held : Bool := false
  /-- The characters that have not been handed out yet. -/
  ready : Text := []
  /-- The number of bytes per character in the last piece. -/
  ratio : Binary64 := .zero

namespace Pieces

/-- The smallest number of bytes that are taken for a piece. -/
def pieceSize : Nat := 8192

/-- The number of characters in a portion. -/
def portionSize : Nat := 4096

/-- The text of bytes, and those at their end that belong to a character which goes
on in the next piece. Behind the last piece there are no such bytes. -/
def decode (last : Bool) (bs : List UInt8) : Except Utf8.Failure (Text × List UInt8) :=
  match Utf8.decode bs with
  | .ok t => .ok (t, [])
  | .error f =>
    if !last && f.awaitsMore bs then do
      return (← Utf8.decode (bs.take f.offset), bs.drop f.offset)
    else .error f

/-- The text without a carriage return at its end, and whether there was one. -/
def holdReturn (last : Bool) (t : Text) : Text × Bool :=
  if !last && t.getLast? == some '\r' then (t.dropLast, true) else (t, false)

/-- The characters of the next piece, when so many are still wanted, and whether it
is the last one. -/
def next (p : Pieces) (wanted : Nat) : Except Utf8.Failure (Text × Bool × Pieces) := do
  let size := ((p.ratio.mul (Binary64.ofInt wanted)).truncate?.getD 0).toNat
  let piece := p.bytes.take (max pieceSize size)
  let last := piece.isEmpty
  let (t, begun) ← decode last (p.begun ++ piece)
  let (t, held) :=
    if p.held && t.isEmpty && !last then (t, true)
    else holdReturn last (if p.held then '\r' :: t else t)
  let t := Text.plainBreaks t
  let ratio := if t.isEmpty then .zero else Binary64.ofRatio false piece.length t.length
  return (t, last, { p with bytes := p.bytes.drop piece.length, begun, held, ratio })

/-- The next `wanted` characters, or as many as there are. -/
def take : (fuel wanted : Nat) → Pieces → Except Utf8.Failure (Text × Pieces)
  | 0, _, p => .ok ([], p)
  | fuel + 1, wanted, p => do
    let t := p.ready.take wanted
    let p := { p with ready := p.ready.drop wanted }
    if t.length = wanted then return (t, p)
    else
      let (ready, last, p) ← p.next (wanted - t.length)
      let p := { p with ready }
      if last && ready.isEmpty then return (t, p)
      else
        let (rest, p) ← take fuel (wanted - t.length) p
        return (t ++ rest, p)

/-- The next portion, which is empty at the end of the text. -/
def portion (p : Pieces) : Except Utf8.Failure (Text × Pieces) :=
  take (p.bytes.length + 3) portionSize p

end Pieces

end Worksheet
