import Worksheet.Fault
import Worksheet.Text.Digit
import Worksheet.Text.Quoted

/-!
# Arguments

The arguments of a command are flags, which start with a dash, and operands.
Flags can be shortened as long as it is clear which one is meant, and take their
value from the next argument or from behind an equals sign. After two dashes there
are operands only; as the value of a flag they count as no value.

* `Grammar.classify` tells flags from operands;
* `Grammar.read` reads the arguments of a command from left to right. It stops
  where a flag asks for it, or at the first mistake.
-/

namespace Worksheet

/-- What a flag does. -/
inductive FlagKind where
  /-- It asks for help. -/
  | help
  /-- It asks for the version. -/
  | version
  /-- It turns something on. -/
  | switch
  /-- It takes a value, one of a list if there is a list. -/
  | value (choices : Option (List Text))
deriving DecidableEq, Repr

/-- A flag with its spellings. -/
structure Flag where
  names : List Text
  kind : FlagKind
deriving DecidableEq, Repr

/-- What the operands of a command are. -/
inductive Operands where
  /-- A command with all of its arguments, or nothing. -/
  | command (name : Text) (choices : List Text)
  /-- One operand or more. -/
  | some (name : Text)
deriving DecidableEq, Repr

/-- What the arguments of a command can be. -/
structure Grammar where
  /-- The words with which the command is called. -/
  program : Text
  flags : List Flag
  operands : Operands

/-- Why arguments are not read to their end. -/
inductive Stop where
  /-- The help on a program is asked for. -/
  | help (program : Text)
  /-- The version is asked for. -/
  | version
  /-- A mistake in the arguments of a program. -/
  | misuse (program message : Text)
  /-- A fault of a flag without the value that it needs. -/
  | fault (f : Fault)
deriving DecidableEq, Repr

/-- A flag as it is used: one of its spellings, and a value that is given with
it. -/
structure Use where
  flag : Flag
  name : Text
  value : Option Text := none

/-- What an argument is. -/
inductive Role where
  | operand
  /-- Two dashes. -/
  | separator
  | flag (use : Use)
  /-- It looks like a flag, but is none. -/
  | unknown

namespace Role

/-- Whether an argument is, or looks like, a flag. -/
def isFlag : Role → Bool
  | flag _ | unknown => true
  | _ => false

end Role

/-- An argument and what it is. -/
abbrev Argument := Text × Role

/-- What has been read of the arguments. -/
structure Parsed where
  /-- The flags in their order, by the last of their spellings, and their values,
  if they have one. -/
  given : List (Text × Option Text) := []
  operands : List Text := []
  /-- The arguments that were not understood. -/
  extra : List Text := []

namespace Parsed

/-- Whether a flag is given. -/
def has (p : Parsed) (name : Text) : Bool := p.given.any (·.1 = name)

/-- What is given last with a flag, if the flag is given: a value, or no value. -/
def last? (p : Parsed) (name : Text) : Option (Option Text) :=
  ((p.given.filter (·.1 = name)).getLast?).map (·.2)

end Parsed

namespace Grammar

/-- A mistake in the arguments. -/
def misuse {α : Type} (g : Grammar) (message : Text) : Except Stop α :=
  .error (.misuse g.program message)

/-- A mistake with one argument. -/
def wrong {α : Type} (g : Grammar) (name message : Text) : Except Stop α :=
  g.misuse (lit "argument " ++ name ++ lit ": " ++ message)

/-- All spellings of a flag. -/
def shownName (f : Flag) : Text := Text.join ['/'] f.names

/-- The spellings of all flags, each with its flag. -/
def spellings (g : Grammar) : List (Text × Flag) :=
  g.flags.flatMap fun f => f.names.map fun n => (n, f)

/-- The flag with a spelling. -/
def flag? (g : Grammar) (name : Text) : Option Flag :=
  (g.spellings.find? (·.1 = name)).map (·.2)

/-! ## Flags and operands -/

/-- A text before and after its first equals sign, if it has one. -/
def assignment? (t : Text) : Option (Text × Text) :=
  match t.dropWhile (· != '=') with
  | [] => none
  | _ :: value => some (t.takeWhile (· != '='), value)

/-- Whether a text looks like a negative number. -/
def isNegativeNumber : Text → Bool
  | '-' :: t =>
    let body := if t.getLast? = some '\n' then t.dropLast else t
    let fraction := (body.dropWhile isDecimal).drop 1
    (body ≠ [] && body.all isDecimal) ||
      ((body.dropWhile isDecimal).head? == some '.' && fraction ≠ [] && fraction.all isDecimal)
  | _ => false

/-- The flags that an argument which starts with a dash can be short for. -/
def candidates (g : Grammar) (t : Text) : List Use :=
  match t with
  | '-' :: '-' :: _ =>
    let (stem, value) := match assignment? t with
      | none => (t, none)
      | some (stem, value) => (stem, some value)
    (g.spellings.filter fun s => stem.isPrefixOf s.1).map fun s => ⟨s.2, s.1, value⟩
  | _ =>
    g.spellings.filterMap fun s =>
      if s.1 = t.take 2 then some ⟨s.2, s.1, some (t.drop 2)⟩
      else if t.isPrefixOf s.1 then some ⟨s.2, s.1, none⟩
      else none

/-- What an argument is that is neither empty nor a separator. -/
def roleOf (g : Grammar) (t : Text) : Except Stop Role :=
  match t with
  | '-' :: _ :: _ =>
    match g.flag? t, (assignment? t).bind fun a => (g.flag? a.1).map fun f => (f, a) with
    | some f, _ => .ok (.flag ⟨f, t, none⟩)
    | none, some (f, a) => .ok (.flag ⟨f, a.1, some a.2⟩)
    | none, none =>
      match g.candidates t with
      | [u] => .ok (.flag u)
      | [] => .ok (if isNegativeNumber t || t.contains ' ' then .operand else .unknown)
      | us =>
        g.misuse (lit "ambiguous option: " ++ t ++ lit " could match " ++
          Text.join (lit ", ") (us.map (·.name)))
  | _ => .ok .operand

/-- The arguments with what they are. -/
def classify (g : Grammar) : List Text → Except Stop (List Argument)
  | [] => .ok []
  | t :: ts =>
    if t = ['-', '-'] then .ok ((t, .separator) :: ts.map fun t => (t, .operand))
    else do
      let role ← g.roleOf t
      return (t, role) :: (← g.classify ts)

/-! ## Reading -/

/-- A value among choices, as a complaint lists them. -/
def checkChoice (g : Grammar) (name : Text) (choices : List Text) (t : Text) :
    Except Stop Unit :=
  if choices.contains t then .ok ()
  else
    g.wrong name (lit "invalid choice: " ++ t.quoted ++ lit " (choose from " ++
      Text.join (lit ", ") (choices.map Text.quoted) ++ [')'])

/-- What has been read, with a flag and its value. -/
def take (g : Grammar) (p : Parsed) (f : Flag) (value : Option Text) : Except Stop Parsed := do
  match f.kind, value with
  | .help, _ => throw (.help g.program)
  | .version, _ => throw .version
  | .value (some choices), some t => g.checkChoice (shownName f) choices t
  | _, _ => pure ()
  return { p with given := p.given ++ [(f.names.getLastD [], value)] }

/-- Whether a flag takes a value. -/
def takesValue (f : Flag) : Bool :=
  match f.kind with
  | .value _ => true
  | _ => false

/-- The flags without a value that are written behind one dash. The first letter
behind a flag, be it behind an equals sign or not, has to be a flag as well. -/
def bundle (g : Grammar) (f : Flag) (name : Text) : Text → Except Stop (List Flag)
  | [] => .ok [f]
  | c :: cs =>
    match if name.take 2 = ['-', '-'] then none else g.flag? ['-', c] with
    | some next => return f :: (← g.bundle next ['-', c] cs)
    | none => g.wrong (shownName f) (lit "ignored explicit argument " ++ Text.quoted (c :: cs))

/-- The flags that are meant by a use of one that takes no value. -/
def flagsOf (g : Grammar) (u : Use) : Except Stop (List Flag) :=
  match u.value with
  | some [] => g.wrong (shownName u.flag) (lit "ignored explicit argument " ++ Text.quoted [])
  | value => g.bundle u.flag u.name (value.getD [])

/-- A value that is given behind an equals sign, unless it is two dashes. -/
def assigned (value : Text) : Option Text := if value = ['-', '-'] then none else some value

/-- What has been read, with a flag as it is used, and the arguments after it. -/
def readFlag (g : Grammar) (p : Parsed) (u : Use) (rest : List Argument) :
    Except Stop (Parsed × List Argument) := do
  if takesValue u.flag then
    match u.value, rest with
    | some v, _ => return (← g.take p u.flag (assigned v), rest)
    | none, (v, .operand) :: rest => return (← g.take p u.flag v, rest)
    | none, _ => g.wrong (shownName u.flag) (lit "expected one argument")
  else return (← (← g.flagsOf u).foldlM (fun p f => g.take p f none) p, rest)

/-- Whether operands are still to come, and there is one among arguments. -/
def hasOperands (p : Parsed) (lead : List Argument) : Bool :=
  p.operands.isEmpty && lead.any fun a =>
    match a.2 with
    | .operand => true
    | _ => false

/-- What has been read, with the operands. A separator among files does not
count. -/
def takeOperands (g : Grammar) (p : Parsed) (ts : List Text) : Except Stop Parsed := do
  match g.operands with
  | .some _ => return { p with operands := ts.erase ['-', '-'] }
  | .command name choices =>
    g.checkChoice name choices (ts.headD [])
    return { p with operands := ts }

/-- The arguments before the next flag, and those from it on. -/
def splitAtFlag (as : List Argument) : List Argument × List Argument :=
  (as.takeWhile (!·.2.isFlag), as.dropWhile (!·.2.isFlag))

/-- Reads arguments after what has been read before. -/
def readFrom (g : Grammar) : (fuel : Nat) → Parsed → List Argument → Except Stop Parsed
  | 0, p, _ => .ok p
  | fuel + 1, p, as => do
    let (lead, rest) := splitAtFlag as
    if hasOperands p lead then
      match g.operands with
      | .command .. => g.takeOperands p (as.map (·.1))
      | .some _ => readFrom g fuel (← g.takeOperands p (lead.map (·.1))) rest
    else
      let p := { p with extra := p.extra ++ lead.map (·.1) }
      match rest with
      | [] => return p
      | (_, .flag u) :: rest =>
        let (p, rest) ← g.readFlag p u rest
        readFrom g fuel p rest
      | (t, _) :: rest => readFrom g fuel { p with extra := p.extra ++ [t] } rest

/-- Reads arguments. -/
def read (g : Grammar) (ts : List Text) : Except Stop Parsed := do
  let as ← g.classify ts
  let p ← g.readFrom (as.length + 1) {} as
  match g.operands with
  | .some name =>
    if p.operands.isEmpty then
      g.misuse (lit "the following arguments are required: " ++ name)
    else return p
  | .command .. => return p

end Grammar

end Worksheet
