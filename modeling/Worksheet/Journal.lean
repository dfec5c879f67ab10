import Worksheet.About
import Worksheet.Fault
import Worksheet.Text.Blank
import Worksheet.Text.Case
import Worksheet.Value

/-!
# The journal

A journal keeps the events that parts of the program report, of those that its
level and its channels admit. A report is a `Call`; what is kept of it is an
`Event`, to which the journal adds the channel and the fields of the current
document.

* `Journal.admits` tells which calls are kept;
* `Journal.call` makes a call, which is refused if one of its fields has a name
  that is taken; `Journal.record` leaves such a call out;
* `Journal.bind` and `Journal.clear` set the fields of the current document;
* `Journal.configure` sets level, format and channels.
-/

namespace Worksheet

/-- How much a journal keeps. -/
inductive Level where
  /-- Nothing. -/
  | silent
  /-- Milestones. -/
  | info
  /-- Details. -/
  | verbose
  /-- Everything. -/
  | debug
deriving DecidableEq, Repr

namespace Level

/-- The place of a level in the order from silent to debug. -/
def rank : Level → Nat
  | silent => 0
  | info => 1
  | verbose => 2
  | debug => 3

/-- All levels. -/
def all : List Level := [silent, info, verbose, debug]

/-- The name of a level. -/
def name : Level → Text
  | silent => lit "silent"
  | info => lit "info"
  | verbose => lit "verbose"
  | debug => lit "debug"

/-- The level that a name stands for in any case. A name that is not known
stands for the level of milestones. -/
def ofName (t : Text) : Level :=
  (all.find? (·.name = t.lower)).getD info

end Level

/-- The part of the program that an event comes from. -/
inductive Channel where
  | engine
  | extract
  | fix
  | rule
  | system
deriving DecidableEq, Repr

namespace Channel

/-- All channels, in the order of their names. -/
def all : List Channel := [engine, extract, fix, rule, system]

/-- The name of a channel in small letters. -/
def smallName : Channel → Text
  | engine => lit "engine"
  | extract => lit "extract"
  | fix => lit "fix"
  | rule => lit "rule"
  | system => lit "system"

/-- The name of a channel. -/
def name : Channel → Text
  | engine => lit "ENGINE"
  | extract => lit "EXTRACT"
  | fix => lit "FIX"
  | rule => lit "RULE"
  | system => lit "SYSTEM"

/-- The channel with a given name. -/
def ofExactName? (t : Text) : Option Channel := all.find? (·.name = t)

/-- The channel with a given name, in any case. -/
def ofName? (t : Text) : Option Channel := t.asciiUpper?.bind ofExactName?

end Channel

/-- The urgency of a call. -/
inductive Urgency where
  | info
  | verbose
  | debug
  | warning
  | error
deriving DecidableEq, Repr

namespace Urgency

/-- The name under which an event of this urgency is kept; details are kept
together with everything else. -/
def name : Urgency → Text
  | info => lit "info"
  | verbose | debug => lit "debug"
  | warning => lit "warning"
  | error => lit "error"

/-- The level from which on a call is kept, for calls that depend on it. -/
def level? : Urgency → Option Level
  | info => some .info
  | verbose => some .verbose
  | debug => some .debug
  | warning | error => none

/-- The level that is written into the event. -/
def levelField? : Urgency → Option Text
  | verbose => some (lit "verbose")
  | debug => some (lit "debug")
  | _ => none

end Urgency

/-- Named fields of an event. -/
abbrev Fields := List (Text × Value)

namespace Fields

/-- The fields with a value for a name. -/
def put (name : Text) (value : Value) : Fields → Fields
  | [] => [(name, value)]
  | (n, v) :: rest => if n = name then (n, value) :: rest else (n, v) :: put name value rest

/-- The fields with the values of other fields put in. -/
def update (fs others : Fields) : Fields := others.foldl (fun fs f => put f.1 f.2 fs) fs

/-- The value of a name. -/
def get? (fs : Fields) (name : Text) : Option Value :=
  (fs.find? (·.1 = name)).map (·.2)

/-- Whether a name has a value. -/
def has (fs : Fields) (name : Text) : Bool := fs.any (·.1 = name)

end Fields

/-- Where a call comes from. -/
structure Logger where
  name : Text
  channel : Channel
  rule : Option Text := none
deriving DecidableEq, Repr

namespace Logger

/-- The logger of a channel. -/
def ofChannel (c : Channel) : Logger := ⟨About.program ++ '.' :: c.smallName, c, none⟩

/-- The logger of a channel that is given by its name; a name that is not known
stands for the system. -/
def ofChannelName (t : Text) : Logger := ofChannel ((Channel.ofName? t).getD .system)

/-- The logger of a rule. Unless a channel is given, it is the one for findings
if the name of the rule starts with an `r`, and otherwise that of the engine. -/
def ofRule (rule : Text) (channel : Option Channel := none) : Logger :=
  let usual := if rule.head? = some 'r' then Channel.rule else Channel.engine
  ⟨About.program ++ '.' :: rule, channel.getD usual, some rule⟩

end Logger

/-- A report of a part of the program. -/
structure Call where
  logger : Logger
  urgency : Urgency
  event : Text
  fields : Fields := []

/-- A report that was kept. -/
structure Event where
  logger : Text
  urgency : Urgency
  event : Text
  fields : Fields

/-- A journal: what it keeps, the fields of the current document, and the events
kept so far. -/
structure Journal where
  level : Level := .silent
  format : Text := lit "console"
  channels : List Channel := Channel.all
  context : Fields := []
  events : List Event := []

namespace Journal

/-- Whether a call is kept. Warnings and errors are kept unless the journal is
silent; of the others, those whose channel is on and whose level is reached. -/
def admits (j : Journal) (c : Call) : Bool :=
  match c.urgency.level? with
  | none => j.level != .silent
  | some l => j.channels.contains c.logger.channel && l.rank ≤ j.level.rank

/-- The fields of the event that is kept of a call. -/
def fieldsOf (j : Journal) (c : Call) : Fields :=
  let start : Fields := [(lit "channel", .text c.logger.channel.name)]
  let level : Fields := match c.urgency.levelField? with
    | none => []
    | some l => [(lit "level", .text l)]
  let rule : Fields := match c.logger.rule with
    | none => []
    | some r => if r = [] then [] else [(lit "rule", .text r)]
  (((start.update level).update c.fields).update rule).update j.context

/-- The event that is kept of a call. -/
def eventOf (j : Journal) (c : Call) : Event :=
  ⟨c.logger.name, c.urgency, c.event, j.fieldsOf c⟩

/-- Names that a field cannot have, because a call has them anyway. -/
def takenNames : List Text := [lit "event", lit "self"]

/-- The fault of a field with a name that is taken. -/
def takenName (name : Text) : Fault :=
  .other (lit "TypeError") (lit "got multiple values for argument " ++ Fault.single name)

/-- The journal after a call. -/
def call (j : Journal) (c : Call) : Except Fault Journal :=
  match takenNames.find? c.fields.has with
  | some name => .error (takenName name)
  | none =>
    if !j.admits c then .ok j
    else if c.urgency.levelField?.isSome && c.fields.has (lit "level") then
      .error (takenName (lit "level"))
    else match takenNames.find? j.context.has with
      | some name => .error (takenName name)
      | none => .ok { j with events := j.events ++ [j.eventOf c] }

/-- The journal after a call that is left out if it is refused. -/
def record (j : Journal) (c : Call) : Journal :=
  match j.call c with
  | .ok j' => j'
  | .error _ => j

/-- The journal after several calls. -/
def recordAll (j : Journal) (cs : List Call) : Journal := cs.foldl record j

/-- The journal with fields of the current document. -/
def bind (j : Journal) (fields : Fields) : Journal :=
  { j with context := j.context.update fields }

/-- The journal without a current document. -/
def clear (j : Journal) : Journal := { j with context := [] }

/-- The journal without its events. -/
def emptied (j : Journal) : Journal := { j with events := [] }

end Journal

/-! ## Configuration -/

/-- The variables of the environment that matter to a journal. -/
structure Environment where
  level : Option Text := none
  format : Option Text := none
  channels : Option Text := none

/-- What a journal is asked to keep; what is not said is taken from the
environment. -/
structure JournalRequest where
  level : Option Level := none
  format : Option Text := none
  channels : Option (List Channel) := none

namespace Channel

/-- The channels that names stand for; blanks around a name do not matter, and a
name that is not known is skipped. -/
def ofNames (names : List Text) : List Channel :=
  names.filterMap fun n => ofName? (n.trim isBlank)

/-- The channels that the environment asks for: names with commas between them.
If none of them is known, all channels are meant. -/
def ofEnvironment (names : Option Text) : List Channel :=
  match names with
  | none => all
  | some t =>
    match ofNames (t.splitOn (· == ',')) with
    | [] => all
    | cs => cs

end Channel

/-- The journal set up as asked for. A journal that is in use keeps its
configuration unless `force` is set. -/
def Journal.configure (j : Journal) (env : Environment) (r : JournalRequest) (force : Bool) :
    Journal :=
  if !force then j
  else
    let chosen := r.channels.getD (Channel.ofEnvironment env.channels)
    { j with
      level := r.level.getD (Level.ofName (env.level.getD (lit "info")))
      format := r.format.getD (env.format.getD (lit "console"))
      channels := Channel.all.filter chosen.contains }

end Worksheet
