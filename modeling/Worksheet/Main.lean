import Std.Time
import Worksheet.CommandLine

/-!
# The program

Runs the command line on the system's own files and clock.
-/

namespace Worksheet.Main

/-- A text of the system. -/
def ofString (s : String) : Text := s.toList

/-- The number of an error, which the system may give with a minus sign. -/
def errorNumber (code : UInt32) : Nat := min code.toNat (0 - code).toNat

/-- The problem that an error of the system stands for. -/
def problemOf (e : IO.Error) : FileProblem :=
  let other := FileProblem.other (ofString (toString e))
  match e with
  | .noFileOrDirectory .. => .missing
  | .inappropriateType _ code _ =>
    if errorNumber code = 20 then .notDirectory
    else if errorNumber code = 21 then .isDirectory
    else other
  | .invalidArgument _ code _ => if errorNumber code = 36 then .nameTooLong else other
  | _ => other

/-- Does something with a file. -/
def attempt {α : Type} (name : Text) (act : String → IO α) : IO (Except FileProblem α) := do
  if '\x00' ∈ name then return .error .badName
  try return .ok (← act (String.ofList name))
  catch e => return .error (problemOf e)

/-- The local time. -/
def now : IO Moment := do
  let t ← Std.Time.PlainDateTime.now
  let year : Int := t.date.year
  return {
    date := ⟨year.toNat, t.date.month.val.toNat, t.date.day.val.toNat⟩
    hour := t.time.hour.val.toNat
    minute := t.time.minute.val.toNat
    second := t.time.second.val.toNat
    microsecond := t.time.nanosecond.val.toNat / 1000 }

/-- The host that the program really runs on. -/
def host : Host IO where
  read name := attempt name fun file => return (← IO.FS.readBinFile file).toList
  write name bytes := attempt name fun file => IO.FS.writeBinFile file ⟨bytes.toArray⟩
  timed work := do
    let moment ← now
    let start ← IO.monoNanosNow
    let result ← IO.lazyPure work
    let stop ← IO.monoNanosNow
    return (result, moment, Binary64.ofRatio false ((stop - start) / 1000) 1000)

/-- What the environment says about the journal. -/
def environment : IO Environment := do
  return {
    level := (← IO.getEnv "EDVAL_LOG_LEVEL").map ofString
    format := (← IO.getEnv "EDVAL_LOG_FORMAT").map ofString
    channels := (← IO.getEnv "EDVAL_LOG_CHANNELS").map ofString }

end Worksheet.Main

/-- Runs the program. -/
def main (args : List String) : IO UInt32 := do
  let e ← Worksheet.CommandLine.run Worksheet.Main.host (← Worksheet.Main.environment)
    (args.map Worksheet.Main.ofString)
  for line in e.out do IO.println (String.ofList line)
  for line in e.err do IO.eprintln (String.ofList line)
  match e.exit with
  | .ok n => return UInt32.ofNat n
  | .error f =>
    IO.eprintln (String.ofList (f.kind ++ ": ".toList ++ f.message))
    return 1
