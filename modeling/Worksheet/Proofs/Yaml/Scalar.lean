import Worksheet.Proofs.Value.Conversion
import Worksheet.Yaml.Scalar.Block
import Worksheet.Yaml.Scalar.Quoted
import Worksheet.Yaml.Scalar.Value

/-!
# Faults of scalars

Reading YAML fails because the text is no YAML, or because of a fault. The faults belong to
the classes `Yaml.faultKinds` (`Failure.Usual`). Here this is shown of scalars: of those in
quotes and of block scalars as texts (`Quoted.faults_read`, `Block.faults_read`), and of all
of them as values (`Scalar.faults_value`).
-/

namespace Worksheet.Yaml

/-- The classes of the faults with which reading YAML can fail. -/
def faultKinds : List Text :=
  ["ValueError", "TypeError", "KeyError", "IndexError", "AttributeError", "OverflowError",
   "RecursionError", "UnicodeDecodeError"].map lit

/-- A fault of one of these classes. -/
def UsualFault (f : Fault) : Prop := f.kind ∈ faultKinds

/-- A failure that, if it is a fault, belongs to one of these classes. -/
def Failure.Usual : Failure → Prop
  | .fault f => UsualFault f
  | _ => True

theorem usual_before (rest : Text) : (Failure.before rest).Usual := by
  unfold Failure.before
  split <;> trivial

theorem usualFault_of_kind {f : Fault} (kind : Text) (hf : f.kind = kind) (h : kind ∈ faultKinds) :
    UsualFault f := by
  rw [UsualFault, hf]
  exact h

theorem usualFault_of_ofValue {f : Fault} (h : f.OfValue) : UsualFault f :=
  usualFault_of_kind _ h (by decide)

namespace Quoted

theorem faults_emptyLines (start : Bool) (t : Text) : Faults Failure.Usual (emptyLines start t) := by
  induction t generalizing start with
  | nil => exact faults_ok _
  | cons c cs ih =>
    unfold emptyLines
    split
    · exact faults_error trivial
    · split
      · exact ih false
      · split
        · exact (ih true).bind fun _ _ => faults_pure _
        · exact faults_ok _

theorem faults_codeOf (digits : Text) : Faults Failure.Usual (codeOf digits) := by
  unfold codeOf
  simp only
  split
  · refine faults_error ?_
    show (if _ then lit "ValueError" else lit "OverflowError") ∈ faultKinds
    split <;> decide
  · exact faults_ok _

theorem faults_escaped (t : Text) : Faults Failure.Usual (escaped t) := by
  unfold escaped
  split
  · exact faults_error trivial
  · split
    · exact faults_ok _
    · simp only
      split
      · exact (faults_codeOf _).bind fun _ _ => faults_pure _
      · exact faults_error (usual_before _)
    · split
      · exact (faults_emptyLines _ _).bind fun _ _ => faults_pure _
      · exact faults_error trivial

theorem faults_space (t : Text) : Faults Failure.Usual (space t) := by
  unfold space
  split
  · exact faults_error trivial
  · split
    · exact (faults_emptyLines _ _).bind fun _ _ => faults_pure _
    · exact faults_ok _

theorem faults_read (double : Bool) (fuel : Nat) (t : Text) :
    Faults Failure.Usual (read double fuel t) := by
  induction fuel generalizing t with
  | zero => exact faults_error trivial
  | succ fuel ih =>
    cases t with
    | nil => exact faults_error trivial
    | cons c cs =>
      unfold read
      simp only
      split
      · split
        · exact (ih _).bind fun _ _ => faults_pure _
        · exact faults_pure _
      · split
        · exact faults_pure _
        · split
          · exact (faults_escaped _).bind fun _ _ => (ih _).bind fun _ _ => faults_pure _
          · split
            · exact (faults_space _).bind fun _ _ => (faults_pure _).bind fun _ _ =>
                (ih _).bind fun _ _ => faults_pure _
            · exact (faults_pure _).bind fun _ _ => (ih _).bind fun _ _ => faults_pure _

end Quoted

namespace Block

theorem faults_header (t : Text) : Faults Failure.Usual (header t) := by
  unfold header
  simp only
  split
  · exact faults_error trivial
  · split
    · exact faults_ok _
    · split
      · exact faults_ok _
      · exact faults_error trivial

theorem faults_read (fold : Bool) (parent : Int) (t : Text) :
    Faults Failure.Usual (read fold parent t) :=
  (faults_header t).bind fun _ _ => faults_pure _

end Block

namespace Scalar

theorem faults_signOf (t : Text) : Faults UsualFault (signOf t) := by
  unfold signOf
  split
  · exact faults_error (usualFault_of_kind (lit "IndexError") rfl (by decide))
  all_goals exact faults_ok _

theorem faults_inBase (base : Nat) (t : Text) : Faults Fault.OfValue (inBase base t) := by
  unfold inBase
  exact faults_ite (faults_ok _) (faults_error rfl)

theorem faults_magnitude (t : Text) : Faults UsualFault (magnitude t) := by
  have hvalue {α : Type} {x : Except Fault α} (h : Faults Fault.OfValue x) : Faults UsualFault x :=
    h.mono fun _ => usualFault_of_ofValue
  unfold magnitude
  split
  · exact faults_ok _
  · split
    · exact faults_error (usualFault_of_kind (lit "IndexError") rfl (by decide))
    · exact hvalue (faults_inBase _ _)
    · exact hvalue (faults_inBase _ _)
    · exact hvalue (faults_inBase _ _)
    · split
      · exact (faults_mapM fun _ _ => hvalue (faults_readInteger _)).bind fun _ _ => faults_pure _
      · exact hvalue (faults_readInteger _)

theorem faults_integer (t : Text) : Faults UsualFault (integer t) :=
  (faults_signOf _).bind fun _ _ => (faults_magnitude _).bind fun _ _ => faults_pure _

theorem faults_addSixtieths (sum : Binary64) (i : Nat) (xs : List Binary64) :
    Faults UsualFault (addSixtieths sum i xs) := by
  induction xs generalizing sum i with
  | nil => exact faults_ok _
  | cons x xs ih =>
    unfold addSixtieths
    exact faults_ite (faults_error (usualFault_of_kind (lit "OverflowError") rfl (by decide))) (ih _ _)

theorem faults_real (t : Text) : Faults UsualFault (real t) := by
  have hread (t : Text) : Faults UsualFault (readReal t) :=
    (faults_readReal t).mono fun _ => usualFault_of_ofValue
  unfold real
  refine (faults_signOf _).bind fun p _ => ?_
  simp only
  split
  · exact (faults_pure _).bind fun _ _ => faults_pure _
  · split
    · exact (faults_pure _).bind fun _ _ => faults_pure _
    · split
      · exact (faults_mapM fun _ _ => hread _).bind fun _ _ =>
          (faults_addSixtieths _ _ _).bind fun _ _ => faults_pure _
      · exact (hread _).bind fun _ _ => faults_pure _

theorem faults_truth (t : Text) : Faults UsualFault (truth t) := by
  unfold truth
  split
  · exact faults_ok _
  · exact faults_error (usualFault_of_kind (lit "KeyError") rfl (by decide))

theorem faults_zoneOffset (z : Zone) : Faults Fault.OfValue (zoneOffset z) := by
  unfold zoneOffset
  split
  · exact faults_ok _
  · exact faults_ite (faults_ok _) (faults_error rfl)

theorem faults_moment (t : Text) : Faults UsualFault (moment t) := by
  have hmoment (reason : Text) : UsualFault (.noMoment reason) := usualFault_of_ofValue rfl
  unfold moment
  split
  · exact faults_error (usualFault_of_kind (lit "AttributeError") rfl (by decide))
  · split
    · split
      · exact faults_error (hmoment _)
      · exact faults_ok _
    · rename_i c _
      have hoffset : Faults UsualFault (c.zone.mapM zoneOffset) := by
        cases c.zone with
        | none => exact faults_pure _
        | some z => exact ((faults_zoneOffset z).mono fun _ => usualFault_of_ofValue).map some
      refine hoffset.bind fun offset _ => ?_
      split
      · exact faults_throw (hmoment _)
      · exact faults_pure _

theorem faults_orFault {α : Type} (write : α → Value) {r : Except Fault α} (h : Faults UsualFault r) :
    Faults Failure.Usual (orFault write r) := by
  cases r with
  | ok a => exact faults_ok _
  | error f => exact faults_error (h f rfl)

theorem faults_ofText (tag : Tag) (t : Text) : Faults Failure.Usual (ofText tag t) := by
  unfold ofText
  split
  case h_2 => exact faults_orFault _ (faults_truth t)
  case h_3 => exact faults_orFault _ (faults_integer t)
  case h_4 => exact faults_orFault _ (faults_real t)
  case h_6 => exact faults_orFault _ (faults_moment t)
  case h_7 =>
    split
    · exact faults_ok _
    · exact faults_error trivial
  case h_8 => exact faults_error trivial
  all_goals exact faults_ok _

theorem faults_ofCodes (tag : Tag) (cs : List Nat) : Faults Failure.Usual (ofCodes tag cs) := by
  unfold ofCodes
  split
  · exact faults_ok _
  · exact faults_ok _
  · exact faults_error (usualFault_of_kind (lit "KeyError") rfl (by decide))
  · exact faults_error (usualFault_of_ofValue rfl)
  · exact faults_error (usualFault_of_ofValue rfl)
  · exact faults_error (usualFault_of_kind (lit "AttributeError") rfl (by decide))
  · exact faults_error trivial

theorem faults_value (tag : Tag) (c : Content) : Faults Failure.Usual (value tag c) := by
  cases c with
  | text t => exact faults_ofText tag t
  | codes cs => exact faults_ofCodes tag cs

end Scalar

end Worksheet.Yaml
