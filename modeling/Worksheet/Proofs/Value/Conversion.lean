import Worksheet.Number.Real
import Worksheet.Proofs.Fault
import Worksheet.Value.Conversion

/-!
# Faults of reading values

Numbers that cannot be read, and values that cannot be shown, are told by faults of the
class for values (`faults_readInteger`, `Value.faults_shown`). Of the values that are to
become a whole number, only infinite ones have a fault that belongs to neither this class
nor the one for types (`Value.faults_toInteger`). Only integers that are too long keep a value
from being shown (`Value.exists_shown`).
-/

namespace Worksheet

namespace Fault

/-- A fault of the class for values. -/
def OfValue (f : Fault) : Prop := f.kind = lit "ValueError"

/-- A fault of the class for values or of the class for types. -/
def OfConversion (f : Fault) : Prop := f.kind = lit "TypeError" ∨ f.kind = lit "ValueError"

theorem OfValue.ofConversion {f : Fault} (h : f.OfValue) : f.OfConversion := .inr h

end Fault

theorem faults_readDigits (ds : Text) : Faults Fault.OfValue (readDigits ds) := by
  unfold readDigits
  split
  · exact faults_ok _
  · exact faults_error rfl

theorem faults_readInteger (t : Text) : Faults Fault.OfValue (readInteger t) := by
  unfold readInteger
  simp only
  split
  all_goals
    refine faults_guard (.refl _) ((faults_readDigits _).bind fun n _ => ?_)
    exact faults_guard (.refl _) (faults_pure _)

theorem faults_readReal (t : Text) : Faults Fault.OfValue (readReal t) := by
  unfold readReal
  split
  · exact faults_ok _
  · exact faults_error rfl

theorem faults_writeInteger (i : Int) : Faults Fault.OfValue (writeInteger i) := by
  unfold writeInteger
  split
  · exact faults_ok _
  · exact faults_error rfl

namespace Value

mutual

/-- A value that cannot be shown holds a number that is too long. -/
theorem faults_shownAt (depth : Nat) (v : Value) : Faults Fault.OfValue (v.shownAt depth) := by
  match v with
  | int i =>
    rw [shownAt]
    exact faults_writeInteger i
  | list vs =>
    rw [shownAt]
    exact (faults_shownEach (depth + 1) vs).bind fun _ _ => faults_pure _
  | pair a b =>
    rw [shownAt]
    exact (faults_shownAt (depth + 1) a).bind fun _ _ =>
      (faults_shownAt (depth + 1) b).bind fun _ _ => faults_pure _
  | set (v :: vs) =>
    rw [shownAt]
    exact (faults_shownAt (depth + 1) v).bind fun _ _ =>
      (faults_shownEach (depth + 1) vs).bind fun _ _ => faults_pure _
  | map es =>
    rw [shownAt]
    exact (faults_shownEntries (depth + 1) es).bind fun _ _ => faults_pure _
  | again levels v =>
    rw [shownAt]
    split
    · exact faults_ok _
    · exact faults_shownAt depth v
  | null | bool _ | real _ | .text _ | codes _ | bytes _ | date _ | moment _ | set [] =>
    rw [shownAt]
    exact faults_ok _

theorem faults_shownEach (depth : Nat) (vs : List Value) :
    Faults Fault.OfValue (shownEach depth vs) := by
  match vs with
  | [] =>
    rw [shownEach]
    exact faults_ok _
  | v :: vs =>
    rw [shownEach]
    exact (faults_shownAt depth v).bind fun _ _ =>
      (faults_shownEach depth vs).bind fun _ _ => faults_pure _

theorem faults_shownEntries (depth : Nat) (es : List (Value × Value)) :
    Faults Fault.OfValue (shownEntries depth es) := by
  match es with
  | [] =>
    rw [shownEntries]
    exact faults_ok _
  | (k, v) :: es =>
    rw [shownEntries]
    exact (faults_shownAt depth k).bind fun _ _ =>
      (faults_shownAt depth v).bind fun _ _ =>
        (faults_shownEntries depth es).bind fun _ _ => faults_pure _

end

theorem faults_shown (v : Value) : Faults Fault.OfValue v.shown := faults_shownAt 0 v

theorem faults_written (v : Value) : Faults Fault.OfValue v.written := by
  unfold written
  split
  all_goals first
    | exact faults_ok _
    | exact faults_shown _

/-- A value that is no whole number has a fault of conversion, unless it is infinite. -/
theorem faults_toInteger (v : Value) :
    Faults (fun f => f.OfConversion ∨ f = .infiniteNumber ∧ ∃ negative, v = real (.infinite negative))
      v.toInteger := by
  have hmalformed (base : Nat) (t : Text) : (Fault.malformedInteger base t).OfConversion := .inr rfl
  unfold toInteger
  split
  · exact faults_ok _
  · exact faults_ok _
  · split
    · exact faults_error (.inl (.inr rfl))
    · exact faults_error (.inr ⟨rfl, _, rfl⟩)
    · exact faults_ok _
  · exact (faults_readInteger _).mono fun f h => .inl (.inr h)
  · exact faults_error (.inl (hmalformed _ _))
  · simp only
    split
    · exact faults_error (.inl (hmalformed _ _))
    · split
      · exact faults_error (.inl (hmalformed _ _))
      · exact (faults_readInteger _).mono fun f h => .inl (.inr h)
  · exact faults_error (.inl (.inl rfl))

theorem faults_elements (v : Value) : Faults Fault.OfConversion v.elements := by
  unfold elements
  split
  all_goals first
    | exact faults_ok _
    | exact faults_error (.inl rfl)

/-! ## Values that can be shown -/

mutual

/-- Whether the integers in a value have no more digits than can be written. -/
def Short : Value → Prop
  | int i => i.natAbs < writeLimit
  | list vs | set vs => ShortEach vs
  | pair a b => Short a ∧ Short b
  | map es => ShortEntries es
  | again _ v => Short v
  | _ => True

/-- Whether this is so for each of several values. -/
def ShortEach : List Value → Prop
  | [] => True
  | v :: vs => Short v ∧ ShortEach vs

/-- Whether this is so for the keys and values of entries. -/
def ShortEntries : List (Value × Value) → Prop
  | [] => True
  | (k, v) :: es => Short k ∧ Short v ∧ ShortEntries es

end

mutual

/-- A value whose integers are not too long can be shown. -/
theorem exists_shownAt (depth : Nat) (v : Value) (h : v.Short) : ∃ t, v.shownAt depth = .ok t := by
  match v with
  | int i =>
    rw [shownAt]
    exact ⟨_, if_pos h⟩
  | list vs =>
    rw [shownAt]
    obtain ⟨ts, hts⟩ := exists_shownEach (depth + 1) vs h
    exact ⟨_, bind_eq_ok.mpr ⟨ts, hts, rfl⟩⟩
  | pair a b =>
    rw [shownAt]
    obtain ⟨s, hs⟩ := exists_shownAt (depth + 1) a h.1
    obtain ⟨t, ht⟩ := exists_shownAt (depth + 1) b h.2
    exact ⟨_, bind_eq_ok.mpr ⟨s, hs, bind_eq_ok.mpr ⟨t, ht, rfl⟩⟩⟩
  | set (v :: vs) =>
    rw [shownAt]
    obtain ⟨t, ht⟩ := exists_shownAt (depth + 1) v h.1
    obtain ⟨ts, hts⟩ := exists_shownEach (depth + 1) vs h.2
    exact ⟨_, bind_eq_ok.mpr ⟨t, ht, bind_eq_ok.mpr ⟨ts, hts, rfl⟩⟩⟩
  | map es =>
    rw [shownAt]
    obtain ⟨ts, hts⟩ := exists_shownEntries (depth + 1) es h
    exact ⟨_, bind_eq_ok.mpr ⟨ts, hts, rfl⟩⟩
  | again levels v =>
    rw [shownAt]
    split
    · exact ⟨_, rfl⟩
    · exact exists_shownAt depth v h
  | null | bool _ | real _ | .text _ | codes _ | bytes _ | date _ | moment _ | set [] =>
    rw [shownAt]
    exact ⟨_, rfl⟩

theorem exists_shownEach (depth : Nat) (vs : List Value) (h : ShortEach vs) :
    ∃ ts, shownEach depth vs = .ok ts := by
  match vs with
  | [] =>
    rw [shownEach]
    exact ⟨_, rfl⟩
  | v :: vs =>
    rw [shownEach]
    obtain ⟨t, ht⟩ := exists_shownAt depth v h.1
    obtain ⟨ts, hts⟩ := exists_shownEach depth vs h.2
    exact ⟨_, bind_eq_ok.mpr ⟨t, ht, bind_eq_ok.mpr ⟨ts, hts, rfl⟩⟩⟩

theorem exists_shownEntries (depth : Nat) (es : List (Value × Value)) (h : ShortEntries es) :
    ∃ ts, shownEntries depth es = .ok ts := by
  match es with
  | [] =>
    rw [shownEntries]
    exact ⟨_, rfl⟩
  | (k, v) :: es =>
    rw [shownEntries]
    obtain ⟨s, hs⟩ := exists_shownAt depth k h.1
    obtain ⟨t, ht⟩ := exists_shownAt depth v h.2.1
    obtain ⟨ts, hts⟩ := exists_shownEntries depth es h.2.2
    exact ⟨_, bind_eq_ok.mpr ⟨s, hs, bind_eq_ok.mpr ⟨t, ht, bind_eq_ok.mpr ⟨ts, hts, rfl⟩⟩⟩⟩

end

theorem exists_shown {v : Value} (h : v.Short) : ∃ t, v.shown = .ok t := exists_shownAt 0 v h

theorem Short.bare {v : Value} (h : v.Short) : v.bare.Short := by
  cases v with
  | again levels v => exact h
  | _ => exact h

theorem ShortEach.of_mem {v : Value} {vs : List Value} (h : ShortEach vs) (hv : v ∈ vs) : v.Short := by
  induction vs with
  | nil => exact absurd hv List.not_mem_nil
  | cons w vs ih =>
    rcases List.mem_cons.mp hv with rfl | hv
    · exact h.1
    · exact ih h.2 hv

/-- The value of a key is part of the mapping. -/
theorem ShortEntries.of_get? {es : Entries} {key v : Value} (h : ShortEntries es)
    (hv : Entries.get? key es = some v) : v.Short := by
  induction es with
  | nil => exact nomatch hv
  | cons e es ih =>
    obtain ⟨k, w⟩ := e
    rw [Entries.get?] at hv
    split at hv
    · exact Option.some.inj hv ▸ h.2.1
    · exact ih h.2.2 hv

end Value

end Worksheet
