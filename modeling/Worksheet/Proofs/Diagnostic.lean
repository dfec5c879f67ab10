import Worksheet.Diagnostic.Json
import Worksheet.Proofs.Json.Value

/-!
# Findings are read from JSON as they were written

`Diagnostic.ofJson_toJson` reads a finding from the JSON that it is written as, with its
ranges and its correction, and `Diagnostic.Storable.readable` tells that this JSON is read
again from its text: all numbers in it have to be short enough.
-/

namespace Worksheet

section Records

variable {α : Type} {ms : Members} {name : String} {read : Json → Checked α} {v : Json} {a default : α}

theorem Members.required_eq_ok (hget : ms.get? (lit name) = some v) (hread : read v = .ok a) :
    ms.required name read = .ok a := by
  rw [required, hget]
  simp only [hread, Checked.under]

theorem Members.given_eq_ok (hget : ms.get? (lit name) = some v) (hread : read v = .ok a) :
    ms.given name default read = .ok a := by
  rw [given, hget]
  simp only [hread, Checked.under]

end Records

namespace Json

theorem natural_int (n : Nat) : natural (.int n) = .ok n := by
  rw [natural, integer]
  simp

/-- A value that may be missing is read again, if `null` is not what is written for one. -/
theorem optional_ofOption {α : Type} {write : α → Json} {read : Json → Checked α} {o : Option α}
    (hnull : ∀ a, write a ≠ .null) (h : ∀ a ∈ o, read (write a) = .ok a) :
    optional read (ofOption write o) = .ok o := by
  cases o with
  | none => rfl
  | some a =>
    rw [ofOption, optional, h a rfl]
    · rfl
    · exact hnull a

theorem elementsFrom_map {α : Type} {write : α → Json} {read : Json → Checked α} {l : List α}
    (h : ∀ a ∈ l, read (write a) = .ok a) (i : Nat) : elementsFrom read i (l.map write) = .ok l := by
  induction l generalizing i with
  | nil => rfl
  | cons a l ih =>
    rw [List.map_cons, elementsFrom, h a (List.mem_cons_self ..),
      ih fun b hb => h b (List.mem_cons_of_mem a hb)]
    rfl

end Json

theorem Severity.ofName?_name (s : Severity) : ofName? s.name = some s := by
  cases s <;> decide

theorem Code.ofName?_name (c : Code) : ofName? c.name = some c := by
  cases c <;> decide

theorem Json.choice_text {α : Type} {ofName? : Text → Option α} {t : Text} {a : α} (h : ofName? t = some a) :
    choice ofName? (.text t) = .ok a := by
  rw [choice]
  simp only [h]

/-! ## Reading what is written -/

theorem Position.ofJson_toJson (p : Position) : ofJson p.toJson = .ok p := by
  show Position.mk <$> _ <*> _ = _
  rw [Members.required_eq_ok rfl (Json.natural_int p.line), Members.required_eq_ok rfl (Json.natural_int p.column)]
  rfl

theorem TextRange.ofJson_toJson (r : TextRange) : ofJson r.toJson = .ok r := by
  show TextRange.mk <$> _ <*> _ = _
  rw [Members.required_eq_ok rfl r.start.ofJson_toJson, Members.required_eq_ok rfl r.stop.ofJson_toJson]
  rfl

theorem Json.optional_range (o : Option TextRange) :
    optional TextRange.ofJson (ofOption TextRange.toJson o) = .ok o :=
  optional_ofOption (fun _ => nofun) fun r _ => r.ofJson_toJson

theorem Correction.ofJson_toJson (c : Correction) : ofJson c.toJson = .ok c := by
  show Correction.mk <$> _ <*> _ <*> _ <*> _ = _
  rw [Members.required_eq_ok rfl (Json.natural_int c.start), Members.required_eq_ok rfl (Json.natural_int c.stop),
    Members.required_eq_ok rfl (show Json.string (.text c.replacement) = .ok c.replacement from rfl),
    Members.given_eq_ok rfl (Json.optional_range c.range)]
  rfl

/-- A finding is read again. -/
theorem Diagnostic.ofJson_toJson (d : Diagnostic) : ofJson d.toJson = .ok d := by
  have htext (t : Text) : Json.string (.text t) = .ok t := rfl
  have hfix : Json.optional Correction.ofJson (.ofOption Correction.toJson d.fix) = .ok d.fix :=
    Json.optional_ofOption (fun _ => nofun) fun c _ => c.ofJson_toJson
  show Diagnostic.mk <$> _ <*> _ <*> _ <*> _ <*> _ <*> _ <*> _ <*> _ <*> _ = _
  rw [Members.required_eq_ok rfl (Json.choice_text d.severity.ofName?_name),
    Members.required_eq_ok rfl (Json.choice_text d.code.ofName?_name),
    Members.required_eq_ok rfl (htext d.message), Members.given_eq_ok rfl (htext d.source),
    Members.required_eq_ok rfl (htext d.rule), Members.required_eq_ok rfl (Json.natural_int d.start),
    Members.required_eq_ok rfl (Json.natural_int d.stop), Members.given_eq_ok rfl (Json.optional_range d.range),
    Members.given_eq_ok rfl hfix]
  rfl

/-! ## What is written can be read -/

/-- A number that has no more digits than are read. -/
def Json.Fits (n : Nat) : Prop := n < Nat.pow 10 wholeDigits

theorem lt_ten_pow_of_lt {n k : Nat} (h : n < k) : n < Nat.pow 10 k :=
  Nat.lt_trans h (Nat.lt_pow_self (by decide))

theorem Json.fits_of_lt {n : Nat} (h : n < wholeDigits) : Fits n := lt_ten_pow_of_lt h

/-- A place with numbers that can be read. -/
structure Position.Storable (p : Position) : Prop where
  line : Json.Fits p.line
  column : Json.Fits p.column

/-- A range with numbers that can be read. -/
structure TextRange.Storable (r : TextRange) : Prop where
  start : r.start.Storable
  stop : r.stop.Storable

/-- A correction with numbers that can be read. -/
structure Correction.Storable (c : Correction) : Prop where
  start : Json.Fits c.start
  stop : Json.Fits c.stop
  range : ∀ r ∈ c.range, r.Storable

/-- A finding with numbers that can be read. -/
structure Diagnostic.Storable (d : Diagnostic) : Prop where
  start : Json.Fits d.start
  stop : Json.Fits d.stop
  range : ∀ r ∈ d.range, r.Storable
  fix : ∀ c ∈ d.fix, c.Storable

namespace Json

variable {d : Nat}

theorem Fits.readable {n : Nat} (h : Fits n) : Readable d (.int n) := .int h

theorem Readable.ofOption {α : Type} {write : α → Json} {o : Option α} (h : ∀ a ∈ o, Readable d (write a)) :
    Readable d (ofOption write o) := by
  cases o with
  | none => exact .null
  | some a => exact h a rfl

end Json

variable {n : Nat}

theorem Position.Storable.readable {p : Position} (h : p.Storable) : Json.Readable (n + 1) p.toJson :=
  .object (show [lit "line", lit "column"].Nodup by decide) (by simpa using ⟨h.line.readable, h.column.readable⟩)

theorem TextRange.Storable.readable {r : TextRange} (h : r.Storable) : Json.Readable (n + 2) r.toJson :=
  .object (show [lit "start", lit "end"].Nodup by decide) (by simpa using ⟨h.start.readable, h.stop.readable⟩)

theorem Correction.Storable.readable {c : Correction} (h : c.Storable) : Json.Readable (n + 3) c.toJson := by
  have hrange := Json.Readable.ofOption fun r hr => (h.range r hr).readable (n := n)
  refine .object (show [lit "start_offset", lit "end_offset", lit "replacement", lit "range"].Nodup by decide) ?_
  simpa using ⟨h.start.readable, h.stop.readable, .text c.replacement, hrange⟩

theorem Diagnostic.Storable.readable {d : Diagnostic} (h : d.Storable) : Json.Readable (n + 4) d.toJson := by
  have hrange := Json.Readable.ofOption fun r hr => (h.range r hr).readable (n := n + 1)
  have hfix := Json.Readable.ofOption fun c hc => (h.fix c hc).readable (n := n)
  have hnames : [lit "severity", lit "code", lit "message", lit "source", lit "rule", lit "start_offset",
      lit "end_offset", lit "range", lit "fix"].Nodup := by decide
  refine .object hnames ?_
  simpa using ⟨.text _, .text _, .text _, .text _, .text _, h.start.readable, h.stop.readable, hrange, hfix⟩

end Worksheet
