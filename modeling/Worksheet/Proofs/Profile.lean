import Worksheet.Profile
import Worksheet.Proofs.Value.Conversion

/-!
# Faults of profiles

A profile that is a mapping and cannot be turned into settings has a fault of conversion,
with one exception: an infinite number where the section for images has a whole number
(`Profile.faults_read`).
-/

namespace Worksheet

namespace Value

theorem fieldOr_map (es : Entries) (name : Text) (default : Value) :
    (map es).fieldOr name default = .ok ((Entries.field? es name).getD default).bare := rfl

theorem faults_fieldOr_map {P : Fault → Prop} (es : Entries) (name : Text) (default : Value) :
    Faults P ((map es).fieldOr name default) := faults_ok _

theorem faults_textList (v : Value) : Faults Fault.OfConversion v.textList := by
  unfold textList
  split
  · exact faults_ok _
  · exact faults_ok _
  · refine (faults_elements _).bind fun vs _ => faults_mapM fun v _ => ?_
    exact (faults_written v).mono fun _ h => h.ofConversion

theorem faults_sectionOf_map (es : Entries) (name : Text) :
    Faults Fault.OfConversion ((map es).sectionOf name) := by
  unfold sectionOf
  rw [fieldOr_map]
  refine (faults_ok _).bind fun v _ => ?_
  split
  · exact faults_pure _
  · split
    · exact faults_throw (.inr rfl)
    · exact faults_pure _

/-- A section is a mapping. -/
theorem exists_of_sectionOf_eq_ok {v w : Value} {name : Text} (h : v.sectionOf name = .ok w) :
    ∃ es, w = map es := by
  obtain ⟨u, -, h⟩ := bind_eq_ok.mp h
  split at h
  · exact ⟨_, (Except.ok.inj h).symm⟩
  · split at h
    · exact nomatch h
    · exact ⟨[], (Except.ok.inj h).symm⟩

end Value

/-- The switches of a profile are skipped unless they cannot be shown. -/
theorem RuleToggle.faults_readAll (vs : List Value) : Faults Fault.OfValue (readAll vs).2 := by
  induction vs with
  | nil => exact faults_ok _
  | cons v vs ih =>
    unfold readAll
    split
    · exact ih.map _
    · split
      · rename_i f hf
        exact faults_error (Value.faults_shown v f hf)
      · exact ih

namespace ImageSettings

/-- The keys of the section for images that have whole numbers. -/
def numberKeys : List Text :=
  [lit "typo_window", lit "stray_path_padding", lit "number_width", lit "first_number"]

/-- A section for images has an infinite number where a whole one is expected. -/
def HoldsInfinite (es : Entries) : Prop :=
  ∃ name ∈ numberKeys, ∃ negative,
    (Entries.field? es name).map Value.bare = some (.real (.infinite negative))

theorem ofConversion_orderFault {a b : Value} {f : Fault} (h : orderFault? a b = some f) :
    f.OfConversion := by
  unfold orderFault? at h
  split at h
  all_goals try split at h
  all_goals cases h
  all_goals exact .inl rfl

theorem ofConversion_unknownKeys (vs : List Value) : (unknownKeys vs).OfConversion := by
  unfold unknownKeys
  split
  · exact .inr rfl
  · split
    · rename_i f hf
      obtain ⟨p, -, hp⟩ := List.exists_of_findSome?_eq_some hf
      exact ofConversion_orderFault hp
    · exact .inl rfl

/-- A whole number of the section for images has a fault of conversion unless it is infinite. -/
theorem faults_number {es : Entries} {name : Text} (hname : name ∈ numberKeys) (default : Int) :
    Faults (fun f => f.OfConversion ∨ f = .infiniteNumber ∧ HoldsInfinite es)
      (do ((← (Value.map es).fieldOr name (.int default)).toInteger)) := by
  rw [Value.fieldOr_map]
  refine (faults_ok _).bind fun v hv => (Value.faults_toInteger v).mono fun f hf => hf.imp_right ?_
  rintro ⟨rfl, negative, rfl⟩
  refine ⟨rfl, name, hname, negative, ?_⟩
  have hfield := Except.ok.inj hv
  cases hget : Entries.field? es name with
  | none =>
    rw [hget] at hfield
    exact nomatch hfield
  | some w =>
    rw [hget] at hfield
    exact congrArg some hfield

theorem faults_read (es : Entries) :
    Faults (fun f => f.OfConversion ∨ f = .infiniteNumber ∧ HoldsInfinite es) (read (.map es)) := by
  unfold read
  refine ((Value.faults_elements _).mono fun _ => .inl).bind fun vs _ => ?_
  have hconversion {f : Fault} (h : f.OfConversion) :
      f.OfConversion ∨ f = .infiniteNumber ∧ HoldsInfinite es := .inl h
  simp only
  split
  · exact faults_throw (hconversion (.inl rfl))
  · split
    · refine (faults_number (by decide) 50).bind fun typoWindow _ => ?_
      refine (faults_number (by decide) 5).bind fun strayPadding _ => ?_
      refine (Value.faults_fieldOr_map _ _ _).bind fun v _ => ?_
      refine ((Value.faults_written v).mono fun _ h => hconversion h.ofConversion).bind fun _ _ => ?_
      refine (faults_number (by decide) 2).bind fun numberWidth _ => ?_
      refine (faults_number (by decide) 1).bind fun firstNumber _ => ?_
      refine faults_guard ?_ (faults_pure _)
      exact hconversion (.inr rfl)
    · exact faults_throw (hconversion (ofConversion_unknownKeys _))

end ImageSettings

namespace Profile

/-- A profile has a section for images with an infinite number where a whole one is
expected. -/
def HoldsInfinite (es : Entries) : Prop :=
  ∃ images, (Value.map es).sectionOf (lit "images") = .ok (.map images) ∧
    ImageSettings.HoldsInfinite images

theorem faults_sections (es : Entries) : Faults Fault.OfConversion (sections (.map es)) := by
  unfold sections
  refine (Value.faults_sectionOf_map es _).bind fun profile _ => ?_
  refine (Value.faults_sectionOf_map es _).bind fun documents _ => ?_
  refine (Value.faults_fieldOr_map _ _ _).bind fun rules _ => ?_
  split
  · exact (Value.faults_elements rules).bind fun _ _ => faults_pure _
  · exact (faults_pure _).bind fun _ _ => faults_pure _

/-- The sections of a profile are mappings. -/
theorem exists_of_sections_eq_ok {v : Value} {s : Sections} (h : sections v = .ok s) :
    ∃ profile documents, s.profile = .map profile ∧ s.documents = .map documents := by
  obtain ⟨profile, hprofile, h⟩ := bind_eq_ok.mp h
  obtain ⟨documents, hdocuments, h⟩ := bind_eq_ok.mp h
  obtain ⟨rules, -, h⟩ := bind_eq_ok.mp h
  obtain ⟨es, rfl⟩ := Value.exists_of_sectionOf_eq_ok hprofile
  obtain ⟨es', rfl⟩ := Value.exists_of_sectionOf_eq_ok hdocuments
  simp only at h
  split at h
  all_goals
    obtain ⟨entries, -, h⟩ := bind_eq_ok.mp h
    obtain rfl := Except.ok.inj h
    exact ⟨es, es', rfl, rfl⟩

theorem faults_settings {es : Entries} {s : Sections} (hs : sections (.map es) = .ok s)
    (defaultName : Text) (toggles : List RuleToggle) :
    Faults (fun f => f.OfConversion ∨ f = .infiniteNumber ∧ HoldsInfinite es)
      (settings (.map es) defaultName s toggles) := by
  -- Looking up a key only fails where there is no mapping.
  obtain ⟨profile, documents, hprofile, hdocuments⟩ := exists_of_sections_eq_ok hs
  have hconversion {α : Type} {x : Except Fault α} (h : Faults Fault.OfConversion x) :
      Faults (fun f => f.OfConversion ∨ f = .infiniteNumber ∧ HoldsInfinite es) x :=
    h.mono fun _ => .inl
  unfold settings
  rw [hprofile, hdocuments]
  refine (Value.faults_fieldOr_map _ _ _).bind fun name _ => ?_
  refine (Value.faults_fieldOr_map _ _ _).bind fun description _ => ?_
  refine (Value.faults_fieldOr_map _ _ _).bind fun v _ => ?_
  refine (hconversion ((Value.faults_written v).mono fun _ h => h.ofConversion)).bind fun source _ => ?_
  refine (Value.faults_fieldOr_map _ _ _).bind fun v _ => ?_
  refine (hconversion (Value.faults_textList v)).bind fun extensions _ => ?_
  refine (Value.faults_fieldOr_map _ _ _).bind fun v _ => ?_
  refine (hconversion (Value.faults_textList v)).bind fun languageIds _ => ?_
  refine (hconversion (Value.faults_sectionOf_map es _)).bind fun v hv => ?_
  obtain ⟨images, rfl⟩ := Value.exists_of_sectionOf_eq_ok hv
  refine ((ImageSettings.faults_read images).mono fun f hf => hf.imp_right ?_).bind fun _ _ => faults_pure _
  rintro ⟨hinfinite, hholds⟩
  exact ⟨hinfinite, images, hv, hholds⟩

/-- A profile that cannot be turned into settings has a fault of conversion, unless it holds
an infinite number. -/
theorem faults_read (es : Entries) (defaultName : Text) :
    Faults (fun f => f.OfConversion ∨ f = .infiniteNumber ∧ HoldsInfinite es)
      (read (.map es) defaultName).result := by
  unfold read
  split
  · rename_i f hf
    exact faults_error (.inl (faults_sections es f hf))
  · rename_i s hs
    refine ((RuleToggle.faults_readAll s.rules).mono fun _ h => .inl h.ofConversion).bind ?_
    exact fun toggles _ => faults_settings hs defaultName toggles

end Profile

end Worksheet
