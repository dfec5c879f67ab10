import Worksheet.CommandLine
import Worksheet.Proofs.CommandLine.Command
import Worksheet.Proofs.Profile
import Worksheet.Proofs.Yaml.Value

/-!
# Faults of settings files

A settings file that gives no settings is told of by its name, but for two kinds of faults
that are passed on as they are (`Profile.Escapes`): those of the YAML text itself, where its
bytes are no text or a scalar has no value, and that of an infinite number where the section
for images has a whole one. There are no others (`Profile.told_iff_not_escapes`), and as they
do not belong to the classes that the program expects, they end it
(`CommandLine.run_iff_not_escapes`).

The condition is exact for `Yaml.read`, which reads lists and mappings nested to any depth. A
reader that runs out of stack some hundreds of levels down would add one more fault that is
passed on.
-/

namespace Worksheet

namespace Profile

/-- A fault of a settings file, which names it. -/
structure Told (name : Text) (f : Fault) : Prop where
  kind : f.kind = lit "ConfigError"
  message : name <:+: f.message

/-- A fault of the contents of a settings file that is passed on as it is. -/
inductive Escapes (name : Text) (bytes : List UInt8) : Fault → Prop
  /-- The bytes are no text, or a scalar has no value. -/
  | yaml {f : Fault} : Yaml.read (.ofBytes bytes) = .error (.fault f) → Escapes name bytes f
  /-- A whole number of the section for images is infinite. -/
  | infinite {es : Entries} : valueOf name bytes = .ok (.map es) → HoldsInfinite es →
      (read (.map es) (FileName.stem name)).result = .error .infiniteNumber →
      Escapes name bytes .infiniteNumber

variable {name : Text} {bytes : List UInt8}

theorem told_brokenYaml (name : Text) : Told name (.brokenYaml name) :=
  ⟨rfl, lit "Invalid YAML in ", [], by rw [List.append_nil]; rfl⟩

theorem told_profileNotMapping (name type : Text) : Told name (.profileNotMapping name type) :=
  ⟨rfl, lit "Profile ", lit " must be a mapping, got " ++ type, by rw [← List.append_assoc]; rfl⟩

theorem told_badProfile (name reason : Text) : Told name (.badProfile name reason) :=
  ⟨rfl, lit "Invalid profile ", lit ": " ++ reason, by rw [← List.append_assoc]; rfl⟩

theorem fileFault_of_ofConversion {f : Fault} (h : f.OfConversion) :
    fileFault name f = .badProfile name f.message := if_pos h

theorem fileFault_infiniteNumber (name : Text) : fileFault name .infiniteNumber = .infiniteNumber :=
  if_neg (by decide)

/-- The contents of a settings file are a mapping, or they have a fault. -/
theorem valueOf_cases (name : Text) (bytes : List UInt8) :
    (∃ es, valueOf name bytes = .ok (.map es)) ∨
    (∃ f, valueOf name bytes = .error f ∧ Told name f) ∨
    ∃ f, valueOf name bytes = .error f ∧ Yaml.read (.ofBytes bytes) = .error (.fault f) := by
  unfold valueOf
  split
  · rename_i f h
    exact .inr (.inr ⟨f, rfl, h⟩)
  · exact .inr (.inl ⟨_, rfl, told_brokenYaml name⟩)
  · split
    -- A file without a document is an empty mapping.
    · exact .inl ⟨[], rfl⟩
    · exact .inl ⟨_, rfl⟩
    · exact .inr (.inl ⟨_, rfl, told_profileNotMapping name _⟩)

theorem ofBytes_of_valueOf_error {f : Fault} (h : valueOf name bytes = .error f) :
    ofBytes name bytes = { result := .error f } := by
  unfold ofBytes
  simp only [h]

theorem result_ofBytes_of_valueOf_ok {v : Value} (h : valueOf name bytes = .ok v) :
    (ofBytes name bytes).result = (read v (FileName.stem name)).result.mapError (fileFault name) := by
  unfold ofBytes
  simp only [h, ofValue]

/-- A settings file gives settings, or a fault that is told of by its name or passed on. -/
theorem result_ofBytes_cases (name : Text) (bytes : List UInt8) :
    (∃ s, (ofBytes name bytes).result = .ok s) ∨
    ∃ f, (ofBytes name bytes).result = .error f ∧ (Told name f ∨ Escapes name bytes f) := by
  rcases valueOf_cases name bytes with ⟨es, h⟩ | ⟨f, h, hf⟩ | ⟨f, h, hf⟩
  · rw [result_ofBytes_of_valueOf_ok h]
    cases hread : (read (.map es) (FileName.stem name)).result with
    | ok s => exact .inl ⟨s, rfl⟩
    | error f =>
      refine .inr ⟨fileFault name f, rfl, ?_⟩
      rcases faults_read es (FileName.stem name) f hread with hf | ⟨rfl, hholds⟩
      · rw [fileFault_of_ofConversion hf]
        exact .inl (told_badProfile name f.message)
      · rw [fileFault_infiniteNumber]
        exact .inr (.infinite h hholds hread)
  · rw [ofBytes_of_valueOf_error h]
    exact .inr ⟨f, rfl, .inl hf⟩
  · rw [ofBytes_of_valueOf_error h]
    exact .inr ⟨f, rfl, .inr (.yaml hf)⟩

/-- What is passed on is the fault of the settings file. -/
theorem Escapes.result_eq {f : Fault} (h : Escapes name bytes f) :
    (ofBytes name bytes).result = .error f := by
  cases h with
  | yaml h =>
    have hvalue : valueOf name bytes = .error f := by
      unfold valueOf
      simp only [h]
      rfl
    rw [ofBytes_of_valueOf_error hvalue]
  | infinite h _ hread =>
    rw [result_ofBytes_of_valueOf_ok h, hread]
    exact congrArg Except.error (fileFault_infiniteNumber name)

/-- What is passed on belongs to other classes than the faults of settings files. -/
theorem Escapes.kind_mem {f : Fault} (h : Escapes name bytes f) : f.kind ∈ Yaml.faultKinds := by
  cases h with
  | yaml h => exact Yaml.faults_read (Yaml.Source.usual_ofBytes bytes) _ h
  | infinite => decide

theorem Escapes.not_told {f : Fault} (h : Escapes name bytes f) : ¬ Told name f := by
  intro htold
  have hkind := h.kind_mem
  rw [htold.kind] at hkind
  exact absurd hkind (by decide)

/-- A settings file gives settings or is told of by its name, if and only if no fault of its
contents is passed on. -/
theorem told_iff_not_escapes (name : Text) (bytes : List UInt8) :
    ((∃ s, (ofBytes name bytes).result = .ok s) ∨
      ∃ f, (ofBytes name bytes).result = .error f ∧ Told name f) ↔
    ∀ f, ¬ Escapes name bytes f := by
  constructor
  · rintro (⟨s, hs⟩ | ⟨f, hf, htold⟩) g hg
    · exact nomatch hs.symm.trans hg.result_eq
    · obtain rfl := Except.error.inj (hf.symm.trans hg.result_eq)
      exact hg.not_told htold
  · intro hnone
    rcases result_ofBytes_cases name bytes with hs | ⟨f, hf, htold | hescapes⟩
    · exact .inl hs
    · exact .inr ⟨f, hf, htold⟩
    · exact absurd hescapes (hnone f)

end Profile

namespace CommandLine

variable {σ : Type} {h : Host (StateM σ)} {st : σ} {r : Request} {name : Text} {bytes : List UInt8}

/-- The journal with which a request is carried out. -/
def journalOf (env : Environment) (r : Request) (reading : Reading) : Journal :=
  (({} : Journal).configure env r.journal true).recordAll reading.calls

theorem run_settings (hq : h.Quiet) (hconfig : r.config = some name)
    (hread : h.look st name = .ok bytes) :
    (settings h r).run st = (Profile.ofBytes name bytes, st) := by
  rw [settings, hconfig]
  show (Profile.ofContents name (h.look st name), ((h.read name).run st).2) = _
  rw [hread, hq.unchanged]
  rfl

theorem run_eq_perform (env : Environment) {args : List Text}
    (hargs : Request.read args = .ok (some r)) : run h env args = perform h env r := by
  rw [run, hargs]

theorem run_perform_of_ok (hq : h.Quiet) (env : Environment) (hconfig : r.config = some name)
    (hread : h.look st name = .ok bytes) {s : Settings}
    (hs : (Profile.ofBytes name bytes).result = .ok s) :
    (perform h env r).run st =
      (r.task.run h (Engine.stock s) (journalOf env r (Profile.ofBytes name bytes)) r.files).run st := by
  rw [perform, run_bind, run_settings hq hconfig hread]
  simp only [hs]
  cases r.task <;> rfl

theorem run_perform_of_error (hq : h.Quiet) (env : Environment) (hconfig : r.config = some name)
    (hread : h.look st name = .ok bytes) {f : Fault}
    (hf : (Profile.ofBytes name bytes).result = .error f) :
    (perform h env r).run st =
      (Ending.ofFault (journalOf env r (Profile.ofBytes name bytes)) f, st) := by
  rw [perform, run_bind, run_settings hq hconfig hread]
  simp only [hf]
  rfl

theorem ofFault_of_told {f : Fault} (h : Profile.Told name f) (j : Journal) :
    Ending.ofFault j f =
      { exit := .ok 2, err := [About.program ++ lit ": " ++ f.message], journal := j } :=
  if_pos (.inl h.kind)

theorem ofFault_of_escapes {f : Fault} (h : Profile.Escapes name bytes f) (j : Journal) :
    Ending.ofFault j f = { exit := .error f, journal := j } := by
  have hconfig : lit "ConfigError" ∉ Yaml.faultKinds := by decide
  have hmissing : lit "FileNotFoundError" ∉ Yaml.faultKinds := by decide
  refine if_neg ?_
  rintro (hkind | hkind)
  · exact hconfig (hkind ▸ h.kind_mem)
  · exact hmissing (hkind ▸ h.kind_mem)

/-- The program called with a settings file. If and only if no fault of its contents is passed
on, the file gives settings, with which the program carries out its task, or it is told of by
its name, in the one line with which the program ends. A fault that is passed on ends the
program. -/
theorem run_iff_not_escapes (hq : h.Quiet) (env : Environment) {args : List Text}
    (hargs : Request.read args = .ok (some r)) (hconfig : r.config = some name)
    (hread : h.look st name = .ok bytes) :
    (((∃ s, (Profile.ofContents name (h.look st name)).result = .ok s) ∨
      ∃ f, (Profile.ofContents name (h.look st name)).result = .error f ∧ Profile.Told name f) ↔
        ∀ f, ¬ Profile.Escapes name bytes f) ∧
    ∃ j : Journal,
      (∀ s, (Profile.ofContents name (h.look st name)).result = .ok s →
        (run h env args).run st = (r.task.run h (Engine.stock s) j r.files).run st) ∧
      (∀ f, (Profile.ofContents name (h.look st name)).result = .error f → Profile.Told name f →
        (run h env args).run st =
          ({ exit := .ok 2, err := [About.program ++ lit ": " ++ f.message], journal := j }, st)) ∧
      ∀ f, Profile.Escapes name bytes f →
        (Profile.ofContents name (h.look st name)).result = .error f ∧ f.kind ∈ Yaml.faultKinds ∧
        (run h env args).run st = ({ exit := .error f, journal := j }, st) := by
  have hcontents : Profile.ofContents name (h.look st name) = Profile.ofBytes name bytes := by
    rw [hread]
    rfl
  rw [hcontents, run_eq_perform env hargs]
  refine ⟨Profile.told_iff_not_escapes name bytes, journalOf env r (Profile.ofBytes name bytes),
    fun s hs => run_perform_of_ok hq env hconfig hread hs, fun f hf htold => ?_, fun f hf => ?_⟩
  · rw [run_perform_of_error hq env hconfig hread hf, ofFault_of_told htold]
  · refine ⟨hf.result_eq, hf.kind_mem, ?_⟩
    rw [run_perform_of_error hq env hconfig hread hf.result_eq, ofFault_of_escapes hf]

end CommandLine

/-- A settings file with an infinite number. -/
theorem Profile.result_ofBytes_infinite :
    (ofBytes (lit "house.yaml") (Utf8.encode (lit "images:\n  typo_window: .inf\n"))).result =
      .error .infiniteNumber := by
  have hmap : ((ofBytes (lit "house.yaml")
      (Utf8.encode (lit "images:\n  typo_window: .inf\n"))).result.map fun _ => ()) =
        .error .infiniteNumber := by
    decide +kernel
  cases hresult : (ofBytes (lit "house.yaml")
      (Utf8.encode (lit "images:\n  typo_window: .inf\n"))).result with
  | ok s =>
    rw [hresult] at hmap
    exact nomatch hmap
  | error f =>
    rw [hresult] at hmap
    exact congrArg Except.error (Except.error.inj hmap)

/-- The program ends with the fault of an infinite number. -/
theorem CommandLine.exit_run_infinite :
    ((run (Files.host ⟨⟨2024, 1, 1⟩, 0, 0, 0, 0, none⟩) {}
        [lit "check", lit "a.html", lit "--config", lit "house.yaml"]).run
      ⟨[([lit "house.yaml"], .file (Utf8.encode (lit "images:\n  typo_window: .inf\n")))], [], []⟩).1.exit =
        .error .infiniteNumber := by
  have hread : (Files.host ⟨⟨2024, 1, 1⟩, 0, 0, 0, 0, none⟩).look
      ⟨[([lit "house.yaml"], .file (Utf8.encode (lit "images:\n  typo_window: .inf\n")))], [], []⟩
      (lit "house.yaml") = .ok (Utf8.encode (lit "images:\n  typo_window: .inf\n")) := rfl
  have hargs : Request.read [lit "check", lit "a.html", lit "--config", lit "house.yaml"] =
      .ok (some { task := .check .text, files := [lit "a.html"], config := some (lit "house.yaml") }) := rfl
  obtain ⟨hiff, j, -, -, hescapes⟩ := run_iff_not_escapes
    (Files.quiet_host ⟨⟨2024, 1, 1⟩, 0, 0, 0, 0, none⟩) {} hargs rfl hread
  have hresult := Profile.result_ofBytes_infinite
  -- Neither settings nor a fault that names the file: so a fault is passed on.
  have hnot : ¬ ∀ f, ¬ Profile.Escapes (lit "house.yaml")
      (Utf8.encode (lit "images:\n  typo_window: .inf\n")) f := by
    intro hnone
    rcases hiff.mpr hnone with ⟨s, hs⟩ | ⟨f, hf, htold⟩
    · exact nomatch hs.symm.trans hresult
    · obtain rfl := Except.error.inj (hf.symm.trans hresult)
      exact absurd htold.kind (by decide)
  obtain ⟨f, hf⟩ := not_forall_not.mp hnot
  obtain rfl := Except.error.inj ((hescapes f hf).1.symm.trans hresult)
  rw [(hescapes _ hf).2.2]

/-- Not every settings file gives settings or is told of by its name. -/
theorem Profile.not_told_of_bytes :
    ¬ ∀ (name : Text) (bytes : List UInt8), (∃ s, (ofBytes name bytes).result = .ok s) ∨
      ∃ f, (ofBytes name bytes).result = .error f ∧ Told name f := by
  intro h
  rcases h (lit "house.yaml") (Utf8.encode (lit "images:\n  typo_window: .inf\n")) with
    ⟨s, hs⟩ | ⟨f, hf, htold⟩
  · exact nomatch hs.symm.trans result_ofBytes_infinite
  · obtain rfl := Except.error.inj (hf.symm.trans result_ofBytes_infinite)
    exact absurd htold.kind (by decide)

end Worksheet
