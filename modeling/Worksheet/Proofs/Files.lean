import Worksheet.Files
import Worksheet.Proofs.Fault
import Worksheet.Proofs.FileName

/-!
# Reading and writing files

Writing to a file changes what this file holds and nothing else (`Files.entryAt_putEntry`),
so names stand for the same places as before (`Files.Alike.resolve_eq`). In a tree of
files, a file is called by its own name whichever way leads to it
(`Files.IsTree.getLast?_place`).
-/

namespace Worksheet

/-- Whether an entry is a file. -/
def FileEntry.isFile : FileEntry → Bool
  | file _ => true
  | directory => false

/-- A name that is refused is refused for what it is made of. -/
theorem FileName.refuses_of_refusal? {α : Type} [DecidableEq α] [Alphabet α] {name : Text α}
    {p : FileProblem} (h : refusal? name = some p) : p.refuses = true := by
  unfold refusal? at h
  split at h
  · obtain rfl := Option.some.inj h
    rfl
  · split at h
    · obtain rfl := Option.some.inj h
      rfl
    · exact nomatch h

namespace Files

variable {α κ : Type} [DecidableEq α] [DecidableEq κ] [Alphabet α] [Naming α κ]

/-! ## Trees -/

/-- A tree of files: nothing stands below a file, and neither the root nor the current
directory is one. -/
structure IsTree (fs : Files κ) : Prop where
  below : ∀ {p : List κ} {bytes : List UInt8}, fs.entryAt p = some (.file bytes) →
    ∀ e ∈ fs.entries, p <+: e.1 → e.1 = p
  root : ∀ bytes, fs.entryAt [] ≠ some (.file bytes)
  current : ∀ bytes, fs.entryAt fs.current ≠ some (.file bytes)

theorem exists_of_entryAt_eq_directory {fs : Files κ} {p : List κ}
    (h : fs.entryAt p = some .directory) : p = [] ∨ ∃ e ∈ fs.entries, p <+: e.1 := by
  rw [entryAt] at h
  split at h
  · rename_i e he
    have hp := List.find?_some he
    simp only [decide_eq_true_eq] at hp
    exact .inr ⟨e, List.mem_of_find?_eq_some he, hp ▸ List.prefix_rfl⟩
  · split at h
    · rename_i hp
      refine hp.imp_right fun hany => ?_
      obtain ⟨e, he, hpre⟩ := List.any_eq_true.mp hany
      exact ⟨e, he, List.isPrefixOf_iff_prefix.mp hpre⟩
    · exact nomatch h

/-- Above a directory there is no file. -/
theorem IsTree.dropLast {fs : Files κ} (hfs : fs.IsTree) {p : List κ}
    (h : fs.entryAt p = some .directory) (bytes : List UInt8) :
    fs.entryAt p.dropLast ≠ some (.file bytes) := by
  intro hfile
  by_cases hp : p = []
  · subst hp
    exact hfs.root bytes hfile
  · obtain ⟨e, he, hpre⟩ := (exists_of_entryAt_eq_directory h).resolve_left hp
    have heq := hfs.below hfile e he ((List.dropLast_prefix p).trans hpre)
    have hlen := hpre.length_le
    have hpos := List.length_pos_iff.mpr hp
    rw [heq, List.length_dropLast] at hlen
    omega

/-- A walk that starts at no file ends at a file only by a step down to it. -/
theorem IsTree.getLast?_walk {fs : Files κ} (hfs : fs.IsTree) {parts : List (Text α)} {place place' : List κ}
    {bytes : List UInt8} (hstart : ∀ bytes, fs.entryAt place ≠ some (.file bytes))
    (h : fs.walk place parts = .ok place') (hfile : fs.entryAt place' = some (.file bytes)) :
    ∃ part, parts.getLast? = some part ∧ place'.getLast? = some (Naming.key part) := by
  induction parts generalizing place with
  | nil =>
    obtain rfl := Except.ok.inj h
    exact absurd hfile (hstart bytes)
  | cons part parts ih =>
    cases hentry : fs.entryAt place with
    | none =>
      simp only [walk, hentry] at h
      exact nomatch h
    | some entry =>
      cases entry with
      | file bytes => exact absurd hentry (hstart bytes)
      | directory =>
        simp only [walk, hentry] at h
        split at h
        · exact nomatch h
        · cases parts with
          | nil =>
            obtain rfl := Except.ok.inj h
            refine ⟨part, rfl, ?_⟩
            rw [step] at hfile ⊢
            split at hfile
            · exact absurd hfile (hfs.dropLast hentry bytes)
            · rename_i hdots
              rw [if_neg hdots, List.getLast?_concat]
          | cons next parts =>
            have hnext : ∀ bytes, fs.entryAt (step place part) ≠ some (.file bytes) := by
              intro bytes hnext
              simp only [walk, hnext] at h
              exact nomatch h
            obtain ⟨last, hlast, hplace⟩ := ih hnext h
            exact ⟨last, by rw [List.getLast?_cons_cons, hlast], hplace⟩

theorem resolve_cases (fs : Files κ) (name : Text α) :
    (∃ p, FileName.refusal? name = some p ∧ fs.resolve name = .error p) ∨
      FileName.refusal? name = none ∧ (fs.resolve name = .error .nameTooLong ∨
        fs.resolve name =
          fs.walk (if name.head? = some FileName.slash then [] else fs.current) (FileName.parts name)) := by
  rw [resolve]
  cases h : FileName.refusal? name with
  | some p => exact .inl ⟨p, rfl, rfl⟩
  | none =>
    refine .inr ⟨rfl, ?_⟩
    split
    · rename_i hsome
      exact nomatch hsome
    · split
      · exact .inl rfl
      · exact .inr rfl

/-- The last part of the name of a file is the last part of its place. -/
theorem IsTree.getLast?_place {fs : Files κ} (hfs : fs.IsTree) {name : Text α} {place : List κ}
    {bytes : List UInt8} (h : fs.resolve name = .ok place)
    (hfile : fs.entryAt place = some (.file bytes)) :
    FileName.parts name ≠ [] ∧ place.getLast? = some (Naming.key (FileName.last name)) := by
  have hwalk : fs.walk (if name.head? = some FileName.slash then [] else fs.current) (FileName.parts name) =
      .ok place := by
    rcases resolve_cases fs name with ⟨p, -, he⟩ | ⟨-, he | he⟩
    · exact nomatch he.symm.trans h
    · exact nomatch he.symm.trans h
    · exact he.symm.trans h
  have hstart : ∀ bytes,
      fs.entryAt (if name.head? = some FileName.slash then [] else fs.current) ≠ some (.file bytes) := by
    intro bytes
    split
    · exact hfs.root bytes
    · exact hfs.current bytes
  obtain ⟨part, hpart, hplace⟩ := hfs.getLast?_walk hstart hwalk hfile
  refine ⟨fun hnil => ?_, ?_⟩
  · rw [hnil] at hpart
    exact nomatch hpart
  · rw [hplace, FileName.last, List.getLastD_eq_getLast?, hpart, Option.getD_some]

/-! ## Reading -/

theorem read_of_resolve_error {fs : Files κ} {name : Text α} {p : FileProblem}
    (h : fs.resolve name = .error p) : fs.read name = .error p := by
  rw [read, h]
  rfl

theorem read_of_resolve {fs : Files κ} {name : Text α} {place : List κ}
    (h : fs.resolve name = .ok place) :
    fs.read name =
      match fs.entryAt place with
      | none => .error .missing
      | some .directory => .error .isDirectory
      | some (.file bytes) => .ok bytes := by
  rw [read, h]
  rfl

theorem read_eq_ok_iff {fs : Files κ} {name : Text α} {bytes : List UInt8} :
    fs.read name = .ok bytes ↔
      ∃ place, fs.resolve name = .ok place ∧ fs.entryAt place = some (.file bytes) := by
  cases hr : fs.resolve name with
  | error p =>
    rw [read_of_resolve_error hr]
    exact ⟨nofun, fun ⟨_, h, _⟩ => absurd h nofun⟩
  | ok place =>
    simp only [read_of_resolve hr, Except.ok.injEq, exists_eq_left']
    cases fs.entryAt place with
    | none => exact ⟨nofun, nofun⟩
    | some entry => cases entry <;> simp

/-- No name is refused on the way to its place. -/
theorem walk_ne_error (fs : Files κ) (place : List κ) (parts : List (Text α)) {p : FileProblem}
    (hp : p.refuses = true) : fs.walk place parts ≠ .error p := by
  induction parts generalizing place with
  | nil => exact nofun
  | cons part parts ih =>
    rw [walk]
    split
    · rintro ⟨⟩
      exact nomatch hp
    · rintro ⟨⟩
      exact nomatch hp
    · split
      · rintro ⟨⟩
        exact nomatch hp
      · exact ih _

/-- A name is refused if and only if no file can have it. -/
theorem read_eq_error_iff (fs : Files κ) {name : Text α} {p : FileProblem} (hp : p.refuses = true) :
    fs.read name = .error p ↔ FileName.refusal? name = some p := by
  rcases resolve_cases fs name with ⟨q, hq, hresolve⟩ | ⟨hnone, hresolve⟩
  · rw [read_of_resolve_error hresolve, hq]
    exact ⟨fun h => congrArg some (Except.error.inj h), fun h => congrArg Except.error (Option.some.inj h)⟩
  · refine ⟨fun h => ?_, fun h => nomatch hnone.symm.trans h⟩
    cases hr : fs.resolve name with
    | error q =>
      rw [read_of_resolve_error hr] at h
      obtain rfl := Except.error.inj h
      rcases hresolve with he | he
      · obtain rfl := Except.error.inj (hr.symm.trans he)
        exact nomatch hp
      · exact absurd (he.symm.trans hr) (walk_ne_error fs _ _ hp)
    | ok place =>
      rw [read_of_resolve hr] at h
      split at h
      · obtain rfl := Except.error.inj h
        exact nomatch hp
      · obtain rfl := Except.error.inj h
        exact nomatch hp
      · exact nomatch h

/-! ## Writing -/

theorem find?_putEntry (place p : List κ) (e : FileEntry) (es : List (List κ × FileEntry)) :
    (putEntry place e es).find? (·.1 = p) =
      if p = place then some (place, e) else es.find? (·.1 = p) := by
  induction es with
  | nil =>
    by_cases hp : p = place
    · simp [putEntry, hp]
    · simp [putEntry, hp, Ne.symm hp]
  | cons old es ih =>
    rw [putEntry]
    by_cases hold : old.1 = place
    · rw [if_pos hold, List.find?_cons, List.find?_cons]
      by_cases hp : p = place
      · simp [hold, hp]
      · simp [hold, hp, Ne.symm hp]
    · rw [if_neg hold, List.find?_cons, List.find?_cons, ih]
      by_cases hp : p = place
      · simp [hold, hp]
      · simp only [if_neg hp]

theorem map_fst_putEntry {place : List κ} {e : FileEntry} {es : List (List κ × FileEntry)}
    (h : place ∈ es.map (·.1)) : (putEntry place e es).map (·.1) = es.map (·.1) := by
  induction es with
  | nil => exact absurd h List.not_mem_nil
  | cons old es ih =>
    rw [putEntry]
    split
    · rfl
    · rename_i hold
      rw [List.map_cons, List.map_cons, ih ((List.mem_cons.mp h).resolve_left (Ne.symm hold))]

theorem mem_places_of_entryAt {fs : Files κ} {place : List κ} {bytes : List UInt8}
    (h : fs.entryAt place = some (.file bytes)) : place ∈ fs.entries.map (·.1) := by
  rw [entryAt] at h
  split at h
  · rename_i e he
    have hp := List.find?_some he
    simp only [decide_eq_true_eq] at hp
    exact List.mem_map.mpr ⟨e, List.mem_of_find?_eq_some he, hp⟩
  · split at h <;> exact nomatch h

/-- New contents of a file change nothing at other places. -/
theorem entryAt_putEntry {fs : Files κ} {place : List κ} {old bytes : List UInt8}
    (h : fs.entryAt place = some (.file old)) (p : List κ) :
    { fs with entries := putEntry place (.file bytes) fs.entries }.entryAt p =
      if p = place then some (.file bytes) else fs.entryAt p := by
  have hbelow : (putEntry place (.file bytes) fs.entries).any (p.isPrefixOf ·.1) =
      fs.entries.any (p.isPrefixOf ·.1) := by
    have hany (es : List (List κ × FileEntry)) :
        es.any (p.isPrefixOf ·.1) = (es.map (·.1)).any (p.isPrefixOf ·) := by
      rw [List.any_map]
      rfl
    rw [hany, hany, map_fst_putEntry (mem_places_of_entryAt h)]
  rw [entryAt, find?_putEntry, hbelow, entryAt]
  by_cases hp : p = place
  · rw [if_pos hp, if_pos hp]
  · rw [if_neg hp, if_neg hp]

/-! ## Trees that differ in what files hold -/

/-- Two trees are alike if they differ in nothing but what their files hold. -/
structure Alike (fs fs' : Files κ) : Prop where
  current : fs'.current = fs.current
  readOnly : fs'.readOnly = fs.readOnly
  kind : ∀ p, (fs'.entryAt p).map FileEntry.isFile = (fs.entryAt p).map FileEntry.isFile

theorem Alike.refl (fs : Files κ) : fs.Alike fs := ⟨rfl, rfl, fun _ => rfl⟩

theorem Alike.trans {fs₁ fs₂ fs₃ : Files κ} (h : fs₁.Alike fs₂) (h' : fs₂.Alike fs₃) : fs₁.Alike fs₃ :=
  ⟨h'.current.trans h.current, h'.readOnly.trans h.readOnly, fun p => (h'.kind p).trans (h.kind p)⟩

theorem Alike.walk_eq {fs fs' : Files κ} (h : fs.Alike fs') (place : List κ)
    (parts : List (Text α)) : fs'.walk place parts = fs.walk place parts := by
  induction parts generalizing place with
  | nil => rfl
  | cons part parts ih =>
    have hkind := h.kind place
    rw [walk, walk, ih]
    cases he : fs.entryAt place with
    | none =>
      rw [he, Option.map_none, Option.map_eq_none_iff] at hkind
      rw [hkind]
    | some entry =>
      rw [he, Option.map_some] at hkind
      obtain ⟨entry', he', hfile⟩ := Option.map_eq_some_iff.mp hkind
      rw [he']
      cases entry <;> cases entry' <;> first | rfl | exact nomatch hfile

/-- In trees that are alike, a name stands for the same place. -/
theorem Alike.resolve_eq {fs fs' : Files κ} (h : fs.Alike fs') (name : Text α) :
    fs'.resolve name = fs.resolve name := by
  rw [resolve, resolve, h.walk_eq, h.current]

theorem Alike.exists_file {fs fs' : Files κ} (h : fs.Alike fs') {place : List κ}
    {bytes : List UInt8} (hfile : fs.entryAt place = some (.file bytes)) :
    ∃ bytes', fs'.entryAt place = some (.file bytes') := by
  have hkind := h.kind place
  rw [hfile, Option.map_some] at hkind
  obtain ⟨entry, he, hentry⟩ := Option.map_eq_some_iff.mp hkind
  cases entry with
  | file bytes' => exact ⟨bytes', he⟩
  | directory => exact nomatch hentry

/-- A file that is not read-only gets new contents, and nothing else changes. -/
theorem exists_write_eq_ok {fs : Files κ} {name : Text α} {place : List κ} {old : List UInt8}
    (hplace : fs.resolve name = .ok place) (hfile : fs.entryAt place = some (.file old))
    (hwritable : place ∉ fs.readOnly) (bytes : List UInt8) :
    ∃ fs', fs.write name bytes = .ok fs' ∧ fs.Alike fs' ∧
      ∀ p, fs'.entryAt p = if p = place then some (.file bytes) else fs.entryAt p := by
  refine ⟨{ fs with entries := putEntry place (.file bytes) fs.entries }, ?_, ⟨rfl, rfl, fun p => ?_⟩,
    entryAt_putEntry hfile⟩
  · simp only [write, hplace, bind, Except.bind, if_neg hwritable, hfile]
    rfl
  · rw [entryAt_putEntry hfile]
    split
    · rename_i hp
      rw [hp, hfile]
      rfl
    · rfl

/-- A file that is read-only cannot be written. -/
theorem write_eq_readOnly {fs : Files κ} {name : Text α} {place : List κ}
    (hplace : fs.resolve name = .ok place) (hreadOnly : place ∈ fs.readOnly) (bytes : List UInt8) :
    fs.write name bytes = .error .readOnly := by
  simp only [write, hplace, bind, Except.bind, if_pos hreadOnly]
  rfl

end Files

end Worksheet
