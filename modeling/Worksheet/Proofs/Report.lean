import Worksheet.Proofs.Calendar
import Worksheet.Proofs.Diagnostic
import Worksheet.Proofs.Document
import Worksheet.Proofs.Engine.Trace
import Worksheet.Proofs.FileName

/-!
# Reports are read as they were saved

`Report.read_write`: a report that can be stored (`Report.Storable`) is read again from the
text under which it was saved, with every indentation, if its version is one of those that
are written; otherwise it is refused for its version.

* `Report.ofJson_toJson` reads the report from the JSON that it is written as;
* `Report.Storable.readable` tells that this JSON is read again from its text;
* `Report.isReadable_iff` tells which versions there are;
* `Engine.storable_validate` tells that the reports of the stock rules can be stored.
-/

namespace Worksheet

/-! ## Versions -/

theorem Text.exists_of_splitOn_eq_cons {p : Char → Bool} {t part : Text} {parts : List Text}
    (h : Text.splitOn p t = part :: parts) : (parts = [] ∧ t = part) ∨
      ∃ c rest, p c = true ∧ t = part ++ c :: rest ∧ Text.splitOn p rest = parts := by
  induction t generalizing part with
  | nil =>
    obtain ⟨rfl, rfl⟩ := List.cons.inj h
    exact .inl ⟨rfl, rfl⟩
  | cons c t ih =>
    rw [splitOn] at h
    split at h
    · rename_i hc
      obtain ⟨rfl, rfl⟩ := List.cons.inj h
      exact .inr ⟨c, t, hc, rfl, rfl⟩
    · split at h
      · rename_i hnil
        exact absurd hnil (splitOn_ne_nil p t)
      · rename_i part' parts' heq
        obtain ⟨rfl, rfl⟩ := List.cons.inj h
        refine (ih heq).imp (fun h => ⟨h.1, by rw [h.2]⟩) ?_
        rintro ⟨d, rest, hd, rfl, hparts⟩
        exact ⟨d, rest, hd, rfl, hparts⟩

namespace Report

/-- The versions that can be read: the first two parts of the version that is expected, and
everything that begins with these and a point. -/
theorem isReadable_iff {version : Text} :
    isReadable version = true ↔ version = lit "0.1" ∨ lit "0.1." <+: version := by
  have hformat : About.formatVersion.splitOn (· == '.') = [lit "0", lit "1", lit "0"] := by decide
  rw [isReadable, hformat]
  constructor
  · intro h
    cases hsplit : version.splitOn (· == '.') with
    | nil => exact absurd hsplit (Text.splitOn_ne_nil _ _)
    | cons a parts =>
      cases parts with
      | nil =>
        rw [hsplit] at h
        exact absurd h nofun
      | cons b parts =>
        rw [hsplit] at h
        simp only [Bool.and_eq_true, decide_eq_true_eq] at h
        obtain ⟨rfl, rfl⟩ := h
        obtain ⟨hnil, -⟩ | ⟨c, rest, hc, rfl, hrest⟩ := Text.exists_of_splitOn_eq_cons hsplit
        · exact absurd hnil nofun
        · obtain rfl := beq_iff_eq.mp hc
          obtain ⟨-, rfl⟩ | ⟨c, rest, hc, rfl, -⟩ := Text.exists_of_splitOn_eq_cons hrest
          · exact .inl rfl
          · obtain rfl := beq_iff_eq.mp hc
            exact .inr ⟨rest, rfl⟩
  · rintro (rfl | ⟨y, rfl⟩)
    · decide
    · have hsplit : Text.splitOn (· == '.') (lit "0.1." ++ y) =
          [lit "0", lit "1"] ++ Text.splitOn (· == '.') y :=
        Text.splitOn_append_cons rfl (lit "0.1") y
      rw [hsplit]
      rfl

/-! ## Reading what is written -/

theorem ofName?_status (s : Status) : Status.ofName? s.name = some s := by
  cases s <;> decide

/-- A report is read again from its JSON. -/
theorem ofJson_toJson {r : Report} (h : Moment.ofText? r.moment.iso = some r.moment) :
    ofJson r.toJson = .ok r := by
  have htext (t : Text) : Json.string (.text t) = .ok t := rfl
  have hmoment : Json.moment (.text r.moment.iso) = .ok r.moment := by
    rw [Json.moment, h]
    rfl
  have hdiagnostics : Json.elements Diagnostic.ofJson (.list (r.diagnostics.map Diagnostic.toJson)) =
      .ok r.diagnostics := Json.elementsFrom_map (fun d _ => d.ofJson_toJson) 0
  have hfailed : Json.elements Json.string (.list (r.failedRules.map .text)) = .ok r.failedRules :=
    Json.elementsFrom_map (fun t _ => htext t) 0
  show Report.mk <$> _ <*> _ <*> _ <*> _ <*> _ <*> _ <*> _ = _
  rw [Members.given_eq_ok rfl (htext r.version), Members.required_eq_ok rfl (htext r.document),
    Members.required_eq_ok rfl hmoment, Members.required_eq_ok rfl (Json.choice_text (ofName?_status r.status)),
    Members.given_eq_ok rfl hdiagnostics, Members.given_eq_ok rfl hfailed,
    Members.given_eq_ok rfl (show Json.number (.real r.duration) = .ok r.duration from rfl)]
  rfl

/-! ## What is written can be read -/

/-- A report with a text: its numbers are not too long, its time has a text, and its duration
is finite. -/
structure Storable (r : Report) : Prop where
  moment : r.moment.Storable
  duration : ∃ s m e, r.duration = .finite s m e ∧ Binary64.Canonical (.finite s m e)
  diagnostics : ∀ d ∈ r.diagnostics, d.Storable

theorem Storable.with_version {r : Report} (h : r.Storable) (version : Text) : { r with version }.Storable :=
  ⟨h.moment, h.duration, h.diagnostics⟩

theorem Storable.readable {r : Report} (h : r.Storable) : Json.Readable Json.depthLimit r.toJson := by
  obtain ⟨s, m, e, hduration, hc⟩ := h.duration
  have hdiagnostics : Json.Readable 199 (.list (r.diagnostics.map Diagnostic.toJson)) := by
    refine .list fun v hv => ?_
    obtain ⟨d, hd, rfl⟩ := List.mem_map.mp hv
    exact (h.diagnostics d hd).readable
  have hfailed : Json.Readable 199 (.list (r.failedRules.map .text)) := by
    refine .list fun v hv => ?_
    obtain ⟨t, -, rfl⟩ := List.mem_map.mp hv
    exact .text t
  have hnames : [lit "version", lit "document", lit "timestamp", lit "status", lit "diagnostics",
      lit "failed_rules", lit "processing_duration_ms"].Nodup := by decide
  refine .object hnames ?_
  simpa [hduration] using ⟨.text _, .text _, .text _, .text _, hdiagnostics, hfailed, .real hc⟩

/-- The version that reports carry is one that can be read. -/
theorem isReadable_formatVersion : isReadable formatVersion = true :=
  isReadable_iff.mpr (.inr (by decide))

/-- A report is read from the text under which it was saved, and then its version counts. -/
theorem Storable.read_eq {r : Report} (h : r.Storable) (indent : Option Nat) :
    read (r.write indent) =
      if isReadable r.version then .ok r else .error (.unreadableVersion r.version) := by
  have hread : Json.read? (r.write indent) = some r.toJson :=
    Json.read?_write _ (show (16 : Int) ≤ Json.wholeDigits by decide) h.readable
  rw [read, hread]
  simp only [ofJson_toJson h.moment.ofText?_iso]
  rfl

/-- A report that can be stored is read again from the text under which it was saved, if its
version is `0.1` or begins with `0.1.`, as it does in each report of a check. With another
version it is refused, and the fault names the version. -/
theorem read_write {r : Report} (h : r.Storable) (indent : Option Nat) :
    (r.version = lit "0.1" ∨ lit "0.1." <+: r.version → read (r.write indent) = .ok r) ∧
      (¬ (r.version = lit "0.1" ∨ lit "0.1." <+: r.version) →
        read (r.write indent) = .error (.unreadableVersion r.version) ∧
          (Fault.unreadableVersion r.version).kind = lit "ValueError" ∧
          (Fault.unreadableVersion r.version).message = lit "Incompatible IR version: " ++ r.version) ∧
      ∀ (e : Engine) (d : Document) (moment : Moment) (duration : Binary64) (j : Journal),
        r = (e.validate d moment duration j).1 → read (r.write indent) = .ok r := by
  have hread := h.read_eq indent
  refine ⟨fun hversion => ?_, fun hversion => ?_, ?_⟩
  · rw [hread, if_pos (isReadable_iff.mpr hversion)]
  · rw [hread, if_neg (mt isReadable_iff.mp hversion)]
    exact ⟨rfl, rfl, rfl⟩
  · rintro e d moment duration j rfl
    rw [hread]
    exact if_pos isReadable_formatVersion

end Report

/-! ## The reports of the stock rules -/

/-- A finding within a text that is not too long can be stored, with its ranges. -/
theorem Diagnostic.Within.storable {x : Diagnostic} {d : Document} (h : x.Within d.text.length)
    (hlength : Json.Fits d.text.length) : (x.locate d).Storable := by
  have hfits {n : Nat} (hn : n ≤ d.text.length) : Json.Fits n := Nat.lt_of_le_of_lt hn hlength
  have hplace (offset : Int) : (d.positionAt offset).Storable :=
    ⟨hfits (d.positionAt_le offset).1, hfits (d.positionAt_le offset).2⟩
  have hstart : x.start ≤ d.text.length := Nat.le_trans (Nat.le_of_lt h.nonempty) h.stop
  refine ⟨hfits hstart, hfits h.stop, ?_, ?_⟩
  · rintro r ⟨⟩
    exact ⟨hplace _, hplace _⟩
  · intro c hc
    obtain ⟨c', hc', rfl⟩ := Option.map_eq_some_iff.mp hc
    obtain ⟨hsame, -, hstop⟩ := h.fix c' hc'
    refine ⟨hfits (hsame ▸ hstart), hfits hstop, ?_⟩
    rintro r ⟨⟩
    exact ⟨hplace _, hplace _⟩

namespace Engine

/-- What a check by the stock rules reports can be stored, whatever the settings and the text,
unless the text has more characters than a number can count. -/
theorem storable_validate (s : Settings) {d : Document} {moment : Moment} {m e : Nat} {negative : Bool}
    (j : Journal) (hlength : Json.Fits d.text.length) (hmoment : moment.Storable)
    (hduration : Binary64.Canonical (.finite negative m e)) :
    ((stock s).validate d moment (.finite negative m e) j).1.Storable where
  moment := hmoment
  duration := ⟨negative, m, e, rfl, hduration⟩
  diagnostics := by
    intro x hx
    obtain ⟨r, hr, ds, hds, y, hy, rfl⟩ := exists_of_mem_diagnostics hx
    exact (traced_of_mem_result (s := s) hr hds hy).1.storable hlength

end Engine

namespace Report

/-- The report on a mistyped tag, with a finding that has a correction; and the same report in
another version that is read, and in one that is not. -/
theorem read_write_typo :
    ∃ r : Report, r.Storable ∧ r.diagnostics ≠ [] ∧ read (r.write (some 2)) = .ok r ∧
      read ({ r with version := lit "0.1" }.write none) = .ok { r with version := lit "0.1" } ∧
      read ({ r with version := lit "9.0.0" }.write none) = .error (.unreadableVersion (lit "9.0.0")) := by
  have hfits : Json.Fits (lit "<im src=\"a_files/1.png\">").length := Json.fits_of_lt (by decide)
  have hduration : Binary64.Canonical (.finite false (Nat.pow 2 52) 1020) :=
    ⟨by decide, .inr (Nat.le_refl _), by decide⟩
  have hmoment : Moment.Storable ⟨⟨2024, 1, 2⟩, 3, 4, 5, 600, some 19800⟩ := ⟨by decide, by simp⟩
  have hstorable := Engine.storable_validate {} (d := ⟨lit "<im src=\"a_files/1.png\">", lit "a.html", none⟩)
    {} hfits hmoment hduration
  have hother (version : Text) := read_write (hstorable.with_version version) none
  refine ⟨_, hstorable, by decide +kernel, (read_write hstorable (some 2)).2.2 _ _ _ _ _ rfl, ?_, ?_⟩
  · exact (hother (lit "0.1")).1 (.inl rfl)
  · have hversion : ¬ (lit "9.0.0" = lit "0.1" ∨ lit "0.1." <+: lit "9.0.0") := by decide
    exact ((hother (lit "9.0.0")).2.1 hversion).1

end Report

end Worksheet
