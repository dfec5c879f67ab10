import Worksheet.Proofs.Engine.Logging
import Worksheet.Proofs.Profile

/-!
# The switches of a profile

The section on rules is a list of entries, which can be any values. Those that are mappings
with the key `id` are switches (`RuleToggle.isSwitch`); all others are skipped.

* `RuleToggle.readAll_eq`: which entries become switches, and which are told to the journal as
  skipped;
* `Profile.read_rules`: the settings are those of the profile without the entries that are
  skipped, and the first switch of a name decides whether its rule is to run.
-/

namespace Worksheet

/-! ## Keys of mappings -/

namespace Value

/-- The value of a key, if there is a mapping with this key. -/
def field? (v : Value) (name : Text) : Option Value :=
  match v with
  | map es => (Entries.field? es name).map bare
  | _ => none

theorem part_eq_ok {v w : Value} {name : Text} (h : v.field? name = some w) : v.part name = .ok w := by
  cases v with
  | map es =>
    obtain ⟨u, hu, rfl⟩ := Option.map_eq_some_iff.mp h
    rw [part, hu]
  | _ => exact nomatch h

theorem exists_part_eq_error {v : Value} {name : Text} (h : v.field? name = none) :
    ∃ f, v.part name = .error f := by
  cases v with
  | map es =>
    rw [part, Option.map_eq_none_iff.mp h]
    exact ⟨_, rfl⟩
  | _ => exact ⟨_, rfl⟩

theorem fieldOr_eq {es : Entries} {name : Text} {default : Value} (h : default.bare = default) :
    (map es).fieldOr name default = .ok (((map es).field? name).getD default) := by
  rw [fieldOr_map, field?]
  cases Entries.field? es name with
  | none => exact congrArg Except.ok h
  | some w => rfl

theorem sameKey_text_iff {v : Value} {t : Text} : v.sameKey (.text t) = true ↔ v = .text t := by
  cases v with
  | text s => simp only [sameKey, number?, beq_iff_eq, text.injEq]
  | real x =>
    simp only [sameKey, number?, reduceCtorEq, iff_false]
    cases x.scaled? <;> exact Bool.false_ne_true
  | _ => simp only [sameKey, number?, Bool.false_eq_true, reduceCtorEq]

end Value

namespace RuleToggle

/-- Whether an entry is a switch: a mapping with the key `id`. -/
def isSwitch (v : Value) : Bool := (v.field? (lit "id")).isSome

/-- The switch that an entry stands for. It is on unless the entry says otherwise. -/
def ofEntry (v : Value) : RuleToggle where
  id := (v.field? (lit "id")).getD .null
  enabled := ((v.field? (lit "enabled")).getD (.bool true)).truth
  description := (v.field? (lit "description")).getD (.text [])

/-- The call for an entry that is skipped. -/
def Skips (v : Value) (c : Call) : Prop :=
  ∃ shown f, v.shown = .ok shown ∧ read v = .error f ∧ c = skippedCall shown f

theorem read_of_isSwitch {v : Value} (h : isSwitch v = true) : read v = .ok (ofEntry v) := by
  obtain ⟨id, hid⟩ := Option.isSome_iff_exists.mp h
  cases v with
  | map es =>
    rw [read, Value.part_eq_ok hid, Value.fieldOr_eq rfl, Value.fieldOr_eq rfl, ofEntry, hid]
    rfl
  | _ => exact nomatch hid

theorem exists_read_eq_error {v : Value} (h : isSwitch v = false) : ∃ f, read v = .error f := by
  obtain ⟨f, hf⟩ := Value.exists_part_eq_error (Option.isNone_iff_eq_none.mp (Option.isSome_eq_false_iff.mp h))
  refine ⟨f, ?_⟩
  rw [read, hf]
  rfl

theorem isSwitch_iff {v : Value} :
    isSwitch v = true ↔ ∃ entries id, v = .map entries ∧ Entries.field? entries (lit "id") = some id := by
  rw [isSwitch, Option.isSome_iff_exists]
  constructor
  · rintro ⟨id, hid⟩
    cases v with
    | map entries =>
      obtain ⟨w, hw, -⟩ := Option.map_eq_some_iff.mp hid
      exact ⟨entries, w, rfl, hw⟩
    | _ => exact nomatch hid
  · rintro ⟨entries, id, rfl, hid⟩
    exact ⟨id.bare, congrArg (Option.map Value.bare) hid⟩

theorem exists_read_iff {v : Value} : (∃ t, read v = .ok t) ↔ isSwitch v = true := by
  constructor
  · rintro ⟨t, ht⟩
    cases h : isSwitch v with
    | true => rfl
    | false =>
      obtain ⟨f, hf⟩ := exists_read_eq_error h
      exact nomatch hf.symm.trans ht
  · exact fun h => ⟨_, read_of_isSwitch h⟩

/-- Entries that can be shown become switches, or are skipped. -/
theorem readAll_eq {vs : List Value} (h : ∀ v ∈ vs, ∃ t, v.shown = .ok t) :
    (readAll vs).2 = .ok ((vs.filter isSwitch).map ofEntry) ∧
      List.Forall₂ Skips (vs.filter fun v => !isSwitch v) (readAll vs).1 := by
  induction vs with
  | nil => exact ⟨rfl, .nil⟩
  | cons v vs ih =>
    obtain ⟨⟨shown, hshown⟩, hvs⟩ := List.forall_mem_cons.mp h
    obtain ⟨htoggles, hcalls⟩ := ih hvs
    cases hv : isSwitch v with
    | true =>
      rw [List.filter_cons_of_pos hv, List.filter_cons_of_neg (by simp [hv]), readAll, read_of_isSwitch hv]
      simp only [htoggles]
      exact ⟨rfl, hcalls⟩
    | false =>
      obtain ⟨f, hf⟩ := exists_read_eq_error hv
      rw [List.filter_cons_of_neg (by simp [hv]), List.filter_cons_of_pos (by simp [hv]), readAll, hf]
      simp only [hshown]
      exact ⟨htoggles, .cons ⟨shown, f, hshown, hf, rfl⟩ hcalls⟩

/-- Entries that are skipped are told to every journal that is not silent. -/
theorem events_of_skips {vs : List Value} {cs : List Call} (h : List.Forall₂ Skips vs cs) {j : Journal}
    (hj : j.Open) (hlevel : j.level ≠ .silent) :
    (j.recordAll cs).events = j.events ++ cs.map j.eventOf := by
  have hskipped : ∀ c ∈ cs, c.Plain ∧ c.passes j.level j.channels = true := by
    induction h with
    | nil => exact fun _ hc => absurd hc List.not_mem_nil
    | cons hskips _ ih =>
      obtain ⟨shown, f, -, -, rfl⟩ := hskips
      refine List.forall_mem_cons.mpr ⟨⟨?_, ?_⟩, ih⟩
      · exact Call.plain_of_names [lit "entry", lit "error"] rfl (by decide)
      · exact bne_iff_ne.mpr hlevel
  rw [hj.recordAll_eq fun c hc => (hskipped c hc).1,
    List.filter_eq_self.mpr fun c hc => (hskipped c hc).2]

/-! ## The first switch of a name -/

theorem sameKey_ofEntry_iff {v : Value} {rule : Text} :
    (ofEntry v).id.sameKey (.text rule) = true ↔ v.field? (lit "id") = some (.text rule) := by
  rw [Value.sameKey_text_iff, ofEntry]
  cases v.field? (lit "id") with
  | none => simp
  | some id => simp

variable {vs : List Value} {s : Settings} {rule : Text}

/-- The first entry of a name decides whether its rule is to run. -/
theorem enables_of_first (h : s.toggles = (vs.filter isSwitch).map ofEntry) {xs ys : List Value} {v : Value}
    (hvs : vs = xs ++ v :: ys) (hv : v.field? (lit "id") = some (.text rule))
    (hxs : ∀ w ∈ xs, w.field? (lit "id") ≠ some (.text rule)) :
    s.enables rule = ((v.field? (lit "enabled")).getD (.bool true)).truth := by
  have hswitch : isSwitch v = true := Option.isSome_iff_exists.mpr ⟨_, hv⟩
  have hfind : s.toggle? rule = some (ofEntry v) := by
    rw [Settings.toggle?, h, hvs, List.filter_append, List.filter_cons_of_pos hswitch, List.map_append,
      List.map_cons, List.find?_eq_some_iff_append]
    refine ⟨sameKey_ofEntry_iff.mpr hv, _, _, rfl, List.forall_mem_map.mpr fun w hw => ?_⟩
    rw [Bool.not_eq_true', Bool.eq_false_iff, ne_eq, sameKey_ofEntry_iff]
    exact hxs w (List.mem_of_mem_filter hw)
  rw [Settings.enables, hfind]
  rfl

theorem enables_of_none (h : s.toggles = (vs.filter isSwitch).map ofEntry)
    (hvs : ∀ v ∈ vs, v.field? (lit "id") ≠ some (.text rule)) : s.enables rule = true := by
  have hfind : s.toggle? rule = none := by
    rw [Settings.toggle?, h]
    refine List.find?_eq_none.mpr (List.forall_mem_map.mpr fun v hv hname => ?_)
    exact hvs v (List.mem_of_mem_filter hv) (sameKey_ofEntry_iff.mp hname)
  rw [Settings.enables, hfind]

end RuleToggle

/-! ## Other rules in a profile -/

namespace Entries

theorem field?_put_self (es : Entries) (name : Text) (v : Value) :
    field? (es.put (.text name) v) name = some v := by
  have hkey : (Value.text name).sameKey (.text name) = true := Value.sameKey_text_iff.mpr rfl
  induction es with
  | nil => exact if_pos hkey
  | cons e es ih =>
    obtain ⟨k, w⟩ := e
    rw [put]
    split
    · rename_i hk
      exact if_pos hk
    · rename_i hk
      exact (if_neg hk).trans ih

theorem field?_put_of_ne {name other : Text} (h : other ≠ name) (es : Entries) (v : Value) :
    field? (es.put (.text name) v) other = field? es other := by
  have hkey {k : Value} (hk : k.sameKey (.text name) = true) : ¬ k.sameKey (.text other) = true := by
    rw [Value.sameKey_text_iff.mp hk, Value.sameKey_text_iff, Value.text.injEq]
    exact Ne.symm h
  induction es with
  | nil => exact if_neg (hkey (Value.sameKey_text_iff.mpr rfl))
  | cons e es ih =>
    obtain ⟨k, w⟩ := e
    rw [put]
    split
    · rename_i hk
      exact (if_neg (hkey hk)).trans (if_neg (hkey hk)).symm
    · rw [field?, get?, field?, get?]
      split
      · rfl
      · exact ih

end Entries

namespace Profile

/-- A profile with other entries in its section on rules. -/
def withRules (es : Entries) (vs : List Value) : Entries := es.put (.text (lit "rules")) (.list vs)

variable {es : Entries} {vs : List Value} {name : Text}

theorem fieldOr_withRules (h : name ≠ lit "rules") (default : Value) :
    (Value.map (withRules es vs)).fieldOr name default = (Value.map es).fieldOr name default := by
  rw [Value.fieldOr_map, Value.fieldOr_map, withRules, Entries.field?_put_of_ne h]

theorem sectionOf_withRules (h : name ≠ lit "rules") :
    (Value.map (withRules es vs)).sectionOf name = (Value.map es).sectionOf name := by
  rw [Value.sectionOf, fieldOr_withRules h, Value.sectionOf]

/-- The settings do not depend on the section on rules, but for the switches that were read. -/
theorem settings_withRules (defaultName : Text) (s : Sections) (toggles : List RuleToggle) :
    settings (.map (withRules es vs)) defaultName s toggles = settings (.map es) defaultName s toggles := by
  rw [settings, fieldOr_withRules (by decide), sectionOf_withRules (by decide), settings]

theorem toggles_of_settings {v : Value} {s : Sections} {toggles : List RuleToggle} {t : Settings}
    (h : settings v name s toggles = .ok t) : t.toggles = toggles := by
  simp only [settings, bind_eq_ok] at h
  obtain ⟨_, -, _, -, _, -, _, -, _, -, _, -, _, -, _, -, _, -, _, -, h⟩ := h
  exact Except.ok.inj h ▸ rfl

/-- The sections of a profile that are looked at before its entries. -/
def front (es : Entries) : Except Fault (Value × Value) := do
  let profile ← (Value.map es).sectionOf (lit "profile")
  let documents ← (Value.map es).sectionOf (lit "documents")
  return (profile, documents)

theorem front_withRules : front (withRules es vs) = front es := by
  rw [front, sectionOf_withRules (by decide), sectionOf_withRules (by decide), front]

theorem sections_eq (h : (Value.map es).field? (lit "rules") = some (.list vs)) :
    sections (.map es) = (front es).map fun p => ⟨p.1, p.2, vs.map Value.bare⟩ := by
  have hrules : (Value.map es).fieldOr (lit "rules") .null = .ok (.list vs) := by
    rw [Value.fieldOr_eq rfl, h]
    rfl
  rw [sections, hrules, front]
  cases (Value.map es).sectionOf (lit "profile") with
  | error f => rfl
  | ok profile =>
    cases (Value.map es).sectionOf (lit "documents") with
    | error f => rfl
    | ok documents => cases vs <;> rfl

/-- Entries that can be shown never keep a profile from being read: what comes of it is decided
by the switches among them and by the other sections. -/
theorem read_eq (hrules : (Value.map es).field? (lit "rules") = some (.list vs))
    (hshown : ∀ v ∈ vs.map Value.bare, ∃ t, v.shown = .ok t) (defaultName : Text) :
    read (.map es) defaultName =
      match front es with
      | .error f => { result := .error f }
      | .ok (profile, documents) =>
        { calls := (RuleToggle.readAll (vs.map Value.bare)).1
          result := settings (.map es) defaultName { profile, documents, rules := [] }
            (((vs.map Value.bare).filter RuleToggle.isSwitch).map RuleToggle.ofEntry) } := by
  rw [read, sections_eq hrules]
  cases front es with
  | error f => rfl
  | ok p =>
    simp only [Except.map, (RuleToggle.readAll_eq hshown).1]
    rfl

theorem exists_shown_of_short (hrules : (Value.map es).field? (lit "rules") = some (.list vs))
    (hshort : (Value.map es).Short) : ∀ v ∈ vs.map Value.bare, ∃ t, v.shown = .ok t := by
  obtain ⟨w, hw, hbare⟩ := Option.map_eq_some_iff.mp hrules
  have hlist : (Value.list vs).Short := hbare ▸ (Value.ShortEntries.of_get? hshort hw).bare
  refine List.forall_mem_map.mpr fun v hv => Value.exists_shown ?_
  exact (Value.ShortEach.of_mem hlist hv).bare

/-- Entries of the section on rules that are no switches do no harm. In a profile without
integers that are too long,

* the entries that become switches are the mappings with the key `id`;
* what comes of reading the profile is the same without the other entries;
* each of the others is told to the journal once, in their order;
* the first switch of a name decides whether its rule is to run. -/
theorem read_rules (hrules : (Value.map es).field? (lit "rules") = some (.list vs))
    (hshort : (Value.map es).Short) (defaultName : Text) :
    (∀ v, (∃ t, RuleToggle.read v = .ok t) ↔
      ∃ entries id, v = .map entries ∧ Entries.field? entries (lit "id") = some id) ∧
    (read (.map (withRules es (vs.filter fun v => RuleToggle.isSwitch v.bare))) defaultName).result =
      (read (.map es) defaultName).result ∧
    ∀ s, (read (.map es) defaultName).result = .ok s →
      s.toggles = ((vs.map Value.bare).filter RuleToggle.isSwitch).map RuleToggle.ofEntry ∧
      List.Forall₂ RuleToggle.Skips ((vs.map Value.bare).filter fun v => !RuleToggle.isSwitch v)
        (read (.map es) defaultName).calls ∧
      (∀ j : Journal, j.Open → j.level ≠ .silent →
        (j.recordAll (read (.map es) defaultName).calls).events =
          j.events ++ (read (.map es) defaultName).calls.map j.eventOf) ∧
      ∀ rule : Text,
        (∀ xs v ys, vs.map Value.bare = xs ++ v :: ys → v.field? (lit "id") = some (.text rule) →
          (∀ w ∈ xs, w.field? (lit "id") ≠ some (.text rule)) →
          s.enables rule = ((v.field? (lit "enabled")).getD (.bool true)).truth) ∧
        ((∀ v ∈ vs.map Value.bare, v.field? (lit "id") ≠ some (.text rule)) → s.enables rule = true) := by
  have hshown := exists_shown_of_short hrules hshort
  refine ⟨fun v => RuleToggle.exists_read_iff.trans RuleToggle.isSwitch_iff, ?_, fun s hs => ?_⟩
  · have hrules' : (Value.map (withRules es (vs.filter fun v => RuleToggle.isSwitch v.bare))).field?
        (lit "rules") = some (.list (vs.filter fun v => RuleToggle.isSwitch v.bare)) :=
      congrArg (Option.map Value.bare) (Entries.field?_put_self es _ _)
    have hfilter : (vs.filter fun v => RuleToggle.isSwitch v.bare).map Value.bare =
        (vs.map Value.bare).filter RuleToggle.isSwitch := by
      rw [List.filter_map]
      rfl
    rw [read_eq hrules hshown, read_eq hrules' fun v hv => hshown v (List.mem_of_mem_filter (hfilter ▸ hv)),
      front_withRules]
    cases front es with
    | error f => rfl
    | ok p => simp only [settings_withRules, hfilter, List.filter_filter, Bool.and_self]
  · obtain ⟨hcalls, htoggles⟩ : (read (.map es) defaultName).calls = (RuleToggle.readAll (vs.map Value.bare)).1 ∧
        s.toggles = ((vs.map Value.bare).filter RuleToggle.isSwitch).map RuleToggle.ofEntry := by
      rw [read_eq hrules hshown] at hs ⊢
      cases hfront : front es with
      | error f =>
        rw [hfront] at hs
        exact nomatch hs
      | ok p =>
        rw [hfront] at hs
        exact ⟨rfl, toggles_of_settings hs⟩
    have hskips := (RuleToggle.readAll_eq hshown).2
    rw [← hcalls] at hskips
    exact ⟨htoggles, hskips, fun j hj hlevel => RuleToggle.events_of_skips hskips hj hlevel, fun rule =>
      ⟨fun xs v ys => RuleToggle.enables_of_first htoggles, RuleToggle.enables_of_none htoggles⟩⟩

/-- A profile with a text and a mapping without `id` between its switches. The second switch has
the name of the first, which is off. -/
def mixedRules : Entries :=
  [(.text (lit "rules"), .list
    [.text (lit "r10_marks"), .map [(.text (lit "id"), .text (lit "r10_marks")), (.text (lit "enabled"), .null)],
      .map [(.text (lit "enabled"), .bool true)], .map [(.text (lit "id"), .text (lit "r10_marks"))]])]

theorem read_rules_mixed :
    ∃ s, (read (.map mixedRules) (lit "house")).result = .ok s ∧ s.enables Marks.ruleName = false ∧
      s.toggles.length = 2 ∧ (read (.map mixedRules) (lit "house")).calls.length = 2 := by
  have hshort : (Value.map mixedRules).Short := by
    simp only [mixedRules, Value.Short, Value.ShortEach, Value.ShortEntries, and_self]
  obtain ⟨-, -, hread⟩ := @read_rules mixedRules _ rfl hshort (lit "house")
  obtain ⟨htoggles, hskips, -, henables⟩ := hread _ rfl
  refine ⟨_, rfl, ?_, congrArg List.length htoggles, hskips.length_eq.symm⟩
  exact (henables Marks.ruleName).1 [.text (lit "r10_marks")] _ _ rfl rfl (by simp [Value.field?])

end Profile

end Worksheet
