import Mathlib.Data.List.Basic
import Mathlib.Logic.Function.Iterate
import Worksheet.Proofs.Engine.Isolation

/-!
# The rules of an engine as a map

Rules are registered one at a time (`Engine.register`), or the stock rules all at once
(`Engine.registerStock`), and any name can be registered again. After every sequence of such
calls (`Engine.registered`) the rules are a map from names: `Engine.Arranged` says that the
names are in the order in which they were first registered, and that each of them stands for
the rule that was registered for it last.

* `Arranged.register`: one more rule keeps the rules arranged;
* `Engine.arranged_registered`: they are arranged after all calls, and registering the stock
  rules moves and removes nothing.
-/

namespace Worksheet.Engine

/-- A call that registers rules. -/
inductive Registration where
  /-- One rule. -/
  | one (r : Rule)
  /-- The stock rules. -/
  | stock

/-- The rules that a call registers. -/
def Registration.rules : Registration → List Rule
  | one r => [r]
  | stock => stockRules

/-- The engine after a call. -/
def accept (e : Engine) : Registration → Engine
  | .one r => e.register r
  | .stock => e.registerStock

/-- The engine with given settings after calls that register rules. -/
def registered (s : Settings) (cs : List Registration) : Engine := cs.foldl accept { settings := s }

/-- Whether a rule is the last one of its name in a list. -/
def IsLatest (r : Rule) (rs : List Rule) : Prop := rs.reverse.find? (·.name = r.name) = some r

/-- How the rules of an engine depend on the rules that were registered, in their order. -/
structure Arranged (e : Engine) (rs : List Rule) : Prop where
  /-- The names are those of the rules that were registered. -/
  mem_names : ∀ name, name ∈ e.ruleNames ↔ name ∈ rs.map (·.name)
  /-- They are in the order in which they were first registered. -/
  ordered : e.ruleNames.Pairwise fun a b => (rs.map (·.name)).idxOf a < (rs.map (·.name)).idxOf b
  /-- Each of them stands for the rule that was registered for it last. -/
  mem_rules : ∀ r, r ∈ e.rules ↔ IsLatest r rs

variable {e : Engine} {q r : Rule} {rs qs : List Rule}

/-! ## The latest rules -/

theorem isLatest_append_iff :
    IsLatest r (rs ++ qs) ↔ IsLatest r qs ∨ IsLatest r rs ∧ r.name ∉ qs.map (·.name) := by
  have hnone : qs.reverse.find? (·.name = r.name) = none ↔ r.name ∉ qs.map (·.name) := by
    simp [List.find?_eq_none]
  rw [IsLatest, List.reverse_append, List.find?_append, Option.or_eq_some_iff, hnone, and_comm]
  rfl

theorem isLatest_singleton_iff : IsLatest q [r] ↔ q = r := by
  rw [IsLatest, List.reverse_singleton, List.find?_singleton]
  constructor
  · intro h
    split at h
    · exact (Option.some.inj h).symm
    · exact nomatch h
  · rintro rfl
    exact if_pos (decide_eq_true rfl)

/-! ## One more rule -/

/-- A rule that is registered takes the place of the one that had its name. -/
theorem mem_insert_iff (h : (rs.map (·.name)).Nodup) :
    q ∈ insert r rs ↔ q = r ∨ q ∈ rs ∧ q.name ≠ r.name := by
  induction rs with
  | nil => simp [insert]
  | cons x xs ih =>
    rw [List.map_cons, List.nodup_cons] at h
    rw [insert]
    split
    · rename_i hx
      -- No other rule has the name of the one that is replaced.
      have hother (hq : q ∈ xs) : q.name ≠ r.name := by
        intro hname
        rw [hx, ← hname] at h
        exact h.1 (List.mem_map_of_mem hq)
      rw [List.mem_cons, List.mem_cons]
      constructor
      · exact Or.imp_right fun hq => ⟨.inr hq, hother hq⟩
      · rintro (hq | ⟨rfl | hq, hne⟩)
        · exact .inl hq
        · exact absurd hx hne
        · exact .inr hq
    · rename_i hx
      rw [List.mem_cons, List.mem_cons, ih h.2]
      constructor
      · rintro (rfl | hq | ⟨hq, hne⟩)
        · exact .inr ⟨.inl rfl, hx⟩
        · exact .inl hq
        · exact .inr ⟨.inr hq, hne⟩
      · rintro (hq | ⟨hq | hq, hne⟩)
        · exact .inr (.inl hq)
        · exact .inl hq
        · exact .inr (.inr ⟨hq, hne⟩)

theorem ruleNames_register (e : Engine) (r : Rule) :
    (e.register r).ruleNames = if r.name ∈ e.ruleNames then e.ruleNames else e.ruleNames ++ [r.name] :=
  map_name_insert r e.rules

theorem Arranged.nodup_ruleNames (h : e.Arranged rs) : e.ruleNames.Nodup := by
  refine h.ordered.imp fun {a b} hlt heq => ?_
  rw [heq] at hlt
  exact Nat.lt_irrefl _ hlt

theorem arranged_new (s : Settings) : Arranged { settings := s } [] where
  mem_names _ := .rfl
  ordered := .nil
  mem_rules _ := ⟨fun h => absurd h List.not_mem_nil, nofun⟩

/-- One more rule keeps the rules arranged. -/
theorem Arranged.register (h : e.Arranged rs) (r : Rule) : (e.register r).Arranged (rs ++ [r]) := by
  -- The names that are there already keep their places in the order of registration.
  have hordered : e.ruleNames.Pairwise fun a b =>
      ((rs ++ [r]).map (·.name)).idxOf a < ((rs ++ [r]).map (·.name)).idxOf b := by
    refine h.ordered.imp_of_mem fun {a b} ha hb hlt => ?_
    rw [List.map_append, List.idxOf_append_of_mem ((h.mem_names a).mp ha),
      List.idxOf_append_of_mem ((h.mem_names b).mp hb)]
    exact hlt
  refine ⟨fun name => ?_, ?_, fun q => ?_⟩
  · rw [ruleNames_register, List.map_append, List.mem_append, ← h.mem_names]
    split
    · rename_i hr
      exact ⟨.inl, Or.rec id fun hname => List.mem_singleton.mp hname ▸ hr⟩
    · exact List.mem_append
  · rw [ruleNames_register]
    split
    · exact hordered
    · rename_i hr
      refine List.pairwise_append.mpr ⟨hordered, List.pairwise_singleton _ _, fun a ha b hb => ?_⟩
      have hmem := (h.mem_names a).mp ha
      rw [List.mem_singleton.mp hb, List.map_append, List.idxOf_append_of_mem hmem,
        List.idxOf_append_of_notMem fun hr' => hr ((h.mem_names _).mpr hr')]
      exact Nat.lt_of_lt_of_le (List.idxOf_lt_length_of_mem hmem) (Nat.le_add_right _ _)
  · rw [isLatest_append_iff, isLatest_singleton_iff, ← h.mem_rules, List.map_singleton, List.mem_singleton]
    exact mem_insert_iff h.nodup_ruleNames

/-! ## All calls -/

theorem Arranged.foldl_register (h : e.Arranged rs) (qs : List Rule) :
    (qs.foldl Engine.register e).Arranged (rs ++ qs) := by
  induction qs generalizing e rs with
  | nil =>
    rw [List.append_nil]
    exact h
  | cons q qs ih =>
    rw [List.append_cons]
    exact ih (h.register q)

theorem Arranged.foldl_accept (h : e.Arranged rs) (cs : List Registration) :
    (cs.foldl accept e).Arranged (rs ++ cs.flatMap (·.rules)) := by
  induction cs generalizing e rs with
  | nil =>
    rw [List.flatMap_nil, List.append_nil]
    exact h
  | cons c cs ih =>
    have hc : (e.accept c).Arranged (rs ++ c.rules) := by
      cases c with
      | one r => exact h.register r
      | stock => exact h.foldl_register stockRules
    rw [List.flatMap_cons, ← List.append_assoc]
    exact ih hc

/-! ## The stock rules -/

theorem prefix_ruleNames_foldl_register (e : Engine) (qs : List Rule) :
    e.ruleNames <+: (qs.foldl register e).ruleNames := by
  induction qs generalizing e with
  | nil => exact List.prefix_rfl
  | cons q qs ih =>
    have hq : e.ruleNames <+: (e.register q).ruleNames := by
      rw [ruleNames_register]
      split
      · exact List.prefix_rfl
      · exact List.prefix_append _ _
    exact hq.trans (ih (e.register q))

theorem isLatest_stockRules_iff : IsLatest r stockRules ↔ r ∈ stockRules := by
  have hstock : stockRules = [Marks.rule] ++ [Images.rule] := rfl
  rw [hstock, isLatest_append_iff, isLatest_singleton_iff, isLatest_singleton_iff, List.mem_append,
    List.mem_singleton, List.mem_singleton]
  constructor
  · rintro (h | ⟨h, -⟩)
    · exact .inr h
    · exact .inl h
  · rintro (rfl | h)
    · exact .inr ⟨rfl, by decide⟩
    · exact .inl h

/-- After the stock rules have been registered they are there, with all rules of other names. -/
theorem Arranged.mem_registerStock_iff (h : e.Arranged rs) :
    r ∈ e.registerStock.rules ↔ r ∈ stockRules ∨ r ∈ e.rules ∧ r.name ∉ stockRules.map (·.name) := by
  rw [registerStock, (h.foldl_register stockRules).mem_rules, isLatest_append_iff, isLatest_stockRules_iff,
    h.mem_rules]

/-- A rule that is there already changes nothing. -/
theorem register_of_mem (h : e.ruleNames.Nodup) (hr : r ∈ e.rules) : e.register r = e := by
  obtain ⟨xs, ys, hrules⟩ := List.append_of_mem hr
  rw [ruleNames, hrules, List.map_append, List.map_cons] at h
  have hfirst : r.name ∉ xs.map (·.name) := fun hmem =>
    (List.nodup_append.mp h).2.2 _ hmem _ List.mem_cons_self rfl
  rw [register, hrules, insert_eq rfl hfirst, ← hrules]

theorem foldl_register_of_subset (h : e.ruleNames.Nodup) (hqs : qs ⊆ e.rules) :
    qs.foldl register e = e := by
  induction qs with
  | nil => rfl
  | cons q qs ih =>
    obtain ⟨hq, hqs⟩ := List.cons_subset.mp hqs
    rw [List.foldl_cons, register_of_mem h hq, ih hqs]

theorem Arranged.registerStock_registerStock (h : e.Arranged rs) :
    e.registerStock.registerStock = e.registerStock :=
  foldl_register_of_subset (h.foldl_register stockRules).nodup_ruleNames
    fun _ hr => h.mem_registerStock_iff.mpr (.inl hr)

/-- After any calls that register rules,

* no name occurs twice, the names are in the order of their first registration, and each of
  them stands for the rule that was registered for it last;
* registering the stock rules leaves every name where it is, and brings the stock rules back
  without changing a rule of another name; doing so more than once changes nothing more. -/
theorem arranged_registered (s : Settings) (cs : List Registration) :
    (registered s cs).ruleNames.Nodup ∧
    (registered s cs).Arranged (cs.flatMap (·.rules)) ∧
    (registered s cs).ruleNames <+: (registered s cs).registerStock.ruleNames ∧
    (∀ r, r ∈ (registered s cs).registerStock.rules ↔
      r ∈ stockRules ∨ r ∈ (registered s cs).rules ∧ r.name ∉ stockRules.map (·.name)) ∧
    ∀ n, registerStock^[n + 1] (registered s cs) = (registered s cs).registerStock := by
  have h : (registered s cs).Arranged (cs.flatMap (·.rules)) := (arranged_new s).foldl_accept cs
  exact ⟨h.nodup_ruleNames, h, prefix_ruleNames_foldl_register _ stockRules,
    fun r => h.mem_registerStock_iff, Function.iterate_fixed h.registerStock_registerStock⟩

end Worksheet.Engine
