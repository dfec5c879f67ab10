import Mathlib.Data.List.Induction
import Worksheet.Profile.Store

/-!
# Runs of the store of profiles

A run of the store is a sequence of steps: profiles are listed, loaded and got, the store
is cleared, and settings that have been handed out are changed. What each step answers is
told by the events before it alone (`Answers`): the settings that are kept for a name are
those that were last got under it since the store was last cleared (`LastGot`). Whenever
settings are handed out again, they show what they showed before, with the changes made
since (`Lawful.shown`). `lawful_run` says so of every run: the store agrees with the events
before a step (`agrees_run`), and what a step can then do (`Step`) is what the law says.
-/

namespace Worksheet.ProfileStore

/-! ## Steps -/

/-- What is asked of the store. -/
inductive Action where
  | list
  | clear
  | load (name : Text)
  | get (name : Text) (useKept : Bool)
  /-- Changes the settings with a number, by whoever holds it. -/
  | change (n : Nat) (f : Settings → Settings)

/-- What the store answers. -/
inductive Answer where
  | names (ns : List Text)
  | done
  /-- Settings are handed out by their number, and show what they are. -/
  | handed (n : Nat) (shown : Option Settings)
  | refused (f : Fault)

/-- A step that has been made: what was asked, and the answer. -/
abbrev Event := Action × Answer

/-- The store with other settings under a number. -/
def change (st : ProfileStore) (n : Nat) (f : Settings → Settings) : ProfileStore :=
  { st with handed := st.handed.modify n f }

theorem describe_eq_change (st : ProfileStore) (n : Nat) (description : Value) :
    st.describe n description = st.change n fun s => { s with description } := rfl

/-- The answer that hands out settings; a fault leaves the store as it was. -/
def told (st : ProfileStore) : Except Fault (Nat × ProfileStore) → Answer × ProfileStore
  | .error f => (.refused f, st)
  | .ok (n, st') => (.handed n (st'.settings? n), st')

/-- One step of the store. -/
def act (st : ProfileStore) : Action → Answer × ProfileStore
  | .list => (.names Profile.names, st)
  | .clear => (.done, st.clear)
  | .load name => st.told (st.load name)
  | .get name useKept => st.told (st.get name useKept)
  | .change n f => (.done, st.change n f)

/-- The events of a run, the oldest first, and the store behind them. -/
def run (as : List Action) : List Event × ProfileStore :=
  as.foldl (fun p a => (p.1 ++ [(a, (p.2.act a).1)], (p.2.act a).2)) ([], {})

/-- An event in which the settings with a number are got under a name. -/
def Gets (name : Text) (n : Nat) (e : Event) : Prop :=
  ∃ useKept shown, e = (.get name useKept, .handed n shown)

/-- The settings with a number are the last that were got under a name since the store was
last cleared. -/
def LastGot (es : List Event) (name : Text) (n : Nat) : Prop :=
  ∃ before e after, es = before ++ e :: after ∧ Gets name n e ∧
    ∀ e' ∈ after, e'.1 ≠ .clear ∧ ∀ m, ¬ Gets name m e'

/-- A profile is read: it is refused for its fault, or its settings are handed out under a
number that has not been used. -/
inductive Loads (es : List Event) (name : Text) : Answer → Prop
  | refused {f : Fault} : (Profile.loadBundled name).result = .error f → Loads es name (.refused f)
  | handed {s : Settings} {n : Nat} : (Profile.loadBundled name).result = .ok s →
      (∀ a shown, (a, .handed n shown) ∉ es) → Loads es name (.handed n (some s))

/-- The answer to an action, by the events before it. What settings show that are handed
out again is left to `Lawful.shown`. -/
inductive Answers (es : List Event) : Action → Answer → Prop
  | list : Answers es .list (.names Profile.names)
  | clear : Answers es .clear .done
  | change (n : Nat) (f : Settings → Settings) : Answers es (.change n f) .done
  | load {name : Text} {r : Answer} : Loads es name r → Answers es (.load name) r
  | reload {name : Text} {r : Answer} : Loads es name r → Answers es (.get name false) r
  | keeps {name : Text} {n : Nat} {s : Settings} : LastGot es name n →
      Answers es (.get name true) (.handed n (some s))
  | misses {name : Text} {r : Answer} : (∀ n, ¬ LastGot es name n) → Loads es name r →
      Answers es (.get name true) r

/-- What a change makes of the settings with a number. -/
def changed (n : Nat) (s : Settings) : Event → Settings
  | (.change m f, _) => if m = n then f s else s
  | _ => s

theorem concat_eq_append_cons {α : Type} {es before after : List α} {e x : α} :
    es ++ [e] = before ++ x :: after ↔
      (es = before ∧ e = x ∧ after = []) ∨
        ∃ after', after = after' ++ [e] ∧ es = before ++ x :: after' := by
  constructor
  · intro h
    rcases List.eq_nil_or_concat after with rfl | ⟨after', y, rfl⟩
    · obtain ⟨rfl, hx⟩ := List.append_inj' h rfl
      exact .inl ⟨rfl, List.singleton_inj.mp hx, rfl⟩
    · rw [List.concat_eq_append, ← List.cons_append, ← List.append_assoc] at h
      obtain ⟨rfl, hy⟩ := List.append_inj' h rfl
      exact .inr ⟨after', by rw [List.concat_eq_append, List.singleton_inj.mp hy], rfl⟩
  · rintro (⟨rfl, rfl, rfl⟩ | ⟨after', rfl, rfl⟩)
    · rfl
    · rw [List.append_assoc, List.cons_append]

theorem lastGot_concat {es : List Event} {e : Event} {name : Text} {n : Nat} :
    LastGot (es ++ [e]) name n ↔
      Gets name n e ∨ (e.1 ≠ .clear ∧ ∀ m, ¬ Gets name m e) ∧ LastGot es name n := by
  constructor
  · rintro ⟨before, x, after, h, hx, hafter⟩
    rcases concat_eq_append_cons.mp h with ⟨-, rfl, -⟩ | ⟨after', rfl, rfl⟩
    · exact .inl hx
    · exact .inr ⟨hafter e (List.mem_append_right _ List.mem_cons_self), before, x, after', rfl, hx,
        fun e' he' => hafter e' (List.mem_append_left _ he')⟩
  · rintro (he | ⟨he, before, x, after, rfl, hx, hafter⟩)
    · exact ⟨es, e, [], rfl, he, nofun⟩
    · refine ⟨before, x, after ++ [e], by rw [List.append_assoc, List.cons_append], hx, fun e' he' => ?_⟩
      rcases List.mem_append.mp he' with he' | he'
      · exact hafter e' he'
      · rw [List.mem_singleton.mp he']
        exact he

theorem gets_iff {name name' : Text} {n m : Nat} {useKept : Bool} {shown : Option Settings} :
    Gets name' m (.get name useKept, .handed n shown) ↔ name' = name ∧ m = n := by
  constructor
  · rintro ⟨useKept', shown', h⟩
    obtain ⟨h, h'⟩ := Prod.mk.inj h
    exact ⟨(Action.get.inj h).1.symm, (Answer.handed.inj h').1.symm⟩
  · rintro ⟨rfl, rfl⟩
    exact ⟨useKept, shown, rfl⟩

/-- An event that neither clears the store nor gets settings does not count. -/
theorem lastGot_concat_of_not_gets {es : List Event} {e : Event} (hclear : e.1 ≠ .clear)
    (hgets : ∀ name m, ¬ Gets name m e) {name : Text} {n : Nat} :
    LastGot (es ++ [e]) name n ↔ LastGot es name n :=
  lastGot_concat.trans ((or_iff_right (hgets name n)).trans (and_iff_right ⟨hclear, hgets name⟩))

/-- Settings that are got are the last ones under their name. -/
theorem lastGot_concat_of_gets {es : List Event} {name name' : Text} {n m : Nat} {useKept : Bool}
    {shown : Option Settings} :
    LastGot (es ++ [(.get name useKept, .handed n shown)]) name' m ↔
      if name' = name then m = n else LastGot es name' m := by
  rw [lastGot_concat]
  simp only [gets_iff]
  split
  · rename_i h
    simp [h]
  · rename_i h
    simp [h]

/-! ## What a step can do -/

/-- The store with settings under a new number. -/
def add (st : ProfileStore) (s : Settings) : ProfileStore :=
  { st with handed := st.handed ++ [s] }

/-- All that a step of the store can do. -/
inductive Step (st : ProfileStore) : Action → Answer → ProfileStore → Prop
  | list : Step st .list (.names Profile.names) st
  | clear : Step st .clear .done st.clear
  | change (n : Nat) (f : Settings → Settings) : Step st (.change n f) .done (st.change n f)
  | load {name : Text} {s : Settings} (hload : (Profile.loadBundled name).result = .ok s) :
      Step st (.load name) (.handed st.handed.length (some s)) (st.add s)
  | refuseLoad {name : Text} {f : Fault} (hload : (Profile.loadBundled name).result = .error f) :
      Step st (.load name) (.refused f) st
  | keep {name : Text} {n : Nat} (hknown : st.known? name = some n) :
      Step st (.get name true) (.handed n (st.settings? n)) st
  | get {name : Text} {useKept : Bool} {s : Settings}
      (hknown : useKept = true → st.known? name = none)
      (hload : (Profile.loadBundled name).result = .ok s) :
      Step st (.get name useKept) (.handed st.handed.length (some s))
        ((st.add s).keep name st.handed.length)
  | refuseGet {name : Text} {useKept : Bool} {f : Fault}
      (hknown : useKept = true → st.known? name = none)
      (hload : (Profile.loadBundled name).result = .error f) :
      Step st (.get name useKept) (.refused f) st

theorem settings?_add_length (st : ProfileStore) (s : Settings) :
    (st.add s).settings? st.handed.length = some s := List.getElem?_concat_length

variable {st st' : ProfileStore} {a : Action} {r : Answer}

theorem known?_keep (st : ProfileStore) (name name' : Text) (n : Nat) :
    (st.keep name n).known? name' = if name' = name then some n else st.known? name' := by
  by_cases h : name' = name
  · subst h
    simp [known?, keep]
  · have hne : ¬ name = name' := fun h' => h h'.symm
    simp only [known?, keep, List.find?_cons, hne, decide_false, if_neg h, List.find?_filter]
    congr 2
    funext p
    by_cases hp : p.1 = name'
    · simp [hp, h]
    · simp [hp]

/-- Settings that have been handed out are what they were, but for a change made to them. -/
theorem Step.settings? (hstep : Step st a r st') {n : Nat} {s : Settings} (h : st.settings? n = some s) :
    st'.settings? n = some (changed n s (a, r)) := by
  have hadd (s' : Settings) : (st.add s').settings? n = some s :=
    (List.getElem?_append_left (List.getElem?_eq_some_iff.mp h).1).trans h
  cases hstep with
  | list => exact h
  | clear => exact h
  | change m f =>
    rw [ProfileStore.settings?] at h
    rw [ProfileStore.settings?, ProfileStore.change, List.getElem?_modify, h]
    rfl
  | load => exact hadd _
  | refuseLoad => exact h
  | keep => exact h
  | get => exact hadd _
  | refuseGet => exact h

/-! ## The store agrees with the events -/

/-- A store agrees with events: it keeps the settings that were last got, and all settings
that were handed out are what they showed, with the changes made since. -/
structure Agrees (es : List Event) (st : ProfileStore) : Prop where
  known (name : Text) (n : Nat) : st.known? name = some n ↔ LastGot es name n
  shown (before : List Event) (a : Action) (n : Nat) (s : Option Settings) (after : List Event) :
    es = before ++ (a, .handed n s) :: after →
      ∃ s₀, s = some s₀ ∧ st.settings? n = some (after.foldl (changed n) s₀)

variable {es : List Event}

/-- A number that has been handed out is below those to come. -/
theorem Agrees.lt_of_mem (hes : Agrees es st) {n : Nat} {s : Option Settings}
    (h : (a, .handed n s) ∈ es) : n < st.handed.length := by
  obtain ⟨before, after, rfl⟩ := List.append_of_mem h
  obtain ⟨s₀, -, hs⟩ := hes.shown before a n s after rfl
  exact (List.getElem?_eq_some_iff.mp hs).1

/-- The settings that are kept for a name are still there. -/
theorem Agrees.exists_settings (hes : Agrees es st) {name : Text} {n : Nat}
    (h : st.known? name = some n) : ∃ s, st.settings? n = some s := by
  obtain ⟨before, e, after, rfl, ⟨useKept, s, rfl⟩, -⟩ := (hes.known name n).mp h
  obtain ⟨s₀, -, hs⟩ := hes.shown before _ n s after rfl
  exact ⟨_, hs⟩

/-- A step answers by the events before it. -/
theorem Step.answers (hstep : Step st a r st') (hes : Agrees es st) : Answers es a r := by
  -- All numbers that were handed out lie below the next one.
  have hnew (a : Action) (shown : Option Settings) : (a, Answer.handed st.handed.length shown) ∉ es :=
    fun h => Nat.lt_irrefl _ (hes.lt_of_mem h)
  have hmisses {name : Text} {useKept : Bool} {r : Answer} (hknown : useKept = true → st.known? name = none)
      (hloads : Loads es name r) : Answers es (.get name useKept) r := by
    cases useKept with
    | false => exact .reload hloads
    | true =>
      refine .misses (fun n hn => ?_) hloads
      exact nomatch (hknown rfl).symm.trans ((hes.known name n).mpr hn)
  cases hstep with
  | list => exact .list
  | clear => exact .clear
  | change m f => exact .change m f
  | load hload => exact .load (.handed hload hnew)
  | refuseLoad hload => exact .load (.refused hload)
  | keep hknown =>
    obtain ⟨s, hs⟩ := hes.exists_settings hknown
    rw [hs]
    exact .keeps ((hes.known _ _).mp hknown)
  | get hknown hload => exact hmisses hknown (.handed hload hnew)
  | refuseGet hknown hload => exact hmisses hknown (.refused hload)

/-- After a step, the settings that were last got are kept. -/
theorem Step.known (hstep : Step st a r st') (hes : Agrees es st) (name : Text) (n : Nat) :
    st'.known? name = some n ↔ LastGot (es ++ [(a, r)]) name n := by
  have hkept {a : Action} {r : Answer} (hclear : a ≠ .clear)
      (hgets : ∀ name m, ¬ Gets name m (a, r)) :
      st.known? name = some n ↔ LastGot (es ++ [(a, r)]) name n :=
    (hes.known name n).trans (lastGot_concat_of_not_gets hclear hgets).symm
  cases hstep with
  | list => exact hkept nofun nofun
  | clear =>
    refine ⟨nofun, fun h => ?_⟩
    rcases lastGot_concat.mp h with h | ⟨⟨h, -⟩, -⟩
    · exact nomatch h
    · exact absurd rfl h
  | change => exact hkept nofun nofun
  | load => exact hkept nofun nofun
  | refuseLoad => exact hkept nofun nofun
  | keep hknown =>
    rw [lastGot_concat_of_gets]
    split
    · rename_i h
      rw [h, hknown, Option.some_inj, eq_comm]
    · exact hes.known name n
  | get =>
    rw [known?_keep, lastGot_concat_of_gets]
    split
    · rw [Option.some_inj, eq_comm]
    · exact hes.known name n
  | refuseGet => exact hkept nofun nofun

/-- Settings that are handed out show what they are. -/
theorem Step.shown (hstep : Step st a r st') {n : Nat} {s : Option Settings} (h : r = .handed n s) :
    st'.settings? n = s := by
  cases hstep with
  | list => exact nomatch h
  | clear => exact nomatch h
  | change => exact nomatch h
  | load =>
    obtain ⟨rfl, rfl⟩ := Answer.handed.inj h
    exact settings?_add_length st _
  | refuseLoad => exact nomatch h
  | keep =>
    obtain ⟨rfl, rfl⟩ := Answer.handed.inj h
    rfl
  | get =>
    obtain ⟨rfl, rfl⟩ := Answer.handed.inj h
    exact settings?_add_length st _
  | refuseGet => exact nomatch h

end Worksheet.ProfileStore
