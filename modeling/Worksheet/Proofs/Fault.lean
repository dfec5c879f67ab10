import Mathlib.Data.List.Forall2
import Worksheet.Fault

/-!
# Operations that give a result

When operations with faults, one after another (`bind_eq_ok`) or one for each
element of a list (`mapM_eq_ok`), give a result as a whole, and which faults they can
have (`Faults`). An operation on a state has faults of a certain kind as long as it and
the operations before it keep an invariant (`Guards`).
-/

namespace Worksheet

variable {σ ε α β : Type}

theorem bind_eq_ok {x : Except ε α} {f : α → Except ε β} {b : β} :
    x >>= f = .ok b ↔ ∃ a, x = .ok a ∧ f a = .ok b := by
  cases x with
  | error e => exact ⟨nofun, fun ⟨_, h, _⟩ => nomatch h⟩
  | ok a =>
    constructor
    · intro h
      exact ⟨a, rfl, h⟩
    · rintro ⟨a, h, hb⟩
      obtain rfl := Except.ok.inj h
      exact hb

theorem exists_eq_ok_of_isOk {x : Except ε α} (h : x.isOk = true) : ∃ a, x = .ok a := by
  cases x with
  | error e => exact nomatch h
  | ok a => exact ⟨a, rfl⟩

theorem exists_bind_eq_ok_iff {x : Except ε α} {f : α → Except ε β} :
    (∃ b, x >>= f = .ok b) ↔ ∃ a, x = .ok a ∧ ∃ b, f a = .ok b := by
  simp only [bind_eq_ok]
  rw [exists_comm]
  simp only [exists_and_left]

theorem mapM_eq_ok {f : α → Except ε β} {as : List α} {bs : List β} :
    as.mapM f = .ok bs ↔ List.Forall₂ (fun a b => f a = .ok b) as bs := by
  induction as generalizing bs with
  | nil =>
    rw [List.mapM_nil, List.forall₂_nil_left_iff]
    exact ⟨fun h => (Except.ok.inj h).symm, fun h => h ▸ rfl⟩
  | cons a as ih =>
    rw [List.mapM_cons, bind_eq_ok, List.forall₂_cons_left_iff]
    constructor
    · rintro ⟨b, hb, h⟩
      obtain ⟨bs', hbs, h⟩ := bind_eq_ok.mp h
      exact ⟨b, bs', hb, ih.mp hbs, (Except.ok.inj h).symm⟩
    · rintro ⟨b, bs', hb, hbs, rfl⟩
      exact ⟨b, hb, bind_eq_ok.mpr ⟨bs', ih.mpr hbs, rfl⟩⟩

/-- Every result comes from an element. -/
theorem exists_of_mem_mapM {f : α → Except ε β} {as : List α} {bs : List β} (h : as.mapM f = .ok bs)
    {b : β} (hb : b ∈ bs) : ∃ a ∈ as, f a = .ok b := by
  have hall := mapM_eq_ok.mp h
  clear h
  induction hall with
  | nil => exact absurd hb List.not_mem_nil
  | cons hab _ ih =>
    rcases List.mem_cons.mp hb with rfl | hb
    · exact ⟨_, List.mem_cons_self, hab⟩
    · obtain ⟨a, ha, h⟩ := ih hb
      exact ⟨a, List.mem_cons_of_mem _ ha, h⟩

/-- There is a result as a whole if and only if there is one for every element. -/
theorem exists_mapM_eq_ok_iff {f : α → Except ε β} {as : List α} :
    (∃ bs, as.mapM f = .ok bs) ↔ ∀ a ∈ as, ∃ b, f a = .ok b := by
  induction as with
  | nil => exact ⟨fun _ _ ha => absurd ha List.not_mem_nil, fun _ => ⟨[], rfl⟩⟩
  | cons a as ih =>
    rw [List.forall_mem_cons, ← ih]
    constructor
    · rintro ⟨bs, h⟩
      obtain ⟨b, bs, hb, hbs, -⟩ := List.forall₂_cons_left_iff.mp (mapM_eq_ok.mp h)
      exact ⟨⟨b, hb⟩, bs, mapM_eq_ok.mpr hbs⟩
    · rintro ⟨⟨b, hb⟩, bs, hbs⟩
      exact ⟨b :: bs, mapM_eq_ok.mpr (.cons hb (mapM_eq_ok.mp hbs))⟩

/-- There are no results if and only if there are no elements. -/
theorem nil_iff_of_mapM_eq_ok {f : α → Except ε β} {as : List α} {bs : List β}
    (h : as.mapM f = .ok bs) : bs = [] ↔ as = [] := by
  rw [← List.length_eq_zero_iff, ← (mapM_eq_ok.mp h).length_eq, List.length_eq_zero_iff]

/-- Where every single result is given by a function under a condition, so is
the list of results. -/
theorem mapM_eq_ok_map {f : α → Except ε β} {P : α → Prop} {g : α → β}
    (h : ∀ a b, f a = .ok b ↔ P a ∧ b = g a) {as : List α} {bs : List β} :
    as.mapM f = .ok bs ↔ (∀ a ∈ as, P a) ∧ bs = as.map g := by
  rw [mapM_eq_ok]
  induction as generalizing bs with
  | nil => rw [List.forall₂_nil_left_iff]; simp
  | cons a as ih =>
    rw [List.forall₂_cons_left_iff, List.forall_mem_cons, List.map_cons]
    constructor
    · rintro ⟨b, bs, hb, hbs, rfl⟩
      obtain ⟨ha, rfl⟩ := (h a b).mp hb
      obtain ⟨has, rfl⟩ := ih.mp hbs
      exact ⟨⟨ha, has⟩, rfl⟩
    · rintro ⟨⟨ha, has⟩, rfl⟩
      exact ⟨g a, as.map g, (h a _).mpr ⟨ha, rfl⟩, ih.mpr ⟨has, rfl⟩, rfl⟩

/-! ## Faults -/

/-- All faults that an operation can have are of a certain kind. -/
def Faults (P : ε → Prop) (x : Except ε α) : Prop := ∀ e, x = .error e → P e

variable {P : ε → Prop}

theorem faults_ok (a : α) : Faults P (.ok a : Except ε α) := nofun

theorem faults_pure (a : α) : Faults P (pure a : Except ε α) := nofun

theorem faults_error {e : ε} (h : P e) : Faults P (.error e : Except ε α) := by
  rintro _ ⟨⟩
  exact h

theorem faults_throw {e : ε} (h : P e) : Faults P (throw e : Except ε α) := faults_error h

theorem Faults.bind {x : Except ε α} {f : α → Except ε β} (hx : Faults P x)
    (hf : ∀ a, x = .ok a → Faults P (f a)) : Faults P (x >>= f) := by
  cases x with
  | error e => exact faults_error (hx e rfl)
  | ok a => exact hf a rfl

theorem faults_ite {c : Prop} [Decidable c] {x y : Except ε α} (hx : Faults P x) (hy : Faults P y) :
    Faults P (if c then x else y) := by
  split
  · exact hx
  · exact hy

theorem faults_guard {c : Prop} [Decidable c] {e : ε} (h : P e) {x : Except ε α} (hx : Faults P x) :
    Faults P (if c then (throw e : Except ε PUnit) >>= fun _ => x else x) :=
  faults_ite (faults_error h) hx

theorem Faults.map {x : Except ε α} (hx : Faults P x) (f : α → β) : Faults P (f <$> x) := by
  cases x with
  | error e => exact faults_error (hx e rfl)
  | ok a => exact faults_ok (f a)

theorem Faults.mono {Q : ε → Prop} {x : Except ε α} (hx : Faults P x) (h : ∀ e, P e → Q e) :
    Faults Q x :=
  fun e he => h e (hx e he)

theorem faults_mapM {f : α → Except ε β} {as : List α} (h : ∀ a ∈ as, Faults P (f a)) :
    Faults P (as.mapM f) := by
  induction as with
  | nil => exact faults_pure []
  | cons a as ih =>
    rw [List.mapM_cons]
    exact (h a List.mem_cons_self).bind fun b _ =>
      (ih fun a ha => h a (List.mem_cons_of_mem _ ha)).bind fun bs _ => faults_pure (b :: bs)

theorem faults_foldlM {f : β → α → Except ε β} (h : ∀ b a, Faults P (f b a)) (as : List α) (b : β) :
    Faults P (as.foldlM f b) := by
  induction as generalizing b with
  | nil => exact faults_pure b
  | cons a as ih =>
    rw [List.foldlM_cons]
    exact (h b a).bind fun b _ => ih b

/-! ## Operations on a state -/

/-- An operation on a state keeps an invariant, under which all its faults are of a certain
kind. -/
structure Guards (I : σ → Prop) (P : ε → Prop) (x : StateT σ (Except ε) α) : Prop where
  faults {s : σ} : I s → Faults P (x.run s)
  keeps {s : σ} : I s → ∀ a s', x.run s = .ok (a, s') → I s'

variable {I : σ → Prop}

theorem guards_pure (a : α) : Guards I P (pure a : StateT σ (Except ε) α) where
  faults _ := faults_pure _
  keeps hs _ _ h := by
    obtain ⟨-, rfl⟩ := Prod.mk.inj (Except.ok.inj h)
    exact hs

theorem guards_throw {e : ε} (h : P e) : Guards I P (throw e : StateT σ (Except ε) α) where
  faults _ := faults_error h
  keeps _ _ _ := nofun

theorem Guards.bind {x : StateT σ (Except ε) α} {f : α → StateT σ (Except ε) β} (hx : Guards I P x)
    (hf : ∀ a, Guards I P (f a)) : Guards I P (x >>= f) where
  faults {s} hs := (hx.faults hs).bind fun p hp => (hf p.1).faults (hx.keeps hs _ _ hp)
  keeps {s} hs b t h := by
    obtain ⟨⟨a, s'⟩, hx', hf'⟩ := bind_eq_ok.mp h
    exact (hf a).keeps (hx.keeps hs _ _ hx') _ _ hf'

theorem guards_modifyGet {f : σ → α × σ} (h : ∀ s, I s → I (f s).2) :
    Guards I P (modifyGet f : StateT σ (Except ε) α) where
  faults _ := faults_pure _
  keeps hs _ _ h' := by
    obtain ⟨-, rfl⟩ := Prod.mk.inj (Except.ok.inj h')
    exact h _ hs

theorem guards_modify {f : σ → σ} (h : ∀ s, I s → I (f s)) :
    Guards I P (modify f : StateT σ (Except ε) PUnit) :=
  guards_modifyGet h

/-- What follows on looking at the state may rely on the invariant. -/
theorem guards_get_bind {f : σ → StateT σ (Except ε) α} (h : ∀ s, I s → Guards I P (f s)) :
    Guards I P (get >>= f) where
  faults hs := (h _ hs).faults hs
  keeps hs a s' := (h _ hs).keeps hs a s'

theorem guards_lift {x : Except ε α} (h : Faults P x) :
    Guards I P (liftM x : StateT σ (Except ε) α) where
  faults _ := h.bind fun _ _ => faults_pure _
  keeps hs a s' h' := by
    obtain ⟨b, -, h'⟩ := bind_eq_ok.mp h'
    obtain ⟨-, rfl⟩ := Prod.mk.inj (Except.ok.inj h')
    exact hs

theorem guards_ite {c : Prop} [Decidable c] {x y : StateT σ (Except ε) α} (hx : Guards I P x)
    (hy : Guards I P y) : Guards I P (if c then x else y) := by
  split
  · exact hx
  · exact hy

theorem guards_mapM {f : α → StateT σ (Except ε) β} (h : ∀ a, Guards I P (f a)) (as : List α) :
    Guards I P (as.mapM f) := by
  induction as with
  | nil => exact guards_pure _
  | cons a as ih =>
    rw [List.mapM_cons]
    exact (h a).bind fun _ => ih.bind fun _ => guards_pure _

theorem guards_forM {f : α → StateT σ (Except ε) PUnit} (h : ∀ a, Guards I P (f a)) (as : List α) :
    Guards I P (as.forM f) := by
  induction as with
  | nil => exact guards_pure _
  | cons a as ih => exact (h a).bind fun _ => ih

end Worksheet
