import Worksheet.Pattern

/-!
# What a pattern reads

`Pattern.ends` lists places, with offsets and spans. Here a pattern is given by
the texts that it reads as a whole (`Pattern.Reads`), with the texts of its
groups:

* `ends_sound`, `ends_complete`: the places where a reading can end are those
  behind the texts that the pattern reads;
* `matchAt_eq_some`, `matchAt_eq_none_iff`: what is read at one place;
* `find?_eq_some`, `find?_eq_none_iff`: the first place of a text that has a
  reading;
* `mem_scan`: all readings from left to right.
-/

namespace Worksheet

/-- The texts of the groups of a place, in a text that starts at offset `n`. -/
def Cursor.texts (n : Nat) (t : Text) (k : Cursor) : List Text :=
  k.groups.map fun g => Text.slice t (g.1 - n) (g.2 - n)

/-- A place lies in a text that starts at offset `n`. -/
def Cursor.Within (n : Nat) (t : Text) (k : Cursor) : Prop :=
  ∃ x, t = x ++ k.rest ∧ k.offset = n + x.length

theorem Text.slice_append (x u v : Text) :
    Text.slice (x ++ (u ++ v)) x.length (x.length + u.length) = u := by
  rw [Text.slice, ← List.append_assoc, List.take_left' (by simp), List.drop_left]

namespace Cursor

theorem Within.step {n : Nat} {t u v : Text} {k : Cursor} (h : k.Within n t) (hk : k.rest = u ++ v)
    (gs : List (Nat × Nat)) : Cursor.Within n t ⟨k.offset + u.length, v, gs⟩ := by
  obtain ⟨x, hx, ho⟩ := h
  refine ⟨x ++ u, ?_, ?_⟩
  · simp only [hx, hk, List.append_assoc]
  · simp only [ho, List.length_append]
    omega

/-- The text that was read between two places. -/
theorem Within.slice {n : Nat} {t u v : Text} {k : Cursor} (h : k.Within n t) (hk : k.rest = u ++ v) :
    Text.slice t (k.offset - n) (k.offset + u.length - n) = u := by
  obtain ⟨x, hx, ho⟩ := h
  rw [ho, hx, hk, show n + x.length - n = x.length by omega,
    show n + x.length + u.length - n = x.length + u.length by omega, Text.slice_append]

theorem mem_run {p : Char → Bool} {gs : List (Nat × Nat)} {e : Cursor} {n : Nat} {t : Text} :
    e ∈ run p gs n t ↔ ∃ u v, t = u ++ v ∧ (∀ c ∈ u, p c = true) ∧ e = ⟨n + u.length, v, gs⟩ := by
  induction t generalizing n with
  | nil =>
    simp only [run, List.mem_singleton]
    constructor
    · rintro rfl
      exact ⟨[], [], rfl, by simp, rfl⟩
    · rintro ⟨u, v, h, -, rfl⟩
      obtain ⟨rfl, rfl⟩ := List.append_eq_nil_iff.mp h.symm
      rfl
  | cons c cs ih =>
    simp only [run, List.mem_cons]
    constructor
    · rintro (rfl | h)
      · exact ⟨[], c :: cs, rfl, by simp, rfl⟩
      · split at h
        · rename_i hc
          obtain ⟨u, v, rfl, hu, rfl⟩ := ih.mp h
          refine ⟨c :: u, v, rfl, ?_, ?_⟩
          · simpa using ⟨hc, hu⟩
          · simp only [List.length_cons, Nat.add_assoc, Nat.add_comm 1]
        · simp at h
    · rintro ⟨u, v, h, hu, rfl⟩
      cases u with
      | nil =>
        obtain rfl := (h : c :: cs = v)
        exact .inl rfl
      | cons d u =>
        obtain ⟨rfl, rfl⟩ := List.cons_eq_cons.mp h
        rw [if_pos (hu _ List.mem_cons_self)]
        refine .inr (ih.mpr ⟨u, v, rfl, fun b hb => hu b (List.mem_cons_of_mem _ hb), ?_⟩)
        simp only [List.length_cons, Nat.add_assoc, Nat.add_comm 1]

end Cursor

namespace Pattern

/-- The pattern reads the whole of a text, and its groups read the given
texts. -/
def Reads : Pattern → Text → List Text → Prop
  | empty, t, gs => t = [] ∧ gs = []
  | char p, t, gs => (∃ c, p c = true ∧ t = [c]) ∧ gs = []
  | seq a b, t, gs => ∃ u v hs is, a.Reads u hs ∧ b.Reads v is ∧ t = u ++ v ∧ gs = hs ++ is
  | either a b, t, gs => a.Reads t gs ∨ b.Reads t gs
  | most p, t, gs => (∀ c ∈ t, p c = true) ∧ gs = []
  | fewest p, t, gs => (∀ c ∈ t, p c = true) ∧ gs = []
  | group a, t, gs => ∃ hs, a.Reads t hs ∧ gs = hs ++ [t]

/-! ## The places where a reading ends -/

theorem texts_append (n : Nat) (t : Text) (k : Cursor) (o : Nat) (v : Text) (g : Nat × Nat) :
    Cursor.texts n t ⟨o, v, k.groups ++ [g]⟩ = k.texts n t ++ [Text.slice t (g.1 - n) (g.2 - n)] := by
  simp [Cursor.texts]

/-- Every place where a reading can end lies behind a text that the pattern
reads. -/
theorem ends_sound {p : Pattern} {n : Nat} {t : Text} {k e : Cursor} (hk : k.Within n t)
    (he : e ∈ p.ends k) :
    ∃ u gs, p.Reads u gs ∧ k.rest = u ++ e.rest ∧ e.offset = k.offset + u.length ∧
      e.texts n t = k.texts n t ++ gs := by
  induction p generalizing k e with
  | empty =>
    obtain rfl := List.mem_singleton.mp he
    exact ⟨[], [], ⟨rfl, rfl⟩, rfl, rfl, by simp⟩
  | char p =>
    simp only [ends, Cursor.next?] at he
    split at he
    · simp at he
    · rename_i c cs hr
      split at he
      · rename_i hc
        obtain rfl := List.mem_singleton.mp he
        exact ⟨[c], [], ⟨⟨c, hc, rfl⟩, rfl⟩, hr, rfl, by simp [Cursor.texts]⟩
      · simp at he
  | seq a b iha ihb =>
    simp only [ends, List.mem_flatMap] at he
    obtain ⟨m, hm, he⟩ := he
    obtain ⟨u, hs, hu, hr, ho, ht⟩ := iha hk hm
    have hmw : m.Within n t := by
      have := hk.step hr m.groups
      rwa [← ho] at this
    obtain ⟨v, is, hv, hr', ho', ht'⟩ := ihb hmw he
    refine ⟨u ++ v, hs ++ is, ⟨u, v, hs, is, hu, hv, rfl, rfl⟩, ?_, ?_, ?_⟩
    · rw [hr, hr', List.append_assoc]
    · rw [ho', ho, List.length_append, Nat.add_assoc]
    · rw [ht', ht, List.append_assoc]
  | either a b iha ihb =>
    rcases List.mem_append.mp he with h | h
    · obtain ⟨u, gs, hu, h⟩ := iha hk h
      exact ⟨u, gs, .inl hu, h⟩
    · obtain ⟨u, gs, hu, h⟩ := ihb hk h
      exact ⟨u, gs, .inr hu, h⟩
  | most p =>
    obtain ⟨u, v, hr, hu, rfl⟩ := Cursor.mem_run.mp (List.mem_reverse.mp he)
    exact ⟨u, [], ⟨hu, rfl⟩, hr, rfl, by simp [Cursor.texts]⟩
  | fewest p =>
    obtain ⟨u, v, hr, hu, rfl⟩ := Cursor.mem_run.mp he
    exact ⟨u, [], ⟨hu, rfl⟩, hr, rfl, by simp [Cursor.texts]⟩
  | group a ih =>
    simp only [ends, List.mem_map] at he
    obtain ⟨m, hm, rfl⟩ := he
    obtain ⟨u, hs, hu, hr, ho, ht⟩ := ih hk hm
    refine ⟨u, hs ++ [u], ⟨hs, hu, rfl⟩, hr, ho, ?_⟩
    rw [texts_append, ho, hk.slice hr, show Cursor.texts n t m = _ from ht, List.append_assoc]

/-- Behind every text that the pattern reads there is a place where a reading
can end. -/
theorem ends_complete {p : Pattern} {n : Nat} {t u v : Text} {gs : List Text} {k : Cursor}
    (hk : k.Within n t) (hu : p.Reads u gs) (hr : k.rest = u ++ v) :
    ∃ e ∈ p.ends k, e.rest = v ∧ e.offset = k.offset + u.length ∧
      e.texts n t = k.texts n t ++ gs := by
  induction p generalizing k u v gs with
  | empty =>
    obtain ⟨rfl, rfl⟩ := hu
    exact ⟨k, List.mem_singleton_self k, hr, rfl, by simp⟩
  | char p =>
    obtain ⟨⟨c, hc, rfl⟩, rfl⟩ := hu
    refine ⟨⟨k.offset + 1, v, k.groups⟩, ?_, rfl, rfl, by simp [Cursor.texts]⟩
    simp only [ends, Cursor.next?, hr, List.singleton_append, if_pos hc, List.mem_singleton]
  | seq a b iha ihb =>
    obtain ⟨u, w, hs, is, hu, hw, rfl, rfl⟩ := hu
    rw [List.append_assoc] at hr
    obtain ⟨m, hm, hmr, hmo, hmt⟩ := iha hk hu hr
    have hmw : m.Within n t := by
      have := hk.step hr m.groups
      rwa [← hmr, ← hmo] at this
    obtain ⟨e, he, her, heo, het⟩ := ihb hmw hw hmr
    refine ⟨e, List.mem_flatMap.mpr ⟨m, hm, he⟩, her, ?_, ?_⟩
    · rw [heo, hmo, List.length_append, Nat.add_assoc]
    · rw [het, hmt, List.append_assoc]
  | either a b iha ihb =>
    rcases hu with hu | hu
    · obtain ⟨e, he, h⟩ := iha hk hu hr
      exact ⟨e, List.mem_append_left _ he, h⟩
    · obtain ⟨e, he, h⟩ := ihb hk hu hr
      exact ⟨e, List.mem_append_right _ he, h⟩
  | most p =>
    obtain ⟨hu, rfl⟩ := hu
    refine ⟨⟨k.offset + u.length, v, k.groups⟩, ?_, rfl, rfl, by simp [Cursor.texts]⟩
    exact List.mem_reverse.mpr (Cursor.mem_run.mpr ⟨u, v, hr, hu, rfl⟩)
  | fewest p =>
    obtain ⟨hu, rfl⟩ := hu
    exact ⟨⟨k.offset + u.length, v, k.groups⟩, Cursor.mem_run.mpr ⟨u, v, hr, hu, rfl⟩, rfl, rfl,
      by simp [Cursor.texts]⟩
  | group a ih =>
    obtain ⟨hs, hu, rfl⟩ := hu
    obtain ⟨m, hm, hmr, hmo, hmt⟩ := ih hk hu hr
    refine ⟨_, List.mem_map.mpr ⟨m, hm, rfl⟩, hmr, hmo, ?_⟩
    rw [texts_append, hmo, hk.slice hr, show Cursor.texts n t m = _ from hmt, List.append_assoc]

/-! ## Reading at one place -/

/-- What is read at a place is a text that the pattern reads. -/
theorem matchAt_eq_some {p : Pattern} {n : Nat} {t : Text} {m : Match} (h : p.matchAt n t = some m) :
    m.start = n ∧ m.text <+: t ∧ p.Reads m.text m.groups := by
  simp only [matchAt, Option.map_eq_some_iff] at h
  obtain ⟨e, he, rfl⟩ := h
  have hk : Cursor.Within n t ⟨n, t, []⟩ := ⟨[], rfl, rfl⟩
  obtain ⟨u, gs, hu, hr, ho, ht⟩ := ends_sound hk (List.mem_of_mem_head? he)
  have hr' : t = u ++ e.rest := hr
  have ho' : e.offset - n = u.length := by
    rw [ho]
    exact Nat.add_sub_cancel_left ..
  have htake : t.take (e.offset - n) = u := by rw [ho', hr', List.take_left]
  refine ⟨rfl, ⟨e.rest, by rw [htake, hr']⟩, ?_⟩
  have hgs : (e.groups.map fun g => Text.slice t (g.1 - n) (g.2 - n)) = gs := by
    have := ht
    simpa [Cursor.texts] using this
  rw [htake, hgs]
  exact hu

/-- Nothing is read at a place if and only if no text there is one that the
pattern reads. -/
theorem matchAt_eq_none_iff {p : Pattern} {n : Nat} {t : Text} :
    p.matchAt n t = none ↔ ∀ u gs, p.Reads u gs → ¬ u <+: t := by
  constructor
  · rintro h u gs hu ⟨v, rfl⟩
    have hk : Cursor.Within n (u ++ v) ⟨n, u ++ v, []⟩ := ⟨[], rfl, rfl⟩
    obtain ⟨e, he, -⟩ := ends_complete hk hu rfl
    simp only [matchAt, Option.map_eq_none_iff, List.head?_eq_none_iff] at h
    rw [h] at he
    exact List.not_mem_nil he
  · intro h
    cases hm : p.matchAt n t with
    | none => rfl
    | some m =>
      obtain ⟨-, ht, hu⟩ := matchAt_eq_some hm
      exact absurd ht (h _ _ hu)

/-! ## The first reading in a text -/

/-- The first reading in a text: no text that the pattern reads starts before
it. -/
theorem findFrom_eq_some {p : Pattern} {n : Nat} {t : Text} {m : Match}
    (h : p.findFrom n t = some m) :
    ∃ i, i ≤ t.length ∧ m.start = n + i ∧ m.text <+: t.drop i ∧ p.Reads m.text m.groups ∧
      ∀ j < i, ∀ u gs, p.Reads u gs → ¬ u <+: t.drop j := by
  induction t generalizing n with
  | nil =>
    obtain ⟨hs, ht, hu⟩ := matchAt_eq_some (p := p) (n := n) h
    exact ⟨0, Nat.le_refl _, hs, ht, hu, by simp⟩
  | cons c cs ih =>
    simp only [findFrom] at h
    split at h
    · rename_i hm
      obtain rfl := Option.some.inj h
      obtain ⟨hs, ht, hu⟩ := matchAt_eq_some hm
      exact ⟨0, Nat.zero_le _, hs, ht, hu, by simp⟩
    · rename_i hm
      obtain ⟨i, hi, hs, ht, hu, hmin⟩ := ih h
      refine ⟨i + 1, by simpa using hi, by omega, by simpa using ht, hu, fun j hj u gs hr => ?_⟩
      cases j with
      | zero => exact matchAt_eq_none_iff.mp hm u gs hr
      | succ j => simpa using hmin j (by omega) u gs hr

theorem findFrom_eq_none_iff {p : Pattern} {n : Nat} {t : Text} :
    p.findFrom n t = none ↔ ∀ j ≤ t.length, ∀ u gs, p.Reads u gs → ¬ u <+: t.drop j := by
  induction t generalizing n with
  | nil =>
    rw [findFrom, matchAt_eq_none_iff]
    simp
  | cons c cs ih =>
    simp only [findFrom]
    constructor
    · intro h j hj u gs hr
      split at h
      · simp at h
      · rename_i hm
        cases j with
        | zero => exact matchAt_eq_none_iff.mp hm u gs hr
        | succ j => simpa using ih.mp h j (by simpa using hj) u gs hr
    · intro h
      have hm : p.matchAt n (c :: cs) = none :=
        matchAt_eq_none_iff.mpr fun u gs hr => h 0 (Nat.zero_le _) u gs hr
      rw [hm]
      exact ih.mpr fun j hj u gs hr => by simpa using h (j + 1) (by simpa using hj) u gs hr

/-- The first reading in a text: it starts where the text has one, and nowhere
before. -/
theorem find?_eq_some {p : Pattern} {t : Text} {m : Match} (h : p.find? t = some m) :
    m.start ≤ t.length ∧ m.text <+: t.drop m.start ∧ p.Reads m.text m.groups ∧
      ∀ j < m.start, ∀ u gs, p.Reads u gs → ¬ u <+: t.drop j := by
  obtain ⟨i, hi, hs, h⟩ := findFrom_eq_some h
  rw [Nat.zero_add] at hs
  rw [hs]
  exact ⟨hi, h⟩

/-- A text that starts at some place of another one occurs in it. -/
theorem infix_of_prefix_drop {u t : Text} {j : Nat} (h : u <+: t.drop j) : u <:+: t :=
  h.isInfix.trans (List.drop_suffix j t).isInfix

theorem exists_drop_of_infix {u t : Text} (h : u <:+: t) : ∃ j ≤ t.length, u <+: t.drop j := by
  obtain ⟨x, y, rfl⟩ := h
  refine ⟨x.length, ?_, ?_⟩
  · simp only [List.length_append]
    omega
  · rw [List.append_assoc, List.drop_left]
    exact List.prefix_append u y

theorem find?_eq_none_iff {p : Pattern} {t : Text} :
    p.find? t = none ↔ ∀ u gs, p.Reads u gs → ¬ u <:+: t := by
  rw [find?, findFrom_eq_none_iff]
  constructor
  · intro h u gs hu hi
    obtain ⟨j, hj, hpre⟩ := exists_drop_of_infix hi
    exact h j hj u gs hu hpre
  · intro h j _ u gs hu hpre
    exact h u gs hu (infix_of_prefix_drop hpre)

/-! ## All readings in a text -/

theorem mem_scanFrom {p : Pattern} {skip n : Nat} {t : Text} {m : Match}
    (h : m ∈ p.scanFrom skip n t) :
    ∃ i, m.start = n + i ∧ m.text <+: t.drop i ∧ p.Reads m.text m.groups := by
  induction t generalizing skip n with
  | nil => exact absurd h (by rw [scanFrom]; exact List.not_mem_nil)
  | cons c cs ih =>
    have later {skip : Nat} (h : m ∈ p.scanFrom skip (n + 1) cs) :
        ∃ i, m.start = n + i ∧ m.text <+: (c :: cs).drop i ∧ p.Reads m.text m.groups := by
      obtain ⟨i, hs, ht, hu⟩ := ih h
      exact ⟨i + 1, by omega, ht, hu⟩
    cases skip with
    | succ skip => exact later h
    | zero =>
      rw [scanFrom] at h
      split at h
      · exact later h
      · rename_i m' hm
        split at h
        · exact later h
        · rcases List.mem_cons.mp h with rfl | h
          · exact ⟨0, matchAt_eq_some hm⟩
          · exact later h

/-- Every reading of a scan starts where it says that it does. -/
theorem mem_scan {p : Pattern} {t : Text} {m : Match} (h : m ∈ p.scan t) :
    m.text <+: t.drop m.start ∧ p.Reads m.text m.groups := by
  obtain ⟨i, hs, h⟩ := mem_scanFrom h
  rw [Nat.zero_add] at hs
  rw [hs]
  exact h

end Pattern

end Worksheet
