import Worksheet.Proofs.Json.Number
import Worksheet.Proofs.Json.Text

/-!
# JSON values are read as they were written

`Json.read?_write` reads a value again, in every style. The value has to be
`Json.Readable`: not nested too deep, with numbers that can be read and with different
names in each object.

Whatever follows a value, and whatever level it stands at, it is read up to its end
(`Json.Reads`): this is shown for lists and objects by induction on their elements and
members (`Json.Reads.list`, `Json.Reads.object`), and then for all values by induction on
`Json.Readable`.
-/

namespace Worksheet

theorem Members.put_of_not_mem {name : Text} {v : Json} {ms : Members} (h : name ∉ ms.map Prod.fst) :
    put name v ms = ms ++ [(name, v)] := by
  induction ms with
  | nil => rfl
  | cons m ms ih =>
    obtain ⟨n, w⟩ := m
    rw [List.map_cons, List.mem_cons, not_or] at h
    rw [put, if_neg (Ne.symm h.1), ih h.2, List.cons_append]

namespace Json

/-- A value that is read again as it was written: lists and objects that are not empty are
nested to at most `d` levels. -/
inductive Readable : (d : Nat) → Json → Prop
  | null {d} : Readable d .null
  | bool {d} (b : Bool) : Readable d (.bool b)
  | int {d} {i : Int} (h : i.natAbs < Nat.pow 10 wholeDigits) : Readable d (.int i)
  | real {d} {s : Bool} {m e : Nat} (h : Binary64.Canonical (.finite s m e)) :
      Readable d (.real (.finite s m e))
  | text {d} (t : Text) : Readable d (.text t)
  | nil {d} : Readable d (.list [])
  | list {d} {vs : List Json} (h : ∀ v ∈ vs, Readable d v) : Readable (d + 1) (.list vs)
  | empty {d} : Readable d (.object [])
  | object {d} {ms : Members} (hnames : (ms.map Prod.fst).Nodup) (h : ∀ m ∈ ms, Readable d m.2) :
    Readable (d + 1) (.object ms)

variable {s : JsonStyle} {t gaps rest : Text} {d fuel level outer : Nat} {v : Json}

/-! ## Blanks and what follows a value -/

theorem skip_cons {c : Char} (h : isGap c = false) : skip (c :: t) = c :: t :=
  List.dropWhile_cons_of_neg (by simp [h])

theorem skip_append (hgaps : ∀ c ∈ gaps, isGap c = true) : skip (gaps ++ t) = skip t :=
  List.dropWhile_append_of_pos hgaps

theorem ends_gaps_append (hgaps : ∀ c ∈ gaps, isGap c = true) (h : Ends t) : Ends (gaps ++ t) := by
  cases gaps with
  | nil => exact h
  | cons c gaps =>
    refine ends_cons ?_
    have hc := hgaps c (List.mem_cons_self ..)
    simp only [isGap, Bool.or_eq_true, beq_iff_eq] at hc
    rcases hc with ((rfl | rfl) | rfl) | rfl <;> decide

theorem isGap_newline (s : JsonStyle) (level : Nat) : ∀ c ∈ s.newline level, isGap c = true := by
  rw [JsonStyle.newline]
  split
  · exact nofun
  · intro c hc
    rcases List.mem_cons.mp hc with rfl | hc
    · rfl
    · rw [List.eq_of_mem_replicate hc]
      rfl

/-- A comma and a colon have only blanks behind them. -/
theorem exists_gaps_of_comma (s : JsonStyle) (level : Nat) :
    ∃ gaps, s.comma level = ',' :: gaps ∧ ∀ c ∈ gaps, isGap c = true := by
  refine ⟨_, rfl, fun c hc => ?_⟩
  rcases List.mem_append.mp hc with hc | hc
  · split at hc
    · rw [List.mem_singleton.mp hc]
      rfl
    · exact absurd hc nofun
  · exact isGap_newline s level c hc

theorem exists_gaps_of_colon (s : JsonStyle) :
    ∃ gaps, s.colon = ':' :: gaps ∧ ∀ c ∈ gaps, isGap c = true := by
  rw [JsonStyle.colon]
  split
  · refine ⟨[' '], rfl, fun c hc => ?_⟩
    rw [List.mem_singleton.mp hc]
    rfl
  · exact ⟨[], rfl, nofun⟩

/-! ## Values up to their ends -/

/-- A value is read up to its end from the text that is written for it, at every level and
before everything that may follow a number. -/
def Reads (s : JsonStyle) (d : Nat) (v : Json) : Prop :=
  ∀ (level fuel : Nat) (rest : Text), (s.writeAt level v).length ≤ fuel → Ends rest →
    readValue fuel d (s.writeAt level v ++ rest) = some (v, rest)

theorem readValue_of_readScalar? {r : Json × Text} (h : readScalar? t = some r) :
    readValue (fuel + 1) d t = some r := by
  have hne {c : Char} (hc : ∀ u, readScalar? (c :: u) = none) (u : Text) : t ≠ c :: u := by
    rintro rfl
    rw [hc u] at h
    exact absurd h nofun
  rw [readValue]
  · exact h
  · exact hne fun _ => rfl
  · exact hne fun _ => rfl
  · exact hne fun _ => rfl

/-- A value begins neither with a blank nor with the bracket that ends a list. -/
theorem start_of_readValue {r : Json × Text} (h : readValue fuel d t = some r) :
    skip t = t ∧ ∀ u, t ≠ ']' :: u := by
  have hne {c : Char} (hc : ∀ u, readValue fuel d (c :: u) = none) (u : Text) : t ≠ c :: u := by
    rintro rfl
    rw [hc u] at h
    exact absurd h nofun
  have hgap {c : Char} (hc : isGap c = true) (u : Text) : readValue fuel d (c :: u) = none := by
    simp only [isGap, Bool.or_eq_true, beq_iff_eq] at hc
    rcases hc with ((rfl | rfl) | rfl) | rfl <;> cases fuel <;> rfl
  refine ⟨?_, hne fun u => by cases fuel <;> rfl⟩
  cases t with
  | nil => rfl
  | cons c u =>
    refine skip_cons (Bool.eq_false_iff.mpr fun hc => ?_)
    exact hne (hgap hc) u rfl

theorem Reads.start (h : Reads s d v) (level : Nat) (hrest : Ends rest) :
    skip (s.writeAt level v ++ rest) = s.writeAt level v ++ rest ∧
      ∀ u, s.writeAt level v ++ rest ≠ ']' :: u :=
  start_of_readValue (h level _ rest (Nat.le_refl _) hrest)

theorem Reads.text (t : Text) : Reads s d (.text t) := by
  intro level fuel rest hfuel _
  obtain ⟨u, hu, hread⟩ := exists_of_quoted s t rest
  rw [JsonStyle.writeAt, JsonStyle.quoted] at hfuel
  obtain ⟨fuel, rfl⟩ := Nat.exists_eq_add_one.mpr (Nat.lt_of_lt_of_le (Nat.succ_pos _) hfuel)
  rw [JsonStyle.writeAt, hu, readValue, hread, Option.map_some]

/-! ## Lists -/

section Lists

variable {vs : List Json} {r u : Text}

theorem readElements_last (hvalue : readValue fuel d t = some (v, r)) (hend : skip r = ']' :: rest) :
    readElements (fuel + 1) d t = some ([v], rest) := by
  rw [readElements, hvalue, Option.bind_eq_bind, Option.bind_some]
  simp only [hend]
  rfl

theorem readElements_more (hvalue : readValue fuel d t = some (v, r)) (hcomma : skip r = ',' :: u)
    (hmore : readElements fuel d (skip u) = some (vs, rest)) :
    readElements (fuel + 1) d t = some (v :: vs, rest) := by
  rw [readElements, hvalue, Option.bind_eq_bind, Option.bind_some]
  simp only [hcomma, hmore]
  rfl

theorem readValue_list (hskip : skip t = u) (hopen : ∀ w, u ≠ ']' :: w)
    (helements : readElements fuel d u = some (vs, rest)) :
    readValue (fuel + 1) (d + 1) ('[' :: t) = some (.list vs, rest) := by
  subst hskip
  simp only [readValue, helements, Option.map_some]

/-- What follows an element: a comma, or the bracket that ends the list. -/
theorem ends_writeElements (s : JsonStyle) (level outer : Nat) (vs : List Json) (rest : Text) :
    Ends (s.writeElements level vs ++ (s.newline outer ++ ']' :: rest)) := by
  cases vs with
  | nil =>
    rw [JsonStyle.writeElements, List.nil_append]
    exact ends_gaps_append (isGap_newline s outer) (ends_cons (by decide))
  | cons v vs => exact ends_cons (by decide)

/-- The elements of a list are read, by induction on the list. -/
theorem readElements_writeElements (h : ∀ w ∈ v :: vs, Reads s d w)
    (hfuel : (s.writeAt level v ++ s.writeElements level vs).length < fuel) :
    readElements fuel d (s.writeAt level v ++ (s.writeElements level vs ++
      (s.newline outer ++ ']' :: rest))) = some (v :: vs, rest) := by
  induction vs generalizing v fuel with
  | nil =>
    obtain ⟨fuel, rfl⟩ := Nat.exists_eq_add_one.mpr (Nat.zero_lt_of_lt hfuel)
    rw [List.length_append] at hfuel
    have hv : Reads s d v := h v (List.mem_cons_self ..)
    refine readElements_last (hv level fuel _ (by omega) (ends_writeElements s level outer [] rest)) ?_
    rw [JsonStyle.writeElements, List.nil_append, skip_append (isGap_newline s outer), skip_cons rfl]
  | cons w vs ih =>
    obtain ⟨fuel, rfl⟩ := Nat.exists_eq_add_one.mpr (Nat.zero_lt_of_lt hfuel)
    obtain ⟨gaps, hcomma, hgaps⟩ := exists_gaps_of_comma s level
    rw [JsonStyle.writeElements, hcomma] at hfuel ⊢
    simp only [List.length_append, List.length_cons] at hfuel
    simp only [List.cons_append, List.append_assoc]
    have hstart := (h w (List.mem_cons_of_mem v (List.mem_cons_self ..))).start level
      (ends_writeElements s level outer vs rest)
    refine readElements_more (h v (List.mem_cons_self ..) level fuel _ (by omega) (ends_cons (by decide)))
      (skip_cons rfl) ?_
    rw [skip_append hgaps, hstart.1]
    refine ih (fun x hx => h x (List.mem_cons_of_mem v hx)) ?_
    rw [List.length_append]
    omega

end Lists

theorem Reads.nil : Reads s d (.list []) := by
  intro level fuel rest hfuel _
  obtain ⟨fuel, rfl⟩ := Nat.exists_eq_add_one.mpr (Nat.lt_of_lt_of_le (Nat.succ_pos 1) hfuel)
  rw [JsonStyle.writeAt, List.cons_append, readValue]
  exact skip_cons rfl

theorem Reads.list {vs : List Json} (h : ∀ w ∈ v :: vs, Reads s d w) : Reads s (d + 1) (.list (v :: vs)) := by
  intro level fuel rest hfuel _
  rw [JsonStyle.writeAt] at hfuel ⊢
  simp only [List.length_append, List.length_cons] at hfuel
  obtain ⟨fuel, rfl⟩ := Nat.exists_eq_add_one.mpr (Nat.lt_of_lt_of_le (Nat.succ_pos _) hfuel)
  obtain ⟨hskip, hopen⟩ := (h v (List.mem_cons_self ..)).start (level + 1)
    (ends_writeElements s (level + 1) level vs rest)
  simp only [List.cons_append, List.append_assoc, List.nil_append]
  refine readValue_list (by rw [skip_append (isGap_newline s _), hskip]) hopen ?_
  refine readElements_writeElements h ?_
  rw [List.length_append]
  omega

/-! ## Objects -/

section Objects

variable {ms before : Members} {name : Text} {r u w : Text}

theorem readMembers_last (hname : readText (t.length + 1) t = some (name, r)) (hcolon : skip r = ':' :: u)
    (hvalue : readValue fuel d (skip u) = some (v, w)) (hend : skip w = '\x7d' :: rest) :
    readMembers (fuel + 1) d before ('"' :: t) = some (before.put name v, rest) := by
  rw [readMembers, hname, Option.bind_eq_bind, Option.bind_some]
  simp only [hcolon, hvalue, Option.bind_eq_bind, Option.bind_some, hend]
  rfl

theorem readMembers_more (hname : readText (t.length + 1) t = some (name, r)) (hcolon : skip r = ':' :: u)
    (hvalue : readValue fuel d (skip u) = some (v, w)) {x : Text} (hcomma : skip w = ',' :: x) :
    readMembers (fuel + 1) d before ('"' :: t) = readMembers fuel d (before.put name v) (skip x) := by
  rw [readMembers, hname, Option.bind_eq_bind, Option.bind_some]
  simp only [hcolon, hvalue, Option.bind_eq_bind, Option.bind_some, hcomma]

theorem put_of_nodup (h : ((before ++ (name, v) :: ms).map Prod.fst).Nodup) :
    before.put name v = before ++ [(name, v)] := by
  rw [List.map_append, List.map_cons] at h
  exact Members.put_of_not_mem fun hmem => List.disjoint_of_nodup_append h hmem (List.mem_cons_self ..)

/-- A member up to the end of its value. -/
theorem exists_of_member (name : Text) (h : Reads s d v) (hfuel : (s.writeAt level v).length ≤ fuel)
    (hrest : Ends rest) :
    ∃ t r u, s.quoted name ++ (s.colon ++ (s.writeAt level v ++ rest)) = '"' :: t ∧
      readText (t.length + 1) t = some (name, r) ∧ skip r = ':' :: u ∧
      readValue fuel d (skip u) = some (v, rest) := by
  obtain ⟨t, ht, hname⟩ := exists_of_quoted s name (s.colon ++ (s.writeAt level v ++ rest))
  obtain ⟨gaps, hcolon, hgaps⟩ := exists_gaps_of_colon s
  refine ⟨t, _, gaps ++ (s.writeAt level v ++ rest), ht, hname, by rw [hcolon]; exact skip_cons rfl, ?_⟩
  rw [skip_append hgaps, (h.start level hrest).1]
  exact h level fuel rest hfuel hrest

/-- What follows a member: a comma, or the brace that ends the object. -/
theorem ends_writeMembers (s : JsonStyle) (level outer : Nat) (ms : Members) (rest : Text) :
    Ends (s.writeMembers level ms ++ (s.newline outer ++ '\x7d' :: rest)) := by
  cases ms with
  | nil =>
    rw [JsonStyle.writeMembers, List.nil_append]
    exact ends_gaps_append (isGap_newline s outer) (ends_cons (by decide))
  | cons m ms => exact ends_cons (by decide)

/-- The members of an object are read, by induction on the object; those that were read before
have other names. -/
theorem readMembers_writeMembers (h : ∀ m ∈ (name, v) :: ms, Reads s d m.2)
    (hnames : ((before ++ (name, v) :: ms).map Prod.fst).Nodup)
    (hfuel : (s.writeAt level v ++ s.writeMembers level ms).length < fuel) :
    readMembers fuel d before (s.quoted name ++ (s.colon ++ (s.writeAt level v ++
      (s.writeMembers level ms ++ (s.newline outer ++ '\x7d' :: rest))))) =
      some (before ++ (name, v) :: ms, rest) := by
  induction ms generalizing name v before fuel with
  | nil =>
    obtain ⟨fuel, rfl⟩ := Nat.exists_eq_add_one.mpr (Nat.zero_lt_of_lt hfuel)
    rw [List.length_append] at hfuel
    have hv : Reads s d v := h (name, v) (List.mem_cons_self ..)
    have hlength : (s.writeAt level v).length ≤ fuel := by omega
    obtain ⟨t, r, u, ht, hname, hcolon, hvalue⟩ :=
      exists_of_member name hv hlength (ends_writeMembers s level outer [] rest)
    have hend : skip (s.writeMembers level [] ++ (s.newline outer ++ '\x7d' :: rest)) = '\x7d' :: rest := by
      rw [JsonStyle.writeMembers, List.nil_append, skip_append (isGap_newline s outer), skip_cons rfl]
    rw [ht, readMembers_last hname hcolon hvalue hend, put_of_nodup hnames]
  | cons m ms ih =>
    obtain ⟨name', w⟩ := m
    obtain ⟨fuel, rfl⟩ := Nat.exists_eq_add_one.mpr (Nat.zero_lt_of_lt hfuel)
    obtain ⟨gaps, hcomma, hgaps⟩ := exists_gaps_of_comma s level
    rw [JsonStyle.writeMembers, hcomma] at hfuel ⊢
    simp only [List.length_append, List.length_cons] at hfuel
    simp only [List.cons_append, List.append_assoc]
    have hv : Reads s d v := h (name, v) (List.mem_cons_self ..)
    have hlength : (s.writeAt level v).length ≤ fuel := by omega
    have hcontinues : Ends (',' :: (gaps ++ (s.quoted name' ++ (s.colon ++ (s.writeAt level w ++
        (s.writeMembers level ms ++ (s.newline outer ++ '\x7d' :: rest))))))) := ends_cons (by decide)
    obtain ⟨t, r, u, ht, hname, hcolon, hvalue⟩ := exists_of_member name hv hlength hcontinues
    rw [ht, readMembers_more hname hcolon hvalue (skip_cons rfl), put_of_nodup hnames, skip_append hgaps]
    rw [List.append_cons before (name, v) ((name', w) :: ms)] at hnames ⊢
    refine ih (fun m hm => h m (List.mem_cons_of_mem _ hm)) hnames ?_
    rw [List.length_append]
    omega

theorem readValue_object (hmembers : readMembers fuel d [] ('"' :: u) = some (ms, rest))
    (hskip : skip t = '"' :: u) : readValue (fuel + 1) (d + 1) ('\x7b' :: t) = some (.object ms, rest) := by
  simp only [readValue, hskip]
  show Option.map _ (readMembers fuel d [] ('"' :: u)) = _
  rw [hmembers, Option.map_some]

theorem Reads.object (h : ∀ m ∈ (name, v) :: ms, Reads s d m.2)
    (hnames : (((name, v) :: ms).map Prod.fst).Nodup) :
    Reads s (d + 1) (.object ((name, v) :: ms)) := by
  intro level fuel rest hfuel _
  rw [JsonStyle.writeAt] at hfuel ⊢
  simp only [List.length_append, List.length_cons] at hfuel
  obtain ⟨fuel, rfl⟩ := Nat.exists_eq_add_one.mpr (Nat.lt_of_lt_of_le (Nat.succ_pos _) hfuel)
  simp only [List.cons_append, List.append_assoc, List.nil_append]
  obtain ⟨u, hu, -⟩ := exists_of_quoted s name (s.colon ++ (s.writeAt (level + 1) v ++
    (s.writeMembers (level + 1) ms ++ (s.newline level ++ '\x7d' :: rest))))
  have hmembers : readMembers fuel d [] ('"' :: u) = some ((name, v) :: ms, rest) := by
    rw [← hu]
    refine readMembers_writeMembers h hnames ?_
    rw [List.length_append]
    omega
  rw [hu]
  exact readValue_object hmembers (skip_append (isGap_newline s _))

theorem Reads.empty : Reads s d (.object []) := by
  intro level fuel rest hfuel _
  obtain ⟨fuel, rfl⟩ := Nat.exists_eq_add_one.mpr (Nat.lt_of_lt_of_le (Nat.succ_pos 1) hfuel)
  rw [JsonStyle.writeAt, List.cons_append, readValue]
  exact skip_cons rfl

end Objects

/-! ## All values -/

theorem Reads.of_readScalar? (h : ∀ (level : Nat) (rest : Text), Ends rest →
    readScalar? (s.writeAt level v ++ rest) = some (v, rest)) : Reads s d v := by
  intro level fuel rest hfuel hrest
  have hne : s.writeAt level v ≠ [] := fun hnil => by
    have hread := h level [] nofun
    rw [hnil] at hread
    exact absurd hread nofun
  obtain ⟨fuel, rfl⟩ := Nat.exists_eq_add_one.mpr
    (Nat.lt_of_lt_of_le (List.length_pos_iff.mpr hne) hfuel)
  exact readValue_of_readScalar? (h level rest hrest)

theorem Readable.reads (hs : s.floats.mostBefore ≤ wholeDigits) (h : Readable d v) : Reads s d v := by
  induction h with
  | null => exact .of_readScalar? fun _ _ _ => rfl
  | bool b => cases b <;> exact .of_readScalar? fun _ _ _ => rfl
  | int h => exact .of_readScalar? fun _ _ hrest => readScalar?_signedDecimal h hrest
  | real h => exact .of_readScalar? fun _ _ hrest => readScalar?_write s.floats hs h hrest
  | text t => exact .text t
  | nil => exact .nil
  | @list d vs h ih =>
    cases vs with
    | nil => exact .nil
    | cons v vs => exact .list ih
  | empty => exact .empty
  | @object d ms hnames h ih =>
    cases ms with
    | nil => exact .empty
    | cons m ms => exact .object ih hnames

/-- A value is read again from its text. -/
theorem read?_write (s : JsonStyle) (hs : s.floats.mostBefore ≤ wholeDigits) (h : Readable depthLimit v) :
    read? (s.write v) = some v := by
  have hreads := h.reads hs
  have hend : Ends [] := nofun
  have hstart := (hreads.start 0 hend).1
  have hread := hreads 0 (2 * (s.write v).length + 2) [] (by rw [JsonStyle.write]; omega) hend
  rw [List.append_nil] at hstart hread
  rw [read?, JsonStyle.write, hstart]
  rw [JsonStyle.write] at hread
  rw [hread]
  rfl

end Json

end Worksheet
