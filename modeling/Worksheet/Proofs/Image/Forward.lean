import Worksheet.Proofs.Image.Reading
import Worksheet.Proofs.Image.Span

/-!
# Image tags read from left to right

The pattern for image tags tries many ways to divide a text, but the first way to read a
tag decides. `Image.forward?` reads a tag without ever going back: behind `<img` and a
white space character it looks for the first place of the attribute, then for the next
quote, and then for the next `>`.

* `forward?_eq_some_iff`: what is read so is a tag with its first front, its source and its
  tail, which is all that the pattern reads (`matchAt_eq_forward?`);
* `all_eq_forwardFrom`: the images of a text are those that a search finds which reads this
  way at every place.
-/

namespace Worksheet

namespace Text

/-! ## Steps to the right -/

/-- What is left of a text behind another one at its front, which may have any case. -/
def behind? : Text → Text → Option Text
  | t, [] => some t
  | [], _ :: _ => none
  | c :: t, a :: x => if isLetter a c then behind? t x else none

/-- What is left of a text behind the first place of another one, which may have any case,
if no `>` stands in front of it. -/
def behindFirst? : Text → Text → Option Text
  | [], x => behind? [] x
  | c :: t, x =>
    match behind? (c :: t) x with
    | some r => some r
    | none => if c = '>' then none else behindFirst? t x

/-- The parts of a text in front of the first place of a character and behind it. -/
def cutAt? : Text → Char → Option (Text × Text)
  | [], _ => none
  | c :: t, x => if c = x then some ([], t) else (cutAt? t x).map fun (u, r) => (c :: u, r)

theorem behind?_eq_some_iff {t x r : Text} :
    t.behind? x = some r ↔ ∃ n : Text, t = n ++ r ∧ n.Spells x := by
  induction x generalizing t with
  | nil =>
    rw [behind?, Option.some.injEq]
    constructor
    · rintro rfl
      exact ⟨[], rfl, .nil⟩
    · rintro ⟨n, rfl, hspells⟩
      cases hspells
      rfl
  | cons a x ih =>
    cases t with
    | nil =>
      rw [behind?]
      refine iff_of_false (Option.some_ne_none r ∘ Eq.symm) ?_
      rintro ⟨n, hn, hspells⟩
      obtain ⟨d, n, rfl, -⟩ := hspells.front
      exact List.cons_ne_nil d (n ++ r) hn.symm
    | cons c t =>
      rw [behind?]
      split
      · rename_i hc
        rw [ih]
        constructor
        · rintro ⟨n, rfl, hn⟩
          exact ⟨c :: n, rfl, .cons hc hn⟩
        · rintro ⟨n, hn, hspells⟩
          obtain ⟨d, n, rfl, -, hspells⟩ := hspells.front
          exact ⟨n, (List.cons_eq_cons.mp hn).2, hspells⟩
      · rename_i hc
        refine iff_of_false (Option.some_ne_none r ∘ Eq.symm) ?_
        rintro ⟨n, hn, hspells⟩
        obtain ⟨d, n, rfl, hd, -⟩ := hspells.front
        obtain ⟨rfl, -⟩ := List.cons_eq_cons.mp hn
        exact hc hd

theorem cutAt?_eq_some_iff {x : Char} {t u r : Text} :
    cutAt? t x = some (u, r) ↔ t = u ++ x :: r ∧ x ∉ u := by
  constructor
  · intro h
    induction t generalizing u with
    | nil => exact nomatch h
    | cons c t ih =>
      rw [cutAt?] at h
      split at h
      · rename_i hc
        obtain ⟨rfl, rfl⟩ := Prod.mk.inj (Option.some.inj h)
        exact ⟨by rw [hc]; rfl, List.not_mem_nil⟩
      · rename_i hc
        obtain ⟨⟨u', r'⟩, hcut, hur⟩ := Option.map_eq_some_iff.mp h
        obtain ⟨rfl, rfl⟩ := Prod.mk.inj hur
        obtain ⟨rfl, hx⟩ := ih hcut
        exact ⟨rfl, by simpa [hx] using Ne.symm hc⟩
  · rintro ⟨rfl, hx⟩
    induction u with
    | nil => rw [List.nil_append, cutAt?, if_pos rfl]
    | cons c u ih =>
      obtain ⟨hc, hx⟩ := not_or.mp (hx ∘ List.mem_cons.mpr)
      rw [List.cons_append, cutAt?, if_neg (fun e => hc e.symm), ih hx]
      rfl

/-- The first place of another text in any case: no place of it is further to the left. -/
def IsFirst (x t y : Text) : Prop :=
  ∀ y' n' r' : Text, t = y' ++ (n' ++ r') → n'.Spells x → y.length ≤ y'.length

/-- Where another text does not stand at the very front, its first place is further behind. -/
theorem isFirst_cons_iff {c : Char} {x t y : Text} (hfront : ∀ n r : Text, c :: t = n ++ r → ¬ n.Spells x) :
    IsFirst x (c :: t) (c :: y) ↔ IsFirst x t y := by
  constructor
  · intro hfirst y' n r hy' hn
    exact Nat.le_of_succ_le_succ (hfirst (c :: y') n r (congrArg (c :: ·) hy') hn)
  · intro hfirst y' n r hy' hn
    cases y' with
    | nil => exact absurd hn (hfront n r hy')
    | cons d y' => exact Nat.succ_le_succ (hfirst y' n r (List.cons_eq_cons.mp hy').2 hn)

theorem behindFirst?_eq_some_iff {x t r : Text} :
    behindFirst? t x = some r ↔
      ∃ y n : Text, t = y ++ (n ++ r) ∧ '>' ∉ y ∧ n.Spells x ∧ IsFirst x t y := by
  induction t with
  | nil =>
    rw [behindFirst?, behind?_eq_some_iff]
    constructor
    · rintro ⟨n, hn, hspells⟩
      exact ⟨[], n, hn, List.not_mem_nil, hspells, fun _ _ _ _ _ => Nat.zero_le _⟩
    · rintro ⟨y, n, hy, -, hspells, -⟩
      obtain ⟨rfl, hn⟩ := List.append_eq_nil_iff.mp hy.symm
      exact ⟨n, hn.symm, hspells⟩
  | cons c t ih =>
    rw [behindFirst?]
    cases hr : behind? (c :: t) x with
    | some r' =>
      -- The other text stands at the very front.
      simp only [Option.some.injEq]
      obtain ⟨n, hn, hspells⟩ := behind?_eq_some_iff.mp hr
      constructor
      · rintro rfl
        exact ⟨[], n, hn, List.not_mem_nil, hspells, fun _ _ _ _ _ => Nat.zero_le _⟩
      · rintro ⟨y, n', hy, -, hspells', hfirst⟩
        obtain rfl := List.length_eq_zero_iff.mp (Nat.le_zero.mp (hfirst [] n r' hn hspells))
        rw [List.nil_append, hn] at hy
        exact (List.append_inj hy (hspells.length_eq.symm.trans hspells'.length_eq)).2
    | none =>
      have hfront (n r : Text) (hn : c :: t = n ++ r) (hspells : n.Spells x) : False :=
        nomatch hr.symm.trans (behind?_eq_some_iff.mpr ⟨n, hn, hspells⟩)
      simp only
      split
      · rename_i hc
        refine iff_of_false (Option.some_ne_none r ∘ Eq.symm) ?_
        rintro ⟨y, n, hy, hangle, hspells, -⟩
        cases y with
        | nil => exact hfront n r hy hspells
        | cons d y =>
          obtain ⟨rfl, -⟩ := List.cons_eq_cons.mp hy
          exact hangle (hc ▸ List.mem_cons_self)
      · rename_i hc
        rw [ih]
        constructor
        · rintro ⟨y, n, rfl, hangle, hspells, hfirst⟩
          exact ⟨c :: y, n, rfl, by simpa [hangle] using Ne.symm hc, hspells,
            (isFirst_cons_iff hfront).mpr hfirst⟩
        · rintro ⟨y, n, hy, hangle, hspells, hfirst⟩
          cases y with
          | nil => exact (hfront n r hy hspells).elim
          | cons d y =>
            obtain ⟨rfl, rfl⟩ := List.cons_eq_cons.mp hy
            exact ⟨y, n, rfl, hangle ∘ List.mem_cons_of_mem c, hspells, (isFirst_cons_iff hfront).mp hfirst⟩

end Text

namespace Image

open Pattern

/-! ## Tags -/

/-- What is left of a text behind a white space character. -/
def behindBlank? : Text → Option Text
  | [] => none
  | c :: t => if isBlank c then some t else none

theorem behindBlank?_eq_some_iff {t r : Text} :
    behindBlank? t = some r ↔ ∃ c, t = c :: r ∧ isBlank c = true := by
  cases t with
  | nil => simp [behindBlank?]
  | cons c t => simp [behindBlank?, and_comm]

/-- The tag at the front of a text, read without going back: its source, and what stands
behind it. -/
def forward? (attr t : Text) : Option (Text × Text) := do
  let behindName ← t.behind? (lit "<img")
  let behindBlank ← behindBlank? behindName
  let behindAttribute ← behindBlank.behindFirst? (attr ++ lit "=\"")
  let (src, behindQuote) ← behindAttribute.cutAt? '"'
  let (_, behindTag) ← behindQuote.cutAt? '>'
  return (src, behindTag)

/-- The first place of the attribute behind the white space ends the first front of a tag. -/
theorem isFirstHead_of_isFirst {attr o x n r : Text} {c : Char} (ho : o.Spells (lit "<img"))
    (hc : isBlank c = true) (hx : '>' ∉ x) (hn : n.Spells (attr ++ lit "=\""))
    (hfirst : Text.IsFirst (attr ++ lit "=\"") (x ++ (n ++ r)) x) :
    IsFirstHead attr (o ++ c :: x ++ n) := by
  have hopen : IsOpen (o ++ c :: x) :=
    ⟨o, [c], x, rfl, ho, ⟨List.cons_ne_nil c [], by simpa using hc⟩, fun d hd e => hx (e ▸ hd)⟩
  refine ⟨⟨o ++ c :: x, n, rfl, hopen, hn⟩, ?_⟩
  rintro _ ⟨_, n', rfl, ⟨o', b, x', rfl, ho', ⟨hne, -⟩, -⟩, hn'⟩ ⟨q, hq⟩
  simp only [List.append_assoc] at hq
  obtain ⟨rfl, hbehind⟩ := List.append_inj hq (ho'.length_eq.symm.trans ho.length_eq)
  obtain ⟨d, b, rfl⟩ := List.exists_cons_of_ne_nil hne
  rw [List.cons_append, List.cons_append, List.cons_eq_cons] at hbehind
  obtain ⟨rfl, htail⟩ := hbehind
  -- The other front has its attribute at least as far to the right, so nothing is left of this one.
  have hle : x.length ≤ (b ++ x').length := by
    refine hfirst (b ++ x') n' (q ++ r) ?_ hn'
    have := congrArg (· ++ r) htail
    simp only [List.append_assoc] at this ⊢
    exact this.symm
  have hlen := congrArg List.length htail
  simp only [List.length_append, hn.length_eq.symm, hn'.length_eq.symm] at hlen hle
  obtain rfl : q = [] := List.length_eq_zero_iff.mp (by omega)
  rw [List.append_nil] at hq
  simpa only [List.append_assoc] using hq

/-- The attribute of the first front of a tag has its first place there. -/
theorem isFirst_of_isFirstHead {attr o b x n r : Text} {c : Char} (ho : o.Spells (lit "<img"))
    (hb : ∀ d ∈ c :: b, isBlank d = true) (hx : '>' ∉ b ++ x)
    (hh : IsFirstHead attr (o ++ (c :: b ++ x) ++ n)) (hn : n.Spells (attr ++ lit "=\"")) :
    Text.IsFirst (attr ++ lit "=\"") ((b ++ x) ++ (n ++ r)) (b ++ x) := by
  intro y' n' r' ht hn'
  refine Nat.not_lt.mp fun hlt => ?_
  obtain ⟨q, hq⟩ : y' <+: b ++ x := List.prefix_of_prefix_length_le (ht ▸ List.prefix_append y' _)
    (List.prefix_append (b ++ x) (n ++ r)) (Nat.le_of_lt hlt)
  have hopen : IsOpen (o ++ c :: y') := by
    refine ⟨o, [c], y', rfl, ho, ⟨List.cons_ne_nil c [], ?_⟩, fun d hd e => hx ?_⟩
    · simpa using hb c List.mem_cons_self
    · exact hq ▸ List.mem_append_left q (e ▸ hd)
  have hlen : (o ++ c :: y' ++ n').length < (o ++ (c :: b ++ x) ++ n).length := by
    simp only [List.length_append, List.length_cons, hn.length_eq.symm, hn'.length_eq.symm] at hlt ⊢
    omega
  have hpre : o ++ c :: y' ++ n' <+: o ++ (c :: b ++ x) ++ n := by
    have hlonger : o ++ c :: y' ++ n' <+: o ++ (c :: b ++ x) ++ n ++ r := by
      have htext := congrArg (fun u => o ++ c :: u) ht
      simp only [List.append_assoc, List.cons_append] at htext ⊢
      exact ⟨r', by simp only [htext, List.append_assoc, List.cons_append]⟩
    exact List.prefix_of_prefix_length_le hlonger (List.prefix_append _ r) (Nat.le_of_lt hlen)
  exact absurd (congrArg List.length (hh.first _ ⟨_, n', rfl, hopen, hn'⟩ hpre)) (Nat.ne_of_lt hlen)

/-- What is read as a tag without going back: the first front, the source up to the next
quote, and the tail up to the next `>`. -/
theorem forward?_eq_some_iff {attr t v w : Text} :
    forward? attr t = some (v, w) ↔
      ∃ h z, t = h ++ (v ++ (z ++ w)) ∧ IsFirstHead attr h ∧ '"' ∉ v ∧ IsTail z := by
  simp only [forward?, Option.bind_eq_bind, Option.bind_eq_some_iff, Option.pure_def]
  constructor
  · rintro ⟨_, hname, _, hblank, _, hattribute, ⟨src, _⟩, hquote, ⟨y, _⟩, htag, heq⟩
    obtain ⟨rfl, rfl⟩ := Prod.mk.inj (Option.some.inj heq)
    obtain ⟨o, rfl, ho⟩ := Text.behind?_eq_some_iff.mp hname
    obtain ⟨c, rfl, hc⟩ := behindBlank?_eq_some_iff.mp hblank
    obtain ⟨x, n, rfl, hx, hn, hfirst⟩ := Text.behindFirst?_eq_some_iff.mp hattribute
    obtain ⟨rfl, hsrc⟩ := Text.cutAt?_eq_some_iff.mp hquote
    obtain ⟨rfl, hy⟩ := Text.cutAt?_eq_some_iff.mp htag
    refine ⟨o ++ c :: x ++ n, '"' :: (y ++ ['>']), ?_, isFirstHead_of_isFirst ho hc hx hn hfirst, hsrc,
      y, rfl, hy⟩
    simp only [List.append_assoc, List.cons_append, List.nil_append]
  · rintro ⟨h, z, rfl, hh, hv, y, rfl, hy⟩
    obtain ⟨_, n, rfl, ⟨o, b, x, rfl, ho, ⟨hne, hb⟩, hx⟩, hn⟩ := hh.head
    obtain ⟨c, b, rfl⟩ := List.exists_cons_of_ne_nil hne
    have hangle : '>' ∉ b ++ x := fun hm => (List.mem_append.mp hm).elim
      (fun hm => absurd (hb _ (List.mem_cons_of_mem c hm)) (by decide)) fun hm => hx _ hm rfl
    have hfirst := isFirst_of_isFirstHead (r := v ++ '"' :: (y ++ '>' :: w)) ho hb hangle hh hn
    refine ⟨_, Text.behind?_eq_some_iff.mpr ⟨o, ?_, ho⟩, _,
      behindBlank?_eq_some_iff.mpr ⟨c, rfl, hb c List.mem_cons_self⟩, _,
      Text.behindFirst?_eq_some_iff.mpr ⟨b ++ x, n, rfl, hangle, hn, hfirst⟩, _,
      Text.cutAt?_eq_some_iff.mpr ⟨rfl, hv⟩, _, Text.cutAt?_eq_some_iff.mpr ⟨rfl, hy⟩, rfl⟩
    simp only [List.append_assoc, List.cons_append, List.nil_append]

/-- What the pattern reads at a place is what is read there without going back. -/
theorem matchAt_eq_forward? {attr : Text} (hattr : attr ∈ attributes) (n : Nat) (t : Text) :
    (pattern attr).matchAt n t =
      (forward? attr t).map fun (v, w) => ⟨n, t.take (t.length - w.length), [v]⟩ := by
  cases hm : (pattern attr).matchAt n t with
  | none =>
    cases hread : forward? attr t with
    | none => rfl
    | some vw =>
      obtain ⟨h, z, rfl, hh, hv, hz⟩ := forward?_eq_some_iff.mp hread
      have := (matchAt_eq_some_iff hattr (n := n)).mpr ⟨h, vw.1, z, vw.2, rfl, rfl, hh, hv, hz⟩
      exact nomatch hm.symm.trans this
  | some m =>
    obtain ⟨h, v, z, w, rfl, rfl, hh, hv, hz⟩ := (matchAt_eq_some_iff hattr).mp hm
    rw [forward?_eq_some_iff.mpr ⟨h, z, rfl, hh, hv, hz⟩]
    have htake : (h ++ (v ++ (z ++ w))).take ((h ++ (v ++ (z ++ w))).length - w.length) = h ++ (v ++ z) := by
      have htext : h ++ (v ++ (z ++ w)) = h ++ (v ++ z) ++ w := by simp only [List.append_assoc]
      rw [htext, List.length_append, Nat.add_sub_cancel, List.take_left]
    simp only [Option.map_some, htake]

/-! ## The tags of a text -/

theorem length_lt_of_forward? {attr t v w : Text} (h : forward? attr t = some (v, w)) :
    w.length < t.length := by
  obtain ⟨_, z, rfl, -, -, y, rfl, -⟩ := forward?_eq_some_iff.mp h
  simp only [List.length_append, List.length_cons]
  omega

theorem drop_of_forward? {attr t v w : Text} (h : forward? attr t = some (v, w)) :
    t.drop (t.length - w.length) = w := by
  obtain ⟨front, z, rfl, -⟩ := forward?_eq_some_iff.mp h
  refine (List.suffix_iff_eq_drop.mp ⟨front ++ (v ++ z), ?_⟩).symm
  simp only [List.append_assoc]

/-- The tags in a text that goes on at offset `n`, from left to right. Behind a tag the
search goes on where the tag ends, and otherwise at the next character. -/
def forwardFrom (attr : Text) (misspelt : Bool) (n : Nat) (t : Text) : List Image :=
  match h : forward? attr t with
  | some (v, w) =>
    ⟨t.take (t.length - w.length), v, n, misspelt⟩ ::
      forwardFrom attr misspelt (n + (t.length - w.length)) w
  | none =>
    match t with
    | [] => []
    | _ :: cs => forwardFrom attr misspelt (n + 1) cs
termination_by t.length
decreasing_by
  · exact length_lt_of_forward? h
  · exact Nat.lt_succ_self _

/-- The tags that the pattern finds, with their images. -/
theorem map_scanFrom {attr : Text} (hattr : attr ∈ attributes) (misspelt : Bool) (n : Nat) (t : Text) :
    (((pattern attr).scanFrom 0 n t).map fun m => (⟨m.text, m.group 0, m.start, misspelt⟩ : Image)) =
      forwardFrom attr misspelt n t := by
  fun_induction forwardFrom attr misspelt n t with
  | case1 n t v w h ih =>
    -- A tag is read here, and both searches go on behind it.
    have hm := matchAt_eq_forward? hattr n t
    rw [h, Option.map_some] at hm
    have hlt := length_lt_of_forward? h
    have hlen : (t.take (t.length - w.length)).length = t.length - w.length := by
      rw [List.length_take]
      omega
    have hne : t.take (t.length - w.length) ≠ [] := by
      rw [← List.length_pos_iff, hlen]
      omega
    rw [scanFrom_eq_cons hm hne, List.map_cons, Match.stop, hlen, drop_of_forward? h, ih]
    rfl
  | case2 n h => rfl
  | case3 n c cs h ih =>
    have hm := matchAt_eq_forward? hattr n (c :: cs)
    rw [h, Option.map_none] at hm
    rw [scanFrom_cons (fun m hm' => absurd (hm'.symm.trans hm) (Option.some_ne_none m)), ih]

theorem allWith_eq_forwardFrom {attr : Text} (hattr : attr ∈ attributes) (misspelt : Bool) (t : Text) :
    allWith attr misspelt t = forwardFrom attr misspelt 0 t :=
  map_scanFrom hattr misspelt 0 t

/-- The images of a text are the tags that are found with `src` by reading it once from left
to right, and then those that are found so with `sc`; each of them is a part of the text. -/
theorem all_eq_forwardFrom (t : Text) :
    all t = forwardFrom (lit "src") false 0 t ++ forwardFrom (lit "sc") true 0 t ∧
      ∀ i ∈ all t, ∃ j k : Nat, i.start = j ∧ i.stop = k ∧ i.fullText = t.slice j k := by
  refine ⟨?_, fun i hi => ?_⟩
  · rw [all, allWith_eq_forwardFrom (by simp [attributes]), allWith_eq_forwardFrom (by simp [attributes])]
  · obtain ⟨j, hstart, hstop, -, hpre⟩ := bounds_of_mem_all hi
    exact ⟨j, _, hstart, hstop, (Text.slice_of_prefix_drop hpre).symm⟩

/-- A tag without attributes, one whose source runs up to a later attribute, one with `sc` and
one that is left open. -/
def nested : Text := lit "<img ><IMG\ndata-src=\"a> src=\"b\"><img sc=\"c\"><img src=\"d\""

theorem all_eq_forwardFrom_nested :
    forwardFrom (lit "src") false 0 nested ++ forwardFrom (lit "sc") true 0 nested =
        [⟨lit "<IMG\ndata-src=\"a> src=\"b\">", lit "a> src=", 6, false⟩,
          ⟨lit "<img sc=\"c\">", lit "c", 32, true⟩] ∧
      ∃ j k : Nat, (32 : Int) = j ∧ stop ⟨lit "<img sc=\"c\">", lit "c", 32, true⟩ = k ∧
        lit "<img sc=\"c\">" = nested.slice j k :=
  ⟨by rw [← (all_eq_forwardFrom nested).1]; decide +kernel,
    (all_eq_forwardFrom nested).2 ⟨lit "<img sc=\"c\">", lit "c", 32, true⟩ (by decide +kernel)⟩

end Image

end Worksheet
