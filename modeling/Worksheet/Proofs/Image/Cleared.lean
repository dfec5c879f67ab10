import Worksheet.Proofs.Image.Annotations
import Worksheet.Proofs.Image.Reading

/-!
# What a correction of a mistyped tag leaves

After the correction, the tag with the path is read as an image, so the path is accounted
for (`Typo.exists_image_or_leftOpen`). It is not where a tag in front of it was left open,
or a quote in such a tag: then this tag goes on into the new one (`Typo.LeftOpen`).
`Typo.exists_again_iff` says when the same finding is made again.
-/

namespace Worksheet.Typo

open Image Pattern

/-! ## Paths -/

/-- There is no quote in a path. -/
theorem quote_not_mem_path {u : Text} {gs : List Text} (h : pathPattern.Reads u gs) : '"' ∉ u :=
  not_mem_of_reads_path (by decide) (by decide) (by decide) h

/-- At one place there is at most one path: the slash ends the word in front of it, and the
dot the number. -/
theorem single_pathPattern : pathPattern.Single := by
  intro t u u' gs gs' hu hu' hpre hpre'
  obtain ⟨a, f, d, e, rfl, rfl, ha, hf, hd, he⟩ := exists_of_reads_path hu
  obtain ⟨a', f', d', e', rfl, rfl, ha', hf', hd', he'⟩ := exists_of_reads_path hu'
  have hword {a f : Text} (ha : ∀ c ∈ a, isWord c = true) (hf : f.Spells (lit "_files")) :
      ∀ c ∈ a ++ f, isWord c = true := fun c hc =>
    (List.mem_append.mp hc).elim (ha c) (hf.forall (p := isWord) (by decide) c)
  have hslash : isWord '/' = false := by decide
  rw [← List.append_assoc] at hpre hpre'
  have haf := (takeWhile_eq (hword ha hf) hslash hpre).symm.trans
    (takeWhile_eq (hword ha' hf') hslash hpre')
  obtain ⟨rfl, rfl⟩ := List.append_inj' haf (hf.length_eq.symm.trans hf'.length_eq)
  obtain ⟨w, rfl⟩ := hpre
  rw [List.append_assoc (a ++ f), List.prefix_append_right_inj, List.cons_append,
    List.prefix_cons_inj] at hpre'
  obtain ⟨dot, e, rfl, hdot, he⟩ := Text.Spells.front (a := '.') (x := lit "png") he
  obtain ⟨dot', e', rfl, hdot', he'⟩ := Text.Spells.front (a := '.') (x := lit "png") he'
  have hend {c : Char} (h : isLetter '.' c = true) : isDecimal c = false :=
    eq_false_of_all_forms h (by decide)
  obtain rfl : d = d' := (takeWhile_eq hd (hend hdot) (List.prefix_append _ w)).symm.trans
    (takeWhile_eq hd' (hend hdot') hpre')
  rw [List.append_assoc, List.prefix_append_right_inj] at hpre'
  have hlen := he.length_eq.symm.trans he'.length_eq
  obtain h := eq_of_prefix_of_length (List.prefix_append (dot :: e) w) hpre' (by simp [hlen])
  exact ⟨by rw [h], rfl⟩

/-! ## The tag that is put in -/

theorem correctTag_eq (p : Text) : correctTag p = lit "<img src=\"" ++ (p ++ lit "\">") :=
  List.append_assoc ..

theorem isFirstHead_correctTag : IsFirstHead (lit "src") (lit "<img src=\"") := by
  have hblank : ∀ c ∈ lit " ", isBlank c = true := fun c hc => by
    rw [List.mem_singleton.mp hc]
    decide
  refine ⟨⟨lit "<img ", lit "src=\"", rfl,
    ⟨lit "<img", lit " ", [], rfl, by decide, ⟨by decide, hblank⟩, nofun⟩, by decide⟩, ?_⟩
  rintro _ ⟨_, n, rfl, ⟨o, b, x, rfl, ho, ⟨hb, -⟩, -⟩, hn⟩ hpre
  refine hpre.eq_of_length_le ?_
  have hpos := List.length_pos_iff.mpr hb
  simp only [List.length_append, ← ho.length_eq, ← hn.length_eq]
  show 10 ≤ 4 + (b.length + x.length) + 5
  omega

theorem isTail_correctTag : IsTail (lit "\">") := ⟨[], rfl, List.not_mem_nil⟩

/-- A text in which a tag with the right attribute is left open: behind its front there is
no quote, or no `>` behind the quote. -/
def LeftOpen (a : Text) : Prop :=
  ∃ x h y : Text, a = x ++ (h ++ y) ∧ IsHead (lit "src") h ∧
    ('"' ∉ y ∨ ∃ v z : Text, y = v ++ '"' :: z ∧ '"' ∉ v ∧ '>' ∉ z)

/-- What begins a source and the end of a tag, but does not end it. -/
theorem open_of_prefix {v z w y q : Text} (hz : IsTail z) (h : v ++ (z ++ w) = y ++ q)
    (hv : '"' ∉ v) (hlen : y.length < (v ++ z).length) :
    '"' ∉ y ∨ ∃ v z : Text, y = v ++ '"' :: z ∧ '"' ∉ v ∧ '>' ∉ z := by
  refine or_iff_not_imp_left.mpr fun hy => ?_
  obtain ⟨v', z', rfl, hv'⟩ := List.eq_append_cons_of_mem (not_not.mp hy)
  obtain ⟨r, rfl, hr⟩ := hz
  rw [List.cons_append, List.append_assoc, List.append_assoc, List.cons_append] at h
  obtain ⟨rfl, h₁⟩ := append_cons_inj hv hv' h
  refine ⟨v, z', rfl, hv, fun hm => hr (List.IsPrefix.mem hm ?_)⟩
  refine List.prefix_of_prefix_length_le ⟨q, h₁.symm⟩ (List.prefix_append r _) ?_
  simp only [List.length_append, List.length_cons, List.length_nil] at hlen
  omega

/-- A front that goes on into the tag that is put in ends in front of its path. -/
theorem eq_of_isFirstHead {a h p b r : Text} (ha : a ≠ []) (hh : IsFirstHead (lit "src") h)
    (heq : a ++ (correctTag p ++ b) = h ++ r) (hlen : a.length < h.length) :
    r = p ++ (lit "\">" ++ b) := by
  have hsrc : lit "src" ∈ attributes := List.mem_cons_self
  rw [correctTag_eq, List.append_assoc, List.append_assoc] at heq
  have hfront : lit "<img src=\"" = lit "<img src=" ++ ['"'] := rfl
  obtain ⟨q, rfl⟩ : a <+: h := List.prefix_of_prefix_length_le (List.prefix_append a _)
    (heq ▸ List.prefix_append h r) (Nat.le_of_lt hlen)
  rw [List.append_assoc] at heq
  have hq := List.append_cancel_left heq
  have hopen : IsOpen a := by
    cases q with
    | nil => exact absurd hlen (by simp)
    | cons c q =>
      obtain ⟨rfl, -⟩ := List.cons_eq_cons.mp hq
      exact isOpen_of_isHead hsrc ha hh.head
  -- The front of the new tag completes the one that was open, so neither front is shorter.
  have hhead := hopen.isHead_append isFirstHead_correctTag.head
  rcases List.append_eq_append_iff.mp hq with ⟨q', hq', -⟩ | ⟨q', hq', hr⟩
  · have hpre : a ++ lit "<img src=\"" <+: a ++ q := by
      rw [hq', ← List.append_assoc]
      exact List.prefix_append _ q'
    have := List.append_cancel_left (hh.first _ hhead hpre)
    rw [← this] at hq
    exact (List.append_cancel_left hq).symm
  · obtain ⟨h', hquote⟩ := hh.head.exists_quote hsrc
    obtain ⟨q₀, c, rfl⟩ := (List.eq_nil_or_concat' q).resolve_left (by rintro rfl; simp at hlen)
    rw [← List.append_assoc] at hquote
    obtain ⟨-, hc⟩ := List.append_inj' hquote rfl
    obtain rfl := (List.cons_eq_cons.mp hc).1
    rw [hfront, List.append_assoc] at hq'
    obtain ⟨y, -, hy⟩ := exists_of_append_eq hq' (by decide)
    obtain ⟨-, hy⟩ | ⟨_, -, hy⟩ := List.cons_eq_append_iff.mp hy
    · obtain ⟨-, rfl⟩ := List.cons_eq_cons.mp hy
      exact hr
    · exact absurd hy.symm (by simp)

/-- Behind any text, the tag that is put in is read as an image with its path as the source,
or the text leaves a tag open. -/
theorem exists_image_or_leftOpen {a p b : Text} (hp : '"' ∉ p) :
    (∃ i ∈ Image.all (a ++ (correctTag p ++ b)), i.src = p) ∨ LeftOpen a := by
  have hsrc : lit "src" ∈ attributes := List.mem_cons_self
  rcases meets_or_straddles (Image.pattern (lit "src")) 0 a (correctTag p ++ b) with
    hmeets | ⟨m, hm, hbefore, hbehind⟩
  · rw [correctTag_eq, List.append_assoc, List.append_assoc] at hmeets ⊢
    have hi := mem_allWith_of_meets false hsrc hmeets isFirstHead_correctTag hp isTail_correctTag
    exact .inl ⟨_, List.mem_append_left _ hi, rfl⟩
  · obtain ⟨k, -, hk, hat⟩ := matchAt_of_mem_scanFrom hm
    obtain ⟨h, v, z, w, hdrop, hmatch, hh, hv, hz⟩ := (matchAt_eq_some_iff hsrc).mp hat
    rw [Nat.zero_add] at hk hbefore hbehind
    rw [List.drop_append_of_le_length (by omega)] at hdrop
    have hstop : a.length < k + (h ++ (v ++ z)).length := by
      rw [hmatch, Match.stop, hk] at hbehind
      exact hbehind
    have hlen : (a.drop k).length = a.length - k := List.length_drop ..
    have hne : a.drop k ≠ [] := List.length_pos_iff.mp (by omega)
    rcases Nat.lt_or_ge (a.drop k).length h.length with hlt | hge
    · -- The path becomes the source of the tag that was open.
      have hr := eq_of_isFirstHead hne hh hdrop hlt
      obtain ⟨rfl, -, -⟩ := closes_unique hr hv hp hz isTail_correctTag
      refine .inl ⟨⟨h ++ (v ++ z), v, k, false⟩, List.mem_append_left _ (mem_allWith_iff.mpr ?_), rfl⟩
      rw [hmatch, hk] at hm
      exact ⟨rfl, k, [v], rfl, rfl, hm⟩
    · obtain ⟨y, hy⟩ : h <+: a.drop k := List.prefix_of_prefix_length_le
        (hdrop ▸ List.prefix_append h _) (List.prefix_append _ _) hge
      rw [← hy, List.append_assoc] at hdrop
      refine .inr ⟨a.take k, h, y, by rw [hy, List.take_append_drop], hh.head,
        open_of_prefix hz (List.append_cancel_left hdrop).symm hv ?_⟩
      rw [← hy] at hlen
      simp only [List.length_append] at hlen hstop ⊢
      omega

/-- The path of the tag that is put in is one of the paths of the text, whatever stands
around the tag: no path reaches over its quotes. -/
theorem mem_scan_correctTag {p : Text} {gs : List Text} (hp : pathPattern.Reads p gs) (a b : Text) :
    ∃ m ∈ pathPattern.scan (a ++ (correctTag p ++ b)), m.text = p := by
  rw [correctTag_eq, List.append_assoc, List.append_assoc, ← List.append_assoc a]
  have hplace : p <+: (a ++ lit "<img src=\"" ++ (p ++ (lit "\">" ++ b))).drop
      (a ++ lit "<img src=\"").length := by
    rw [List.drop_left]
    exact List.prefix_append p _
  rcases exists_start_or_straddles (fun _ _ => ne_nil_of_reads_path) hp hplace with
    ⟨m, hm, hstart⟩ | ⟨m, hm, hbefore, hbehind⟩
  · obtain ⟨hpre, hreads⟩ := mem_scan hm
    rw [hstart] at hpre
    exact ⟨m, hm, (single_pathPattern hreads hp hpre hplace).1⟩
  · obtain ⟨hpre, hreads⟩ := mem_scan hm
    rw [List.drop_append_of_le_length (Nat.le_of_lt hbefore)] at hpre
    have hfront : (a ++ lit "<img src=\"").drop m.start <+: m.text := by
      refine List.prefix_of_prefix_length_le (List.prefix_append _ _) hpre ?_
      rw [Match.stop] at hbehind
      rw [List.length_drop]
      omega
    have hquote : '"' ∈ (a ++ lit "<img src=\"").drop m.start := by
      have hlast : a ++ lit "<img src=\"" = (a ++ lit "<img src=") ++ ['"'] := by
        rw [List.append_assoc]
        rfl
      rw [hlast, List.length_append, List.length_singleton] at hbefore
      rw [hlast, List.drop_append_of_le_length (Nat.le_of_lt_succ hbefore)]
      exact List.mem_append_right _ (List.mem_singleton_self _)
    exact absurd (hfront.mem hquote) (quote_not_mem_path hreads)

/-! ## The same finding again -/

/-- Tags that are put in are told apart by their paths. -/
theorem correctTag_inj {p q : Text} (h : correctTag p = correctTag q) : p = q := by
  rw [correctTag_eq, correctTag_eq] at h
  exact List.append_cancel_right (List.append_cancel_left h)

/-- When a mistyped tag is reported for a path: the path is one of the text, in the source of
no image, and a mistyped tag is found in the window around its first place. -/
theorem exists_message_iff {t p : Text} {images : List Image} {s : Settings} :
    (∃ d ∈ findings t images s, d.code = .imageTagTypo ∧
        d.message = lit "Possible typo in image tag. Should be " ++ correctTag p) ↔
      (∃ m ∈ pathPattern.scan t, m.text = p) ∧ (∀ i ∈ images, ¬ p <:+: i.src) ∧
        ∃ n, Text.offsetOf? p t = some n ∧
          inWindow? (t.window n (n + p.length) s.images.typoWindow).2 ≠ none := by
  constructor
  · rintro ⟨d, hd, hcode, hmessage⟩
    obtain ⟨m, hm, himages, n, r, hn, hr, rfl⟩ := mem_findings_isTypo.mp ⟨hd, hcode⟩
    obtain ⟨w, hw, rfl⟩ := Option.map_eq_some_iff.mp hr
    obtain rfl := correctTag_inj (List.append_cancel_left hmessage)
    exact ⟨⟨m, hm, rfl⟩, himages, n, hn, by rw [hw]; nofun⟩
  · rintro ⟨⟨m, hm, rfl⟩, himages, n, hn, hw⟩
    obtain ⟨w, hw⟩ := Option.ne_none_iff_exists'.mp hw
    obtain ⟨r, hr⟩ : ∃ r, typoReport t s m.text n = some r := ⟨_, Option.map_eq_some_iff.mpr ⟨w, hw, rfl⟩⟩
    obtain ⟨hd, hcode⟩ := mem_findings_isTypo.mpr ⟨m, hm, himages, n, r, hn, hr, rfl⟩
    obtain ⟨u, -, -, -, hfinding, -⟩ := exists_of_typoReport hr
    exact ⟨r.1, hd, hcode, by rw [hfinding]; rfl⟩

/-- After the correction of a mistyped tag, the same finding is made again if and only if the
text in front of the tag leaves a tag open, the path is still in the source of no image, and
a mistyped tag is found in the window around the path. -/
theorem exists_again_iff {t : Text} {s : Settings} {d : Diagnostic}
    (hd : d ∈ findings t (Image.all t) s) (hcode : d.code = .imageTagTypo) {c : Correction}
    (hc : d.fix = some c) :
    ∃ m ∈ pathPattern.scan t, c.replacement = correctTag m.text ∧
      ((∃ d' ∈ findings (Correction.apply t c) (Image.all (Correction.apply t c)) s,
          d'.code = .imageTagTypo ∧ d'.message = d.message) ↔
        LeftOpen (t.take d.start) ∧
          (∀ i ∈ Image.all (Correction.apply t c), ¬ m.text <:+: i.src) ∧
          ∃ n, Text.offsetOf? m.text (Correction.apply t c) = some n ∧
            inWindow? ((Correction.apply t c).window n (n + m.text.length) s.images.typoWindow).2 ≠ none) := by
  obtain ⟨m, hm, -, n, r, -, hr, rfl⟩ := mem_findings_isTypo.mp ⟨hd, hcode⟩
  obtain ⟨u, -, -, -, hfinding, -⟩ := exists_of_typoReport hr
  have hreads := (mem_scan hm).2
  have hmessage : r.1.message = lit "Possible typo in image tag. Should be " ++ correctTag m.text := by
    rw [hfinding]
    rfl
  have hfix : r.1.fix = some ⟨r.1.start, (tagEnd t (r.1.start + u.length : Nat)).toNat,
      correctTag m.text, none⟩ := by
    conv_lhs => rw [hfinding]
    rfl
  obtain rfl := Option.some.inj (hfix.symm.trans hc)
  refine ⟨m, hm, rfl, ?_⟩
  rw [hmessage, exists_message_iff, Correction.apply, List.append_assoc]
  constructor
  · rintro ⟨-, himages, hwindow⟩
    have himage := exists_image_or_leftOpen (a := t.take r.1.start)
      (b := t.drop (tagEnd t (r.1.start + u.length : Nat)).toNat) (quote_not_mem_path hreads)
    refine ⟨himage.resolve_left ?_, himages, hwindow⟩
    rintro ⟨i, hi, hsrc⟩
    exact himages i hi (hsrc ▸ List.infix_rfl)
  · rintro ⟨-, himages, hwindow⟩
    exact ⟨mem_scan_correctTag hreads _ _, himages, hwindow⟩

/-- A mistyped tag in an image tag that is left open, and another one behind it. -/
def nested : Text := lit "<img src=\"x\" <im src=\"a_files/1.png\"> <im src=\"b\">"

/-- Its finding. -/
def nestedTypo : Diagnostic := typoFinding nested {} (lit "a_files/1.png") 13 36

/-- Its correction. -/
def nestedFix : Correction := ⟨13, 37, lit "<img src=\"a_files/1.png\">", none⟩

/-- The tag that is put in becomes a part of the one that is left open, and the other mistyped
tag is found in its place. -/
theorem exists_again_iff_nested :
    ∃ m ∈ pathPattern.scan nested, nestedFix.replacement = correctTag m.text ∧
      ((∃ d' ∈ findings (Correction.apply nested nestedFix)
            (Image.all (Correction.apply nested nestedFix)) {},
          d'.code = .imageTagTypo ∧ d'.message = nestedTypo.message) ↔
        LeftOpen (nested.take nestedTypo.start) ∧
          (∀ i ∈ Image.all (Correction.apply nested nestedFix), ¬ m.text <:+: i.src) ∧
          ∃ n, Text.offsetOf? m.text (Correction.apply nested nestedFix) = some n ∧
            inWindow? ((Correction.apply nested nestedFix).window n (n + m.text.length) 50).2 ≠ none) :=
  exists_again_iff (t := nested) (s := {}) (d := nestedTypo) (c := nestedFix) (by decide) rfl
    (by decide)

/-- So the correction of a mistyped tag can leave its finding. -/
theorem exists_uncleared : ¬ ∀ t, ∀ d ∈ findings t (Image.all t) {}, d.code = .imageTagTypo →
    ∀ c, d.fix = some c → ¬ ∃ d' ∈ findings (Correction.apply t c) (Image.all (Correction.apply t c)) {},
      d'.code = .imageTagTypo ∧ d'.message = d.message := by
  intro h
  refine h nested nestedTypo (by decide) rfl nestedFix (by decide) ?_
  decide

end Worksheet.Typo
