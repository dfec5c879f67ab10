import Worksheet.Proofs.Correction.Exchange
import Worksheet.Proofs.FileName
import Worksheet.Proofs.Image.Span
import Worksheet.Proofs.Marks.Shape

/-!
# What corrections of images do to annotations

* `Typo.swallows_of_typoReport`: the correction of a mistyped tag removes the
  annotations that start in its span, and no others;
* `Folder.keeps_correctedTag`: a correction of the folder keeps all annotations, if
  the name of the file ends the source and the source does not also start the tag
  (`Folder.Faithful`).
-/

namespace Worksheet

open GradingLine

/-! ## Mistyped tags -/

namespace Typo

theorem not_mem_path {u : Text} {gs : List Text} (h : pathPattern.Reads u gs) : '<' ∉ u :=
  not_mem_of_reads_path (by decide) (by decide) (by decide) h

/-- No annotation reaches into a mistyped tag. -/
theorem sealed_of_reads {p : Pattern} (hp : p ∈ patterns) {u : Text} {gs : List Text} (h : p.Reads u gs) :
    GradingLine.pattern.Sealed u := by
  obtain ⟨c, v, rfl, hc⟩ := front_of_reads hp h
  have hfront : isLetter 'b' c = false ∧ c ≠ '/' := by
    rcases hc with hi | hblank
    · have := of_all_forms (p := fun c => !isLetter 'b' c && c != '/') hi (by decide)
      rwa [Bool.and_eq_true, Bool.not_eq_true', bne_iff_ne] at this
    · refine ⟨Bool.eq_false_iff.mpr fun hb => ?_, ne_of_plain (plain_of_isBlank hblank) (by decide)⟩
      exact Bool.false_ne_true ((eq_false_of_all_forms hb (by decide)).symm.trans hblank)
  exact sealed_of_front hfront.1 hfront.2

/-- No annotation starts in a tag with a path. -/
theorem barren_correctTag {path : Text} (h : '<' ∉ path) :
    GradingLine.pattern.Barren (correctTag path) := by
  refine barren_of_calm (((?_ : Calm (lit "<img src=\"")).append ?_).append ?_)
  · exact (by decide : Text.Spells (lit "<img src=\"") (lit "<img src=\"")).calm (by decide)
  · exact calm_of_forall fun c hc e => h (e ▸ hc)
  · exact calm_of_forall
      (List.forall_mem_cons.mpr ⟨by decide, List.forall_mem_singleton.mpr (by decide)⟩)

theorem sealed_correctTag (path : Text) : GradingLine.pattern.Sealed (correctTag path) :=
  sealed_of_front (c := 'i') (by decide) (by decide)

/-- The correction of a mistyped tag removes the annotations that start in its span,
and no others. -/
theorem swallows_of_typoReport {t : Text} {s : Settings} {path : Text} {n : Nat} {r : Report}
    (h : typoReport t s path n = some r) (hpath : '<' ∉ path) {c : Correction} (hc : r.1.fix = some c) :
    c.Swallows GradingLine.pattern t := by
  obtain ⟨u, ⟨p, hp, gs, hu⟩, hne, hpre, hfinding, -⟩ := exists_of_typoReport h
  obtain ⟨hend, hend'⟩ := tagEnd_bounds (Text.le_length_of_prefix_drop hpre hne)
  obtain ⟨v, hv⟩ := hpre
  have hlen := congrArg List.length hv
  rw [List.length_append, List.length_drop] at hlen
  rw [hfinding] at hc
  obtain rfl := Option.some.inj hc
  refine ⟨⟨u ++ v.take ((tagEnd t (r.1.start + u.length : Nat)).toNat - (r.1.start + u.length)),
    v.drop ((tagEnd t (r.1.start + u.length : Nat)).toNat - (r.1.start + u.length)), ?_, ?_,
    (sealed_of_reads hp hu).append _⟩, sealed_correctTag path, barren_correctTag hpath⟩
  · rw [List.append_assoc, List.take_append_drop]
    exact hv.symm
  · show (tagEnd t (r.1.start + u.length : Nat)).toNat = r.1.start + _
    rw [List.length_append, List.length_take]
    omega

end Typo

/-! ## Folders -/

namespace Folder

/-- The name of the file ends the source of an image, and the source stands only
behind the start of the tag. -/
def Faithful (i : Image) : Prop := FileName.last i.src <:+ i.src ∧ ¬ i.src <+: i.fullText

instance (i : Image) : Decidable (Faithful i) :=
  inferInstanceAs (Decidable (_ ∧ ¬ _))

theorem isFolder_folderFor (name : Text) : IsFolder (Image.folderFor name (lit "_files")) := by
  refine ⟨?_, 's', ?_, by decide⟩
  · rw [Image.folderFor, List.mem_append, not_or]
    exact ⟨FileName.slash_not_mem_stem _, by decide⟩
  · rw [Image.folderFor, List.getLast?_append_of_ne_nil _ (by decide)]
    rfl

/-- The front of a tag, up to its source: no annotation reaches into it or starts in
it. -/
theorem exists_front {u src : Text} (h : Image.IsTag (lit "src") u src) :
    ∃ i H z, u = '<' :: i :: (H ++ (src ++ '"' :: z)) ∧ isLetter 'b' i = false ∧ i ≠ '/' ∧
      '>' ∉ '<' :: i :: H ∧ (∃ H', '<' :: i :: H = H' ++ ['"']) ∧ '"' ∉ src ∧
      GradingLine.pattern.Barren ('<' :: i :: H) := by
  obtain ⟨o, b, x, n, z, rfl, ho, ⟨-, hb⟩, hx, hn, hsrc⟩ := h
  obtain ⟨lt, o, rfl, hlt, ho₁⟩ := Text.Spells.front (a := '<') (x := lit "img") ho
  obtain rfl := eq_of_isLetter_angle hlt
  obtain ⟨i, o, rfl, hi, ho₂⟩ := Text.Spells.front (a := 'i') (x := lit "mg") ho₁
  obtain ⟨sr, n, rfl, hsr, hn₁⟩ := Text.Spells.exists_append (x := lit "sr") (y := lit "c=\"") hn
  obtain ⟨c, n, rfl, hc, hn₂⟩ := Text.Spells.front (a := 'c') (x := lit "=\"") hn₁
  obtain rfl := hn₂.eq (by decide)
  have hi' := of_all_forms (p := fun c => !isLetter 'b' c && c != '/' && c != '>') hi (by decide)
  rw [Bool.and_eq_true, Bool.and_eq_true, Bool.not_eq_true', bne_iff_ne, bne_iff_ne] at hi'
  have hc' := of_all_forms (p := fun c => !isLetter 'n' c && c != '>') hc (by decide)
  rw [Bool.and_eq_true, Bool.not_eq_true', bne_iff_ne] at hc'
  have spelled {v y : Text} (hv : v.Spells y)
      (hy : (y.all fun a => (letterForms a).all fun c => c != '>') = true) : ∀ c ∈ v, c ≠ '>' :=
    fun c hc => bne_iff_ne.mp (hv.forall (p := (· != '>')) hy c hc)
  have hplain : ∀ d ∈ '<' :: i :: (o ++ (b ++ (x ++ sr))), d ≠ '>' := by
    simp only [List.mem_cons, List.mem_append]
    rintro d (rfl | rfl | hd | hd | hd | hd)
    · decide
    · exact hi'.2
    · exact spelled ho₂ (by decide) d hd
    · exact ne_of_plain (plain_of_isBlank (hb d hd)) (by decide)
    · exact hx d hd
    · exact spelled hsr (by decide) d hd
  have hH : '<' :: i :: (o ++ (b ++ (x ++ (sr ++ c :: '=' :: ['"'])))) =
      '<' :: i :: (o ++ (b ++ (x ++ sr))) ++ c :: '=' :: ['"'] := by
    simp only [List.append_assoc, List.cons_append]
  refine ⟨i, o ++ (b ++ (x ++ (sr ++ c :: '=' :: ['"']))), z, ?_, hi'.1.1, hi'.1.2, ?_, ?_, ?_, ?_⟩
  · simp only [List.append_assoc, List.cons_append]
    rfl
  · rw [hH, List.mem_append, not_or]
    refine ⟨fun hm => hplain _ hm rfl, ?_⟩
    simp only [List.mem_cons, List.not_mem_nil, or_false, not_or]
    exact ⟨hc'.2.symm, by decide, by decide⟩
  · exact ⟨'<' :: i :: (o ++ (b ++ (x ++ (sr ++ [c, '='])))), by
      simp only [List.append_assoc, List.cons_append, List.nil_append]⟩
  · exact fun hm => hsrc _ hm rfl
  · rw [hH]
    exact barren_of_attribute hplain hc'.2 hc'.1

/-- The first place of a source in its tag is that of the source itself, or it lies in
front of the quote before it. -/
theorem offset_of_front {H src z : Text} (hquote : '"' ∉ src) (hH : ∃ H', H = H' ++ ['"']) {k : Nat}
    (hk : Text.offsetOf? src (H ++ (src ++ '"' :: z)) = some k) :
    k = H.length ∨ ∃ A C, H = A ++ (src ++ C) ∧ k = A.length := by
  obtain ⟨hpre, hfirst⟩ := Text.offsetOf?_eq_some hk
  have hle : k ≤ H.length := Nat.not_lt.mp fun hlt => hfirst _ hlt (by
    rw [List.drop_left]
    exact List.prefix_append _ _)
  rcases Nat.lt_or_eq_of_le hle with hlt | rfl
  · rw [List.drop_append_of_le_length hle] at hpre
    rcases List.prefix_or_prefix_of_prefix hpre (List.prefix_append _ _) with ⟨C, hC⟩ | h
    · refine .inr ⟨H.take k, C, by rw [hC, List.take_append_drop], ?_⟩
      rw [List.length_take, Nat.min_eq_left hle]
    · -- The source would run over the quote in front of it.
      obtain ⟨H', rfl⟩ := hH
      rw [List.length_append, List.length_singleton] at hlt
      rw [List.drop_append_of_le_length (by omega)] at h
      exact absurd (h.mem (by simp)) hquote
  · exact .inl rfl

/-- No annotation starts in what is in front of the name of the file in a source. -/
theorem barren_front {pre src : Text} (h : src = pre ++ FileName.last src) (hquote : '"' ∉ src) :
    GradingLine.pattern.Barren pre := by
  have hpre : '"' ∉ pre := fun hm => hquote (h ▸ List.mem_append_left _ hm)
  rcases FileName.front_of_last h with rfl | ⟨y, rfl | rfl⟩
  · exact Pattern.barren_nil
  · exact barren_of_last (fun hm => hpre (List.mem_append_left _ hm)) (.inl rfl)
  · exact barren_of_last (fun hm => hpre (List.mem_append_left _ hm)) (.inr rfl)

/-- What a correction of the folder changes is the front of the tag, which no
annotation reaches into or starts in, before or afterwards. -/
theorem exists_vary {f : Text} (hf : IsFolder f) {i : Image}
    (htag : Image.IsTag (lit "src") i.fullText i.src) (hi : Faithful i) :
    ∃ s r z : Text, i.fullText = s ++ z ∧ correctedTag f i = r ++ z ∧
      GradingLine.pattern.Sealed s ∧ GradingLine.pattern.Barren s ∧
      GradingLine.pattern.Sealed r ∧ GradingLine.pattern.Barren r := by
  obtain ⟨c, H, z, hu, hb, hslash, hclose, hquoted, hquote, hbarren⟩ := exists_front htag
  obtain ⟨⟨pre, hsrc⟩, hfront⟩ := hi
  have hsealed (v : Text) : GradingLine.pattern.Sealed ('<' :: c :: v) := sealed_of_front hb hslash
  rw [← List.cons_append, ← List.cons_append] at hu
  obtain ⟨k, hk⟩ : ∃ k, Text.offsetOf? i.src i.fullText = some k := by
    rw [← Option.ne_none_iff_exists', ne_eq, Text.offsetOf?_eq_none_iff, not_not, hu]
    exact (List.prefix_append _ _).isInfix.trans (List.suffix_append _ _).isInfix
  rw [correctedTag_eq, hu]
  rw [hu] at hk hfront
  rcases offset_of_front hquote hquoted hk with rfl | ⟨A, C, hH, rfl⟩
  · -- The source itself is changed, in front of the name of the file.
    refine ⟨'<' :: c :: H ++ pre, '<' :: c :: H ++ (f ++ '/' :: []), FileName.last i.src ++ '"' :: z,
      ?_, ?_, hsealed _, hbarren.append (barren_front hsrc.symm hquote), hsealed _,
      barren_moved hclose hf Pattern.barren_nil⟩
    · conv_lhs => rw [← hsrc]
      simp only [List.append_assoc]
    · rw [Text.replaceFirst_append hk]
      simp only [List.append_assoc, List.cons_append, List.nil_append]
  · -- Text in front of the source is changed that reads like it.
    rw [hH, List.append_assoc, List.append_assoc] at hk hfront
    have hAne : A ≠ [] := by
      rintro rfl
      exact hfront (List.prefix_append _ _)
    have hclose' : '>' ∉ A := fun hm => hclose (hH ▸ List.mem_append_left _ hm)
    have hbarren' : GradingLine.pattern.Barren (FileName.last i.src ++ C) := by
      refine hbarren.suffix ⟨A ++ pre, ?_⟩
      rw [hH]
      conv_rhs => rw [← hsrc]
      simp only [List.append_assoc]
    refine ⟨'<' :: c :: H, A ++ (f ++ '/' :: (FileName.last i.src ++ C)), i.src ++ '"' :: z, rfl, ?_,
      hsealed _, hbarren, ?_, barren_moved hclose' hf hbarren'⟩
    · rw [hH, List.append_assoc, List.append_assoc, Text.replaceFirst_append hk]
      simp only [List.append_assoc, List.cons_append, List.nil_append]
    · obtain ⟨d, A, rfl⟩ := List.exists_cons_of_ne_nil hAne
      obtain ⟨rfl, hA⟩ := List.cons_eq_cons.mp hH
      cases A with
      | nil => exact sealed_moved hf _
      | cons d A =>
        obtain ⟨rfl, -⟩ := List.cons_eq_cons.mp hA
        exact hsealed _

/-- A correction of the folder keeps all annotations. -/
theorem keeps_correctedTag (R : List Text → List Text → Prop) {f t : Text} (hf : IsFolder f) {i : Image}
    (htag : Image.IsTag (lit "src") i.fullText i.src) (hi : Faithful i) {n : Nat}
    (hn : i.fullText <+: t.drop n) (g : Option TextRange) :
    Correction.Keeps GradingLine.pattern R t ⟨n, n + i.fullText.length, correctedTag f i, g⟩ := by
  obtain ⟨s, r, z, hu, hr, hs, hs', hr', hr''⟩ := exists_vary hf htag hi
  obtain ⟨v, hv⟩ := hn
  refine .vary (s := s) (r := r) (z := z) (v := v) ?_ ?_ hr hs hs' hr' hr''
  · rw [← hv, hu, List.append_assoc]
  · rw [hu, List.length_append]

/-- Where the source does not end with the name of the file, an annotation can appear. -/
example : ¬ Faithful ⟨lit "<img src=\"<p align=/\"right\">", lit "<p align=/", 0, false⟩ ∧
    correctedTag (lit "a_files") ⟨lit "<img src=\"<p align=/\"right\">", lit "<p align=/", 0, false⟩ =
      lit "<img src=\"a_files/<p align=\"right\">" := by
  decide

end Folder

end Worksheet
