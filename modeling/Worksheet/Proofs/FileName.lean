import Mathlib.Data.List.Basic
import Worksheet.FileName
import Worksheet.Proofs.Alphabet

/-!
# Parts of names

A normal name has the same parts as the name that it was made of
(`FileName.parts_normal`), and ends in the last of them (`FileName.exists_normal_eq`).
-/

namespace Worksheet

namespace Text

variable {α : Type} {p : α → Bool}

theorem splitOn_ne_nil (p : α → Bool) (t : Text α) : splitOn p t ≠ [] := by
  cases t with
  | nil => exact List.cons_ne_nil _ _
  | cons c cs =>
    rw [splitOn]
    split
    · exact List.cons_ne_nil _ _
    · split <;> exact List.cons_ne_nil _ _

/-- A text without separators has one part. -/
theorem splitOn_of_forall {t : Text α} (h : ∀ c ∈ t, p c = false) : splitOn p t = [t] := by
  induction t with
  | nil => rfl
  | cons c cs ih =>
    obtain ⟨hc, hcs⟩ := List.forall_mem_cons.mp h
    simp only [splitOn, hc, Bool.false_eq_true, if_false, ih hcs]

theorem splitOn_append_cons {c : α} (hc : p c = true) (x y : Text α) :
    splitOn p (x ++ c :: y) = splitOn p x ++ splitOn p y := by
  induction x with
  | nil => simp only [List.nil_append, splitOn, hc, if_true, List.singleton_append]
  | cons a x ih =>
    rw [List.cons_append, splitOn, splitOn, ih]
    split
    · rw [List.cons_append]
    · cases hx : splitOn p x with
      | nil => exact absurd hx (splitOn_ne_nil p x)
      | cons part parts => rfl

/-- There are no separators in parts. -/
theorem eq_false_of_mem_splitOn {t part : Text α} (h : part ∈ splitOn p t) : ∀ c ∈ part, p c = false := by
  induction t generalizing part with
  | nil =>
    obtain rfl := List.mem_singleton.mp h
    exact nofun
  | cons a t ih =>
    rw [splitOn] at h
    split at h
    · rcases List.mem_cons.mp h with rfl | h
      · exact nofun
      · exact ih h
    · rename_i ha
      split at h
      · obtain rfl := List.mem_singleton.mp h
        exact List.forall_mem_singleton.mpr (by simpa using ha)
      · rename_i first parts ht
        rw [ht] at ih
        rcases List.mem_cons.mp h with rfl | h
        · exact List.forall_mem_cons.mpr ⟨by simpa using ha, ih List.mem_cons_self⟩
        · exact ih (List.mem_cons_of_mem _ h)

/-- Parts hold only what the text holds. -/
theorem mem_of_mem_splitOn {t part : Text α} (h : part ∈ splitOn p t) {c : α} (hc : c ∈ part) :
    c ∈ t := by
  induction t generalizing part with
  | nil =>
    obtain rfl := List.mem_singleton.mp h
    exact hc
  | cons a t ih =>
    rw [splitOn] at h
    split at h
    · rcases List.mem_cons.mp h with rfl | h
      · exact absurd hc List.not_mem_nil
      · exact List.mem_cons_of_mem a (ih h hc)
    · split at h
      · obtain rfl := List.mem_singleton.mp h
        exact List.mem_singleton.mp hc ▸ List.mem_cons_self
      · rename_i first parts ht
        rw [ht] at ih
        rcases List.mem_cons.mp h with rfl | h
        · rcases List.mem_cons.mp hc with rfl | hc
          · exact List.mem_cons_self
          · exact List.mem_cons_of_mem a (ih List.mem_cons_self hc)
        · exact List.mem_cons_of_mem a (ih (List.mem_cons_of_mem first h) hc)

/-- Text without separators at the end of a text goes on with its last part. -/
theorem exists_splitOn_append {y : Text α} (hy : ∀ c ∈ y, p c = false) (t : Text α) :
    ∃ ps w, splitOn p t = ps ++ [w] ∧ splitOn p (t ++ y) = ps ++ [w ++ y] := by
  induction t with
  | nil => exact ⟨[], [], rfl, splitOn_of_forall hy⟩
  | cons a t ih =>
    obtain ⟨ps, w, ht, hty⟩ := ih
    rw [List.cons_append, splitOn, splitOn, ht, hty]
    split
    · exact ⟨[] :: ps, w, rfl, rfl⟩
    · cases ps with
      | nil => exact ⟨[], a :: w, rfl, rfl⟩
      | cons q ps => exact ⟨(a :: q) :: ps, w, rfl, rfl⟩

/-- Only what stands behind a separator counts for the last part. -/
theorem afterLast_append_cons {c : α} (hc : p c = true) (x y : Text α) :
    afterLast p (x ++ c :: y) = afterLast p y := by
  rw [afterLast, afterLast, splitOn_append_cons hc]
  simp only [List.getLastD_eq_getLast?, List.getLast?_append]
  cases hy : (splitOn p y).getLast? with
  | none => exact absurd (List.getLast?_eq_none_iff.mp hy) (splitOn_ne_nil p y)
  | some last => rfl

theorem mem_of_mem_afterLast {t : Text α} {c : α} (h : c ∈ afterLast p t) : c ∈ t := by
  rw [afterLast, List.getLastD_eq_getLast?, List.getLast?_eq_some_getLast (splitOn_ne_nil p t)] at h
  exact mem_of_mem_splitOn (List.getLast_mem (splitOn_ne_nil p t)) h

theorem join_concat {separator : Text α} {parts : List (Text α)} (h : parts ≠ []) (a : Text α) :
    join separator (parts ++ [a]) = join separator parts ++ (separator ++ a) := by
  induction parts with
  | nil => exact absurd rfl h
  | cons b parts ih =>
    cases parts with
    | nil =>
      rw [join, List.singleton_append, List.intercalate_cons_cons, List.intercalate_singleton, join,
        List.intercalate_singleton, List.append_assoc]
    | cons d parts =>
      rw [List.cons_append, List.cons_append, join, join, List.intercalate_cons_cons,
        List.intercalate_cons_cons, ← List.cons_append, List.append_assoc, List.append_assoc,
        List.append_assoc]
      exact congrArg _ (congrArg _ (ih (List.cons_ne_nil _ _)))

/-- Parts that were put together are taken apart again. -/
theorem splitOn_join {c : α} (hc : p c = true) {parts : List (Text α)} (hne : parts ≠ [])
    (h : ∀ part ∈ parts, ∀ a ∈ part, p a = false) : splitOn p (join [c] parts) = parts := by
  induction parts with
  | nil => exact absurd rfl hne
  | cons a parts ih =>
    obtain ⟨ha, hparts⟩ := List.forall_mem_cons.mp h
    cases parts with
    | nil => rw [join, List.intercalate_singleton, splitOn_of_forall ha]
    | cons b parts =>
      rw [join, List.intercalate_cons_cons, List.append_assoc, List.singleton_append,
        splitOn_append_cons hc, splitOn_of_forall ha, ← join, ih (List.cons_ne_nil _ _) hparts,
        List.singleton_append]

end Text

namespace FileName

open Alphabet

variable {α : Type} [DecidableEq α] [Alphabet α]

/-- What a part of a name is like: it is not left out and holds no slash. -/
structure IsPart (part : Text α) : Prop where
  counts : (part.isEmpty || part == [ofChar '.']) = false
  solid : ∀ c ∈ part, (c == slash) = false

theorem IsPart.ne_nil {part : Text α} (h : IsPart part) : part ≠ [] := by
  rintro rfl
  exact nomatch h.counts

theorem isPart_of_mem_parts {t part : Text α} (h : part ∈ parts t) : IsPart part := by
  obtain ⟨hmem, hcounts⟩ := List.mem_filter.mp h
  exact ⟨by simpa using hcounts, Text.eq_false_of_mem_splitOn hmem⟩

theorem parts_cons_slash (t : Text α) : parts (slash :: t) = parts t := by
  rw [parts, Text.splitOn, if_pos (beq_self_eq_true _), List.filter_cons_of_neg (by simp), parts]

theorem parts_join {ps : List (Text α)} (h : ∀ part ∈ ps, IsPart part) :
    parts (Text.join [slash] ps) = ps := by
  cases ps with
  | nil => rfl
  | cons a ps =>
    have hsplit := Text.splitOn_join (p := (· == slash)) (beq_self_eq_true slash) (List.cons_ne_nil a ps)
      fun part hpart => (h part hpart).solid
    rw [parts, hsplit]
    exact List.filter_eq_self.mpr fun part hpart => by rw [(h part hpart).counts]; rfl

/-- An absolute name starts with one slash or two. -/
theorem root_cases (t : Text α) : root t = [] ∨ root t = [slash] ∨ root t = [slash, slash] := by
  unfold root
  split
  · exact .inl rfl
  · exact .inr (.inr rfl)
  · exact .inr (.inl rfl)

theorem parts_dot : parts [(ofChar '.' : α)] = [] := by
  have hdot : ∀ c ∈ [(ofChar '.' : α)], (c == slash) = false :=
    List.forall_mem_singleton.mpr (beq_eq_false_iff_ne.mpr (by simp [slash]))
  rw [parts, Text.splitOn_of_forall hdot, List.filter_cons_of_neg (by simp), List.filter_nil]

/-- A normal name has the parts of the name that it was made of. -/
theorem parts_normal (t : Text α) : parts (normal t) = parts t := by
  have hroot : parts (root t ++ Text.join [slash] (parts t)) = parts t := by
    have hjoin := parts_join fun part (h : part ∈ parts t) => isPart_of_mem_parts h
    rcases root_cases t with h | h | h <;> rw [h]
    · exact hjoin
    · exact (parts_cons_slash _).trans hjoin
    · exact (parts_cons_slash _).trans ((parts_cons_slash _).trans hjoin)
  rw [normal]
  split
  · rename_i h
    rw [h] at hroot
    exact parts_dot.trans hroot
  · exact hroot

/-- A normal name with parts ends in the last of them, which stands at its front or
behind a slash. -/
theorem exists_normal_eq {t : Text α} (h : parts t ≠ []) :
    normal t = last t ∨ ∃ x, normal t = x ++ slash :: last t := by
  obtain ⟨ps, part, hps⟩ := (List.eq_nil_or_concat' (parts t)).resolve_left h
  have hlast : last t = part := by rw [last, hps, List.getLastD_concat]
  have hpart : part ≠ [] := (isPart_of_mem_parts (t := t) (by rw [hps]; simp)).ne_nil
  -- The last part is not empty, so neither is the name that is put together.
  have hnormal {x : Text α} (hx : root t ++ Text.join [slash] (parts t) = x ++ part) :
      normal t = x ++ part := by
    rw [normal, hx]
    split
    · rename_i hnil
      exact absurd (List.append_eq_nil_iff.mp hnil).2 hpart
    · rfl
  rw [hlast]
  by_cases hne : ps = []
  · have hone : Text.join [slash] (parts t) = part := by
      rw [hps, hne, List.nil_append, Text.join, List.intercalate_singleton]
    rcases root_cases t with hr | hr | hr
    · exact .inl (hnormal (x := []) (by rw [hr, hone]))
    · exact .inr ⟨[], hnormal (x := [slash]) (by rw [hr, hone])⟩
    · exact .inr ⟨[slash], hnormal (x := [slash, slash]) (by rw [hr, hone])⟩
  · refine .inr ⟨root t ++ Text.join [slash] ps, ?_⟩
    have := hnormal (x := root t ++ Text.join [slash] ps ++ [(slash : α)]) (by
      rw [hps, Text.join_concat hne, List.append_assoc, List.append_assoc])
    rw [this, List.append_assoc]
    rfl

/-- What stands behind the last separator of a normal name is found in its last part, if a
slash is a separator. -/
theorem afterLast_normal {q : α → Bool} (hq : q slash = true) {t : Text α} (h : parts t ≠ []) :
    (normal t).afterLast q = (last t).afterLast q := by
  rcases exists_normal_eq h with he | ⟨x, he⟩ <;> rw [he]
  exact Text.afterLast_append_cons hq x _

theorem last_normal (t : Text α) : last (normal t) = last t := by
  rw [last, last, parts_normal]

theorem last_eq_nil_or_isPart (t : Text α) : last t = [] ∨ IsPart (last t) := by
  rw [last]
  rcases List.eq_nil_or_concat' (parts t) with h | ⟨ps, part, h⟩
  · exact .inl (by rw [h]; rfl)
  · rw [h, List.getLastD_concat]
    exact .inr (isPart_of_mem_parts (t := t) (by rw [h]; simp))

theorem mem_of_mem_last {c : α} {t : Text α} (h : c ∈ last t) : c ∈ t := by
  rw [last] at h
  rcases List.eq_nil_or_concat' (parts t) with hp | ⟨ps, part, hp⟩
  · rw [hp] at h
    exact absurd h List.not_mem_nil
  · rw [hp, List.getLastD_concat] at h
    have hpart : part ∈ parts t := by rw [hp]; exact List.mem_append_right ps (List.mem_singleton_self part)
    exact Text.mem_of_mem_splitOn (List.mem_of_mem_filter hpart) h

theorem slash_not_mem_last (t : Text α) : slash ∉ last t := by
  rcases last_eq_nil_or_isPart t with h | h
  · rw [h]
    exact List.not_mem_nil
  · exact fun hmem => absurd (h.solid _ hmem) (by simp)

/-- In front of the last part of a name there is nothing, a slash or a dot. -/
theorem front_of_last {x t : Text α} (h : t = x ++ last t) :
    x = [] ∨ ∃ y, x = y ++ [(slash : α)] ∨ x = y ++ [(ofChar '.' : α)] := by
  rcases List.eq_nil_or_concat' x with hx | ⟨y, c, hx⟩
  · exact .inl hx
  · refine .inr ⟨y, ?_⟩
    by_cases hc : c = slash
    · exact .inl (by rw [hx, hc])
    · -- The part that ends the name begins before the last one that counts.
      have hsolid : ∀ d ∈ c :: last t, (d == slash) = false := by
        refine List.forall_mem_cons.mpr ⟨beq_eq_false_iff_ne.mpr hc, fun d hd => ?_⟩
        exact beq_eq_false_iff_ne.mpr fun e => slash_not_mem_last t (e ▸ hd)
      obtain ⟨ps, w, -, hsplit⟩ := Text.exists_splitOn_append hsolid y
      have ht : t = y ++ c :: last t := by rwa [hx, List.append_assoc] at h
      rw [← ht] at hsplit
      by_cases hdot : w ++ c :: last t = [ofChar '.']
      · refine .inr ?_
        cases w with
        | nil => rw [hx, (List.cons_eq_cons.mp hdot).1]
        | cons a w => exact absurd (congrArg List.length hdot) (by simp)
      · have hlast : last t = w ++ c :: last t := by
          conv_lhs => rw [last, parts, hsplit]
          rw [List.filter_append, List.filter_cons_of_pos (by simp [hdot]), List.filter_nil,
            List.getLastD_concat]
        have := congrArg List.length hlast
        simp only [List.length_append, List.length_cons] at this
        omega

theorem withoutExtension_prefix_name (part : Text α) : withoutExtension part <+: part := by
  rw [withoutExtension]
  split
  · exact List.take_prefix _ _
  · exact List.prefix_rfl

theorem mem_of_mem_stem {c : α} {t : Text α} (h : c ∈ stem t) : c ∈ t :=
  mem_of_mem_last ((withoutExtension_prefix_name _).mem h)

theorem slash_not_mem_stem (t : Text α) : slash ∉ stem t := fun h =>
  slash_not_mem_last t ((withoutExtension_prefix_name _).mem h)

/-! ## Names that are texts -/

theorem slash_eq (c : Char) : ((ofChar c : α) == slash) = (c == '/') := by
  simp [slash, beq_eq_decide]

theorem parts_embed (t : Text) : parts (embed t : Text α) = (parts t).map embed := by
  rw [parts, Text.splitOn_embed slash_eq, parts, List.filter_map]
  refine congrArg _ (List.filter_congr fun part _ => ?_)
  have hdot : ((embed part : Text α) == [ofChar '.']) = (part == ['.']) := by
    rw [← embed_nil, ← embed_cons, Bool.eq_iff_iff, beq_iff_eq, beq_iff_eq, embed_inj]
  rw [Function.comp_apply, isEmpty_embed, hdot]
  rfl

theorem last_embed (t : Text) : last (embed t : Text α) = embed (last t) := by
  rw [last, parts_embed, last, List.getLastD_eq_getLast?, List.getLastD_eq_getLast?, List.getLast?_map,
    ← embed_nil, Option.getD_map]

theorem withoutExtension_embed (part : Text) :
    withoutExtension (embed part : Text α) = embed (withoutExtension part) := by
  have hextension : ((embed part.reverse : Text α).takeWhile (· != ofChar '.')).length =
      (part.reverse.takeWhile (· != '.')).length := by
    rw [embed_eq_map, List.takeWhile_map, List.length_map]
    refine congrArg (fun p => (part.reverse.takeWhile p).length) (funext fun c => ?_)
    simp [bne, beq_eq_decide]
  simp only [withoutExtension, reverse_embed, length_embed, hextension, ne_eq, ← List.length_eq_zero_iff,
    ofChar_char]
  split
  · rw [embed_take]
  · rfl

theorem stem_embed (t : Text) : stem (embed t : Text α) = embed (stem t) := by
  rw [stem, last_embed, withoutExtension_embed, stem]

end FileName

end Worksheet
