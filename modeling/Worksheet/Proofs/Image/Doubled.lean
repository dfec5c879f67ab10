import Mathlib.Data.List.Pairwise
import Worksheet.Proofs.Image.Forward

/-!
# Tags that are counted twice

The images with `src` and those with `sc` are found by two searches. In each of them the
tags stand apart (`pairwise_allWith`), but a tag that can be read both ways is found twice:
it is enough that the name of another attribute ends with `sc`, as `longdesc` does.

* `exists_start_iff`: where a tag can be read, one is found, unless another one goes over the
  place;
* `not_nodup_starts_iff`: when two images of a text start at one place.
-/

namespace Worksheet.Image

open Pattern

variable {attr : Text} {misspelt : Bool} {t : Text} {i j : Image}

/-! ## One attribute -/

theorem ne_nil_of_reads {u : Text} {gs : List Text} (hu : (pattern attr).Reads u gs) : u ≠ [] := by
  obtain ⟨src, -, htag⟩ := isTag_of_reads hu
  obtain ⟨c, v, rfl, -⟩ := htag.front
  exact List.cons_ne_nil _ _

/-- Tags that one search finds do not overlap. -/
theorem pairwise_allWith (attr : Text) (misspelt : Bool) (t : Text) :
    (allWith attr misspelt t).Pairwise fun i j => i.stop ≤ j.start := by
  refine List.pairwise_map.mpr ((pairwise_scanFrom (pattern attr) 0 0 t).imp fun {a b} h => ?_)
  rw [Match.stop] at h
  rw [stop]
  simp only
  omega

theorem start_lt_stop (hi : i ∈ allWith attr misspelt t) : i.start < i.stop := by
  obtain ⟨m, hm, rfl⟩ := List.mem_map.mp hi
  have hpos := List.length_pos_iff.mpr (ne_nil_of_reads (mem_scan hm).2)
  rw [stop]
  simp only
  omega

theorem nodup_starts_allWith (attr : Text) (misspelt : Bool) (t : Text) :
    ((allWith attr misspelt t).map (·.start)).Nodup := by
  refine List.pairwise_map.mpr ((pairwise_allWith attr misspelt t).imp_of_mem fun hi _ h => ?_)
  exact Int.ne_of_lt (Int.lt_of_lt_of_le (start_lt_stop hi) h)

/-- Of two tags that one search finds, one ends in front of the other, or they are the same. -/
theorem eq_or_stop_le (hi : i ∈ allWith attr misspelt t) (hj : j ∈ allWith attr misspelt t) :
    i = j ∨ i.stop ≤ j.start ∨ j.stop ≤ i.start := by
  have : Std.Symm fun i j : Image => i.stop ≤ j.start ∨ j.stop ≤ i.start := ⟨fun _ _ h => h.symm⟩
  have hpairwise : (allWith attr misspelt t).Pairwise fun i j => i.stop ≤ j.start ∨ j.stop ≤ i.start :=
    (pairwise_allWith attr misspelt t).imp Or.inl
  exact or_iff_not_imp_left.mpr fun hne => hpairwise.forall hi hj hne

/-- A tag is found at a place if and only if one can be read there and no tag that is found
goes over the place. -/
theorem exists_start_iff (hattr : attr ∈ attributes) {k : Nat} :
    (∃ j ∈ allWith attr misspelt t, j.start = k) ↔
      (forward? attr (t.drop k)).isSome = true ∧
        ∀ j ∈ allWith attr misspelt t, j.start < k → j.stop ≤ k := by
  constructor
  · rintro ⟨j, hj, hstart⟩
    refine ⟨?_, fun i hi hlt => ?_⟩
    · obtain ⟨a, h, z, b, hplace⟩ := exists_placed hattr hj
      obtain rfl : a.length = k := by
        rw [← Int.natCast_inj, ← hplace.start, hstart]
      rw [Option.isSome_iff_exists]
      refine ⟨(j.src, b), forward?_eq_some_iff.mpr ⟨h, z, ?_, hplace.head, hplace.quote, hplace.tail⟩⟩
      rw [hplace.text, List.drop_left]
    · have := start_lt_stop hj
      rcases eq_or_stop_le hi hj with rfl | h | h <;> omega
  · rintro ⟨hread, hover⟩
    obtain ⟨⟨v, w⟩, hread⟩ := Option.isSome_iff_exists.mp hread
    obtain ⟨h, z, htext, hh, hv, hz⟩ := forward?_eq_some_iff.mp hread
    have hpre : h ++ (v ++ z) <+: t.drop k := ⟨w, by rw [htext]; simp only [List.append_assoc]⟩
    rcases exists_start_or_straddles (fun _ _ => ne_nil_of_reads) (reads_pattern hh.head hv hz) hpre with
      ⟨m, hm, hstart⟩ | ⟨m, hm, hlt, hgt⟩
    · exact ⟨_, List.mem_map_of_mem hm, by simp only [hstart]⟩
    · have hover := hover _ (List.mem_map_of_mem hm) (Int.ofNat_lt.mpr hlt)
      rw [stop] at hover
      rw [Match.stop] at hgt
      simp only at hover
      omega

/-! ## Both attributes -/

theorem mem_src_iff : i ∈ allWith (lit "src") false t ↔ i ∈ all t ∧ i.misspelt = false := by
  refine ⟨fun h => ⟨List.mem_append_left _ h, (mem_allWith_iff.mp h).1⟩, fun ⟨h, hsrc⟩ => ?_⟩
  refine (List.mem_append.mp h).resolve_right fun h => ?_
  exact nomatch (mem_allWith_iff.mp h).1.symm.trans hsrc

theorem mem_sc_iff : i ∈ allWith (lit "sc") true t ↔ i ∈ all t ∧ i.misspelt = true := by
  refine ⟨fun h => ⟨List.mem_append_right _ h, (mem_allWith_iff.mp h).1⟩, fun ⟨h, hsc⟩ => ?_⟩
  refine (List.mem_append.mp h).resolve_left fun h => ?_
  exact nomatch (mem_allWith_iff.mp h).1.symm.trans hsc

/-- Where two images start at one place, they were found with different attributes. -/
theorem nodup_starts_iff :
    ((all t).map (·.start)).Nodup ↔
      ¬ ∃ i ∈ allWith (lit "src") false t, ∃ j ∈ allWith (lit "sc") true t, j.start = i.start := by
  rw [all, List.map_append, List.nodup_append]
  constructor
  · rintro ⟨-, -, hdistinct⟩ ⟨i, hi, j, hj, hstart⟩
    exact hdistinct _ (List.mem_map_of_mem hi) _ (List.mem_map_of_mem hj) hstart.symm
  · intro hnone
    refine ⟨nodup_starts_allWith _ _ t, nodup_starts_allWith _ _ t, fun a ha b hb hab => hnone ?_⟩
    obtain ⟨i, hi, rfl⟩ := List.mem_map.mp ha
    obtain ⟨j, hj, rfl⟩ := List.mem_map.mp hb
    exact ⟨i, hi, j, hj, hab.symm⟩

/-- No more than two images of a text start at one place. Two of them do if and only if a tag
with `src` can also be read as one with `sc`, and no tag with `sc` that is found before goes
over its place. -/
theorem not_nodup_starts_iff (t : Text) :
    (∀ k, ((all t).map (·.start)).count k ≤ 2) ∧
    (¬ ((all t).map (·.start)).Nodup ↔
      ∃ i ∈ all t, i.misspelt = false ∧ ∃ k : Nat, i.start = k ∧
        (forward? (lit "sc") (t.drop k)).isSome = true ∧
        ∀ j ∈ all t, j.misspelt = true → j.start < k → j.stop ≤ k) := by
  refine ⟨fun k => ?_, ?_⟩
  · have hsrc := List.nodup_iff_count_le_one.mp (nodup_starts_allWith (lit "src") false t) k
    have hsc := List.nodup_iff_count_le_one.mp (nodup_starts_allWith (lit "sc") true t) k
    rw [all, List.map_append, List.count_append]
    omega
  · rw [nodup_starts_iff, not_not]
    have hattr : lit "sc" ∈ attributes := by simp [attributes]
    constructor
    · rintro ⟨i, hi, j, hj, hstart⟩
      obtain ⟨hall, hsrc⟩ := mem_src_iff.mp hi
      obtain ⟨k, hk, -⟩ := bounds_of_mem_all hall
      obtain ⟨hread, hover⟩ := (exists_start_iff hattr).mp ⟨j, hj, hstart.trans hk⟩
      exact ⟨i, hall, hsrc, k, hk, hread, fun j hj hsc => hover j (mem_sc_iff.mpr ⟨hj, hsc⟩)⟩
    · rintro ⟨i, hall, hsrc, k, hk, hread, hover⟩
      have hover' : ∀ j ∈ allWith (lit "sc") true t, j.start < k → j.stop ≤ k := fun j hj =>
        hover j (mem_sc_iff.mp hj).1 (mem_sc_iff.mp hj).2
      obtain ⟨j, hj, hstart⟩ := (exists_start_iff hattr).mpr ⟨hread, hover'⟩
      exact ⟨i, mem_src_iff.mpr ⟨hall, hsrc⟩, j, hj, hstart.trans hk.symm⟩

/-- An image with a long description, which is at the place of the image itself. -/
def described : Text := lit "<img src=\"a_files/1.png\" longdesc=\"a_files/1.png\">"

theorem not_nodup_starts_described : ¬ ((all described).map (·.start)).Nodup := by
  decide +kernel

end Worksheet.Image
