import Worksheet.Proofs.Image.Shape
import Worksheet.Proofs.Image.Typo

/-!
# Image tags that are taken for mistyped ones

The search for a mistyped tag can hit a tag whose attribute is spelt right, as
any such tag also looks like one with a mistyped attribute: `src` ends with `rc`.
When this happens is said by `Typo.Mistaken`, for the window in which the search takes
place; `Typo.exists_typo_at_image_iff` says it for a whole document.
-/

namespace Worksheet.Typo

/-! ## The search in a window -/

/-- The search in a window ends at offset `k`, with a mistyped attribute: there is
no mistyped name in the window, and no such attribute before `k`. -/
structure Mistaken (w : Text) (k : Nat) : Prop where
  names : ∀ name ∈ names, ∀ u, Misnamed name u → ¬ u <:+: w
  here : ∃ u, Misattributed u ∧ u <+: w.drop k
  before : ∀ j < k, ∀ u, Misattributed u → ¬ u <+: w.drop j

theorem findSome?_names_eq_none_iff {w : Text} :
    (names.map namePattern).findSome? (·.find? w) = none ↔
      ∀ name ∈ names, ∀ u, Misnamed name u → ¬ u <:+: w := by
  rw [List.findSome?_eq_none_iff]
  simp only [List.forall_mem_map, Pattern.find?_eq_none_iff, reads_namePattern_iff]
  constructor
  · intro h name hname u hu
    exact h name hname u [] ⟨hu, rfl⟩
  · rintro h name hname u gs ⟨hu, -⟩
    exact h name hname u hu

theorem find?_misattributed_iff {w : Text} {k : Nat} :
    (∃ m, misattributed.find? w = some m ∧ m.start = k) ↔
      (∃ u, Misattributed u ∧ u <+: w.drop k) ∧
        ∀ j < k, ∀ u, Misattributed u → ¬ u <+: w.drop j := by
  constructor
  · rintro ⟨m, hm, rfl⟩
    obtain ⟨-, hpre, hreads, hfirst⟩ := Pattern.find?_eq_some hm
    exact ⟨⟨m.text, (reads_misattributed_iff.mp hreads).1, hpre⟩, fun j hj u hu =>
      hfirst j hj u [] (reads_misattributed_iff.mpr ⟨hu, rfl⟩)⟩
  · rintro ⟨⟨u, hu, hpre⟩, hbefore⟩
    have hread := reads_misattributed_iff.mpr ⟨hu, rfl⟩
    cases hm : misattributed.find? w with
    | none =>
      exact absurd (Pattern.infix_of_prefix_drop hpre) (Pattern.find?_eq_none_iff.mp hm u [] hread)
    | some m =>
      obtain ⟨-, hpre', hreads, hfirst⟩ := Pattern.find?_eq_some hm
      refine ⟨m, rfl, Nat.le_antisymm (Nat.not_lt.mp fun h => ?_) (Nat.not_lt.mp fun h => ?_)⟩
      · exact hfirst k h u [] hread hpre
      · exact hbefore m.start h m.text (reads_misattributed_iff.mp hreads).1 hpre'

/-- Where no tag with a mistyped name starts, the search ends if and only if it is
mistaken. -/
theorem exists_inWindow?_iff {w : Text} {k : Nat}
    (hk : ∀ name ∈ names, ∀ u, Misnamed name u → ¬ u <+: w.drop k) :
    (∃ m, inWindow? w = some m ∧ m.start = k) ↔ Mistaken w k := by
  rw [inWindow?, patterns_eq, List.findSome?_append]
  cases hnames : (names.map namePattern).findSome? (·.find? w) with
  | none =>
    rw [Option.none_or, List.findSome?_singleton, find?_misattributed_iff]
    have hnone := findSome?_names_eq_none_iff.mp hnames
    exact ⟨fun ⟨hhere, hbefore⟩ => ⟨hnone, hhere, hbefore⟩, fun h => ⟨h.here, h.before⟩⟩
  | some m' =>
    rw [Option.some_or]
    constructor
    · rintro ⟨m, hm, rfl⟩
      obtain rfl := Option.some.inj hm
      obtain ⟨p, hp, hfind⟩ := List.exists_of_findSome?_eq_some hnames
      obtain ⟨name, hname, rfl⟩ := List.mem_map.mp hp
      obtain ⟨-, hpre, hreads, -⟩ := Pattern.find?_eq_some hfind
      exact absurd hpre (hk name hname m'.text (reads_namePattern_iff.mp hreads).1)
    · intro h
      rw [findSome?_names_eq_none_iff.mpr h.names] at hnames
      exact nomatch hnames

/-! ## The search in a document -/

/-- A window is a part of the text that starts at its offset. -/
theorem window_eq (t : Text) (n len radius : Nat) :
    ∃ stop, t.window n (n + len) radius =
      (((n - radius : Nat) : Int), (t.take stop).drop (n - radius)) :=
  ⟨_, Text.window_eq t n len radius⟩

theorem prefix_drop_of_window {t u : Text} {start stop k : Nat}
    (h : u <+: ((t.take stop).drop start).drop k) : u <+: t.drop (start + k) := by
  have htake := List.take_prefix stop t
  rw [List.drop_drop] at h
  exact h.trans (htake.drop (start + k))

/-- The reports on a path that start at an image tag. -/
theorem exists_typoReport_iff {t p : Text} {s : Settings} {n : Nat} {i : Image}
    (hi : i ∈ Image.all t) (hsrc : i.misspelt = false) :
    (∃ r, typoReport t s p n = some r ∧ (r.1.start : Int) = i.start) ↔
      ∃ k : Nat, i.start = (t.window n (n + p.length) s.images.typoWindow).1 + k ∧
        Mistaken (t.window n (n + p.length) s.images.typoWindow).2 k := by
  obtain ⟨o, ho, hpre, htag⟩ := Image.isTag_of_mem_all hi hsrc
  obtain ⟨stop, hw⟩ := window_eq t n p.length s.images.typoWindow
  have hnames {k : Nat} (hk : o = n - s.images.typoWindow + k) : ∀ name ∈ names, ∀ u,
      Misnamed name u → ¬ u <+: ((t.take stop).drop (n - s.images.typoWindow)).drop k := by
    intro name hname u hu h
    rw [hk] at hpre
    exact not_misnamed htag hpre hname hu (prefix_drop_of_window h)
  simp only [typoReport, hw, Option.map_eq_some_iff, ho]
  -- Offsets in the window are offsets in the text, less the start of the window.
  constructor
  · rintro ⟨_, ⟨m, hm, rfl⟩, hstart⟩
    have hstart' : ((n - s.images.typoWindow + m.start : Nat) : Int) = o := hstart
    exact ⟨m.start, by omega, (exists_inWindow?_iff (hnames (by omega))).mp ⟨m, hm, rfl⟩⟩
  · rintro ⟨k, hk, hmistaken⟩
    obtain ⟨m, hm, rfl⟩ := (exists_inWindow?_iff (hnames (by omega))).mpr hmistaken
    refine ⟨_, ⟨m, hm, rfl⟩, ?_⟩
    show ((n - s.images.typoWindow + m.start : Nat) : Int) = o
    omega

/-- The correction of a mistyped tag starts where the finding does. -/
theorem exists_fix_iff {t : Text} {s : Settings} {images : List Image} {d : Diagnostic} {o : Int}
    (hd : d ∈ findings t images s) (hcode : d.code = .imageTagTypo) :
    (∃ c, d.fix = some c ∧ (c.start : Int) = o) ↔ (d.start : Int) = o := by
  obtain ⟨m, -, -, n, r, -, hr, rfl⟩ := mem_findings_isTypo.mp ⟨hd, hcode⟩
  obtain ⟨m', -, rfl⟩ := Option.map_eq_some_iff.mp hr
  constructor
  · rintro ⟨c, hc, ho⟩
    obtain rfl := Option.some.inj hc
    exact ho
  · intro ho
    exact ⟨_, rfl, ho⟩

/-- An image tag with the right attribute is reported as a mistyped one if and only
if a path that belongs to no image has a window in which the search ends at this
tag. The correction of such a finding starts there as well. -/
theorem exists_typo_at_image_iff {t : Text} {s : Settings} {i : Image} (hi : i ∈ Image.all t)
    (hsrc : i.misspelt = false) :
    ((∃ d ∈ findings t (Image.all t) s, d.code = .imageTagTypo ∧ (d.start : Int) = i.start) ↔
      ∃ m ∈ pathPattern.scan t, (∀ j ∈ Image.all t, ¬ m.text <:+: j.src) ∧
        ∃ n k : Nat, Text.offsetOf? m.text t = some n ∧
          i.start = (t.window n (n + m.text.length) s.images.typoWindow).1 + k ∧
          Mistaken (t.window n (n + m.text.length) s.images.typoWindow).2 k) ∧
    ((∃ d ∈ findings t (Image.all t) s, d.code = .imageTagTypo ∧
        ∃ c, d.fix = some c ∧ (c.start : Int) = i.start) ↔
      ∃ d ∈ findings t (Image.all t) s, d.code = .imageTagTypo ∧ (d.start : Int) = i.start) := by
  constructor
  · constructor
    · rintro ⟨d, hd, hcode, hstart⟩
      obtain ⟨m, hm, himages, n, r, hn, hr, rfl⟩ := mem_findings_isTypo.mp ⟨hd, hcode⟩
      obtain ⟨k, hk⟩ := (exists_typoReport_iff hi hsrc).mp ⟨r, hr, hstart⟩
      exact ⟨m, hm, himages, n, k, hn, hk⟩
    · rintro ⟨m, hm, himages, n, k, hn, hk⟩
      obtain ⟨r, hr, hstart⟩ := (exists_typoReport_iff hi hsrc).mpr ⟨k, hk⟩
      obtain ⟨hd, hcode⟩ := mem_findings_isTypo.mpr ⟨m, hm, himages, n, r, hn, hr, rfl⟩
      exact ⟨r.1, hd, hcode, hstart⟩
  · exact exists_congr fun d => and_congr_right fun hd => and_congr_right fun hcode =>
      exists_fix_iff hd hcode

/-- An image tag with the right attribute in front of a bare path. -/
theorem exists_mistaken :
    ∃ m ∈ pathPattern.scan (lit "<img src=\"a.png\"> b_files/1.png"),
      (∀ j ∈ Image.all (lit "<img src=\"a.png\"> b_files/1.png"), ¬ m.text <:+: j.src) ∧
      ∃ n k : Nat, Text.offsetOf? m.text (lit "<img src=\"a.png\"> b_files/1.png") = some n ∧
        (0 : Int) = ((lit "<img src=\"a.png\"> b_files/1.png").window n (n + m.text.length) 50).1 + k ∧
        Mistaken ((lit "<img src=\"a.png\"> b_files/1.png").window n (n + m.text.length) 50).2 k :=
  (exists_typo_at_image_iff (t := lit "<img src=\"a.png\"> b_files/1.png") (s := {})
    (i := ⟨lit "<img src=\"a.png\">", lit "a.png", 0, false⟩) (by decide) rfl).1.mp
    (by decide)

/-- So an image tag with the right attribute can be reported as a mistyped one. -/
theorem typo_at_image : ¬ ∀ (t : Text) (s : Settings), ∀ i ∈ Image.all t, i.misspelt = false →
    ∀ d ∈ findings t (Image.all t) s, d.code = .imageTagTypo → (d.start : Int) ≠ i.start := by
  intro h
  have htypo : ∃ d ∈ findings (lit "<img src=\"a.png\"> b_files/1.png")
      (Image.all (lit "<img src=\"a.png\"> b_files/1.png")) {},
      d.code = .imageTagTypo ∧ (d.start : Int) = 0 := by
    decide
  obtain ⟨d, hd, hcode, hstart⟩ := htypo
  exact h _ {} ⟨lit "<img src=\"a.png\">", lit "a.png", 0, false⟩ (by decide) rfl d hd hcode hstart

end Worksheet.Typo
