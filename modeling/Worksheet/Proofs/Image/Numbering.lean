import Mathlib.Data.List.Nodup
import Mathlib.Data.List.ReduceOption
import Mathlib.Data.List.Sort
import Worksheet.Image.Numbering
import Worksheet.Proofs.Fault

/-!
# Numbers with nothing wrong

There is nothing wrong with the numbers of images if and only if they are, in
ascending order, the first number, the one after it, and so on
(`Numbering.problems_eq_nil_iff`).
-/

namespace Worksheet.Numbering

/-- The numbers are a first one and those that follow it, without gaps. -/
def Consecutive (first : Int) (numbers : List Nat) : Prop :=
  numbers.map (fun n : Nat => (n : Int)) = (List.range numbers.length).map fun k : Nat => first + k

instance (first : Int) (numbers : List Nat) : Decidable (Consecutive first numbers) :=
  inferInstanceAs (Decidable (_ = _))

theorem consecutive_cons {first : Int} {n : Nat} {rest : List Nat} :
    Consecutive first (n :: rest) ↔ (n : Int) = first ∧ Consecutive (first + 1) rest := by
  rw [Consecutive, Consecutive, List.length_cons, List.range_succ_eq_map, List.map_cons, List.map_cons,
    List.cons_eq_cons, List.map_map, Int.natCast_zero, Int.add_zero]
  have hshift : (List.range rest.length).map ((fun k : Nat => first + (k : Int)) ∘ Nat.succ) =
      (List.range rest.length).map fun k : Nat => first + 1 + (k : Int) :=
    List.map_congr_left fun k _ => by
      simp only [Function.comp_apply, Nat.succ_eq_add_one, Int.natCast_add]
      omega
  rw [hshift]

theorem gapsIn_eq_nil_iff {n : Nat} {rest : List Nat} :
    gapsIn (n :: rest) = [] ↔ Consecutive ((n : Int) + 1) rest := by
  induction rest generalizing n with
  | nil => exact ⟨fun _ => rfl, fun _ => rfl⟩
  | cons m rest ih =>
    rw [gapsIn, List.append_eq_nil_iff, ih, consecutive_cons]
    constructor
    · rintro ⟨hm, h⟩
      split at hm
      · rename_i hmn
        subst hmn
        exact ⟨rfl, h⟩
      · exact absurd hm (List.cons_ne_nil _ _)
    · rintro ⟨hm, h⟩
      obtain rfl : m = n + 1 := by omega
      exact ⟨if_pos rfl, h⟩

theorem pairwise_ordered (numbers : List Nat) : (ordered numbers).Pairwise (· ≤ ·) :=
  List.pairwise_mergeSort' (· ≤ ·) numbers

/-- Numbers without gaps are distinct. -/
theorem Consecutive.nodup {first : Int} {numbers : List Nat} (h : Consecutive first numbers) :
    numbers.Nodup := by
  have hrange : ((List.range numbers.length).map fun k : Nat => first + (k : Int)).Nodup :=
    List.nodup_range.map fun a b hab => by
      have : first + (a : Int) = first + (b : Int) := hab
      omega
  rw [Consecutive] at h
  rw [← h] at hrange
  exact hrange.of_map

theorem duplicates_eq_nil {numbers : List Nat} (h : (ordered numbers).Nodup) :
    duplicates numbers = [] := by
  have hn : numbers.Nodup := (List.mergeSort_perm ..).nodup_iff.mp h
  rw [duplicates, List.map_eq_nil_iff, List.filter_eq_nil_iff]
  intro n _ hcount
  have := List.nodup_iff_count_le_one.mp hn n
  simp only [decide_eq_true_eq] at hcount
  omega

/-- There is nothing wrong with numbers if and only if, in ascending order, they
start at the first number and have neither gaps nor repetitions. -/
theorem problems_eq_nil_iff {first : Int} {numbers : List Nat} :
    problems first numbers = [] ↔ Consecutive first (ordered numbers) := by
  rw [problems, List.append_eq_nil_iff, List.append_eq_nil_iff, wrongStart, gaps]
  have hdup : (ordered numbers).Nodup → duplicates numbers = [] := duplicates_eq_nil
  cases hns : ordered numbers with
  | nil =>
    rw [hns] at hdup
    exact ⟨fun _ => rfl, fun _ => ⟨⟨hdup List.nodup_nil, rfl⟩, rfl⟩⟩
  | cons n rest =>
    rw [hns] at hdup
    rw [gapsIn_eq_nil_iff, List.head?_cons, consecutive_cons]
    constructor
    · rintro ⟨⟨-, hstart⟩, hgaps⟩
      by_cases hn : (n : Int) = first
      · exact ⟨hn, hn ▸ hgaps⟩
      · exact absurd ((if_neg hn).symm.trans hstart) (List.cons_ne_nil _ _)
    · rintro ⟨rfl, hrest⟩
      exact ⟨⟨hdup (consecutive_cons.mpr ⟨rfl, hrest⟩).nodup, if_pos rfl⟩, hrest⟩

/-! ## Findings -/

/-- The numbers of the images that have one. -/
theorem numbered_eq_ok {images : List Image} {numbers : List (Nat × Image)}
    (h : numbered images = .ok numbers) :
    ∃ ns, images.mapM (fun i => Image.number i.src) = .ok ns ∧
      numbers.map (·.1) = ns.reduceOption := by
  induction images generalizing numbers with
  | nil =>
    obtain rfl := Except.ok.inj h
    exact ⟨[], rfl, rfl⟩
  | cons i is ih =>
    rw [numbered] at h
    obtain ⟨n?, hn, h⟩ := bind_eq_ok.mp h
    cases n? with
    | none =>
      obtain ⟨ns, hns, he⟩ := ih h
      refine ⟨none :: ns, ?_, by rw [List.reduceOption_cons_of_none, ← he]⟩
      rw [List.mapM_cons, bind_eq_ok]
      exact ⟨none, hn, bind_eq_ok.mpr ⟨ns, hns, rfl⟩⟩
    | some n =>
      obtain ⟨rest, hrest, h⟩ := bind_eq_ok.mp h
      obtain rfl := Except.ok.inj h
      obtain ⟨ns, hns, he⟩ := ih hrest
      refine ⟨some n :: ns, ?_, by rw [List.reduceOption_cons_of_some, ← he]; rfl⟩
      rw [List.mapM_cons, bind_eq_ok]
      exact ⟨some n, hn, bind_eq_ok.mpr ⟨ns, hns, rfl⟩⟩

theorem exists_numbered_iff {images : List Image} :
    (∃ numbers, numbered images = .ok numbers) ↔ ∀ i ∈ images, ∃ n?, Image.number i.src = .ok n? := by
  induction images with
  | nil => exact ⟨fun _ _ h => absurd h List.not_mem_nil, fun _ => ⟨[], rfl⟩⟩
  | cons i is ih =>
    rw [List.forall_mem_cons, ← ih, numbered]
    constructor
    · rintro ⟨numbers, h⟩
      obtain ⟨n?, hn, h⟩ := bind_eq_ok.mp h
      refine ⟨⟨n?, hn⟩, ?_⟩
      cases n? with
      | none => exact ⟨numbers, h⟩
      | some n =>
        obtain ⟨rest, hrest, -⟩ := bind_eq_ok.mp h
        exact ⟨rest, hrest⟩
    · rintro ⟨⟨n?, hn⟩, rest, hrest⟩
      cases n? with
      | none => exact ⟨rest, bind_eq_ok.mpr ⟨none, hn, hrest⟩⟩
      | some n => exact ⟨(n, i) :: rest, bind_eq_ok.mpr ⟨some n, hn, bind_eq_ok.mpr ⟨rest, hrest, rfl⟩⟩⟩

/-- There are no findings about the numbers of images if and only if there is
nothing wrong with them. -/
theorem findings_eq_nil_iff {images : List Image} {s : Settings} {ds : List Diagnostic}
    (h : findings images s = .ok ds) :
    ∃ ns, images.mapM (fun i => Image.number i.src) = .ok ns ∧
      (ds = [] ↔ Consecutive s.images.firstNumber (ordered ns.reduceOption)) := by
  obtain ⟨numbers, hn, h⟩ := bind_eq_ok.mp h
  obtain ⟨ns, hns, he⟩ := numbered_eq_ok hn
  refine ⟨ns, hns, ?_⟩
  rw [← he, ← problems_eq_nil_iff]
  exact nil_iff_of_mapM_eq_ok h

end Worksheet.Numbering
