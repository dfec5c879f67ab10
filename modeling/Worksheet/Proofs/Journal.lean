import Worksheet.Journal

/-!
# Calls that are not refused

A journal refuses a call if a field of the call, or of the current document, has a
name that is taken. Where no such name occurs (`Call.Plain`, `Journal.Open`), the
call is made (`Journal.Open.call_eq`); and calls do not change the fields of the
current document, so this stays so.
-/

namespace Worksheet

@[simp] theorem Fields.has_put (name : Text) (v : Value) (fs : Fields) (m : Text) :
    (fs.put name v).has m = (decide (name = m) || fs.has m) := by
  induction fs with
  | nil => simp [Fields.put, Fields.has]
  | cons f fs ih =>
    obtain ⟨n, w⟩ := f
    rw [Fields.put]
    split
    · rename_i hn
      subst hn
      simp [Fields.has]
    · simp only [Fields.has, List.any_cons] at ih ⊢
      rw [ih, Bool.or_left_comm]

/-- No field of a call has a name that is taken. -/
def Call.Plain (c : Call) : Prop := ∀ name ∈ lit "level" :: Journal.takenNames, c.fields.has name = false

/-- Only the names of the fields of a call matter. -/
theorem Call.plain_of_names {c : Call} (names : List Text) (hc : c.fields.map (·.1) = names)
    (h : ∀ name ∈ lit "level" :: Journal.takenNames, name ∉ names) : c.Plain := by
  intro name hname
  refine List.any_eq_false.mpr fun f hf hn => h name hname ?_
  rw [← hc, ← of_decide_eq_true hn]
  exact List.mem_map_of_mem hf

namespace Journal

/-- No field of the current document has a name that is taken. -/
def Open (j : Journal) : Prop := ∀ name ∈ takenNames, j.context.has name = false

/-- A call that is not refused leaves an event if it is admitted, and nothing otherwise. -/
theorem eq_of_call_eq_ok {j j' : Journal} {c : Call} (h : j.call c = .ok j') :
    j' = if j.admits c then { j with events := j.events ++ [j.eventOf c] } else j := by
  rw [call] at h
  split at h
  · exact nomatch h
  · cases hadmits : j.admits c with
    | false =>
      rw [hadmits] at h
      exact (Except.ok.inj h).symm
    | true =>
      rw [hadmits, if_neg (by decide)] at h
      split at h
      · exact nomatch h
      · split at h
        · exact nomatch h
        · exact (Except.ok.inj h).symm

@[simp] theorem context_record (j : Journal) (c : Call) : (j.record c).context = j.context := by
  rw [record]
  split
  · rename_i j' h
    rw [eq_of_call_eq_ok h]
    split <;> rfl
  · rfl

@[simp] theorem context_recordAll (j : Journal) (cs : List Call) :
    (j.recordAll cs).context = j.context := by
  induction cs generalizing j with
  | nil => rfl
  | cons c cs ih => exact (ih (j.record c)).trans (context_record j c)

theorem recordAll_append (j : Journal) (cs ds : List Call) :
    j.recordAll (cs ++ ds) = (j.recordAll cs).recordAll ds :=
  List.foldl_append

theorem Open.recordAll {j : Journal} (hj : j.Open) (cs : List Call) : (j.recordAll cs).Open := by
  intro name hname
  rw [context_recordAll]
  exact hj name hname

theorem Open.bind_document {j : Journal} (hj : j.Open) (name : Text) :
    (j.bind [(lit "document", .text name)]).Open := by
  intro m hm
  show (j.context.put (lit "document") (.text name)).has m = false
  rw [Fields.has_put, hj m hm, Bool.or_false]
  exact (by decide : ∀ m ∈ takenNames, decide (lit "document" = m) = false) m hm

/-- A call without taken names is made if the current document has none either. -/
theorem Open.call_eq {j : Journal} (hj : j.Open) {c : Call} (hc : c.Plain) :
    j.call c = .ok (j.record c) := by
  have hfields : takenNames.find? c.fields.has = none :=
    List.find?_eq_none.mpr fun name hname h =>
      Bool.false_ne_true ((hc name (List.mem_cons_of_mem _ hname)).symm.trans h)
  have hcontext : takenNames.find? j.context.has = none :=
    List.find?_eq_none.mpr fun name hname h => Bool.false_ne_true ((hj name hname).symm.trans h)
  have hlevel : c.fields.has (lit "level") = false := hc _ List.mem_cons_self
  have hcall : ∃ j', j.call c = .ok j' := by
    simp only [call, hfields, hcontext, hlevel, Bool.and_false, Bool.false_eq_true, if_false]
    split
    · exact ⟨_, rfl⟩
    · exact ⟨_, rfl⟩
  obtain ⟨j', h⟩ := hcall
  rw [record, h]

end Journal

end Worksheet
