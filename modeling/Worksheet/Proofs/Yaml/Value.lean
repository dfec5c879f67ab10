import Worksheet.Proofs.Yaml.Node
import Worksheet.Yaml.Value

/-!
# Faults of YAML texts

A YAML text that stands for no value is broken, or it has a fault of one of the classes
`faultKinds` (`faults_read`).
-/

namespace Worksheet.Yaml

/-! ## Merging -/

theorem Nodes.faults_mergeBefore {merge : Nodes → NodeId → Except Failure Nodes}
    (h : ∀ ns n, Faults Failure.Usual (merge ns n)) (r : Nodes × List NodeEntry) (n : NodeId) :
    Faults Failure.Usual (mergeBefore merge r n) := by
  unfold mergeBefore
  split
  · exact (h _ _).bind fun _ _ => faults_pure _
  · exact faults_throw trivial

theorem Nodes.faults_mergeFrom (fuel : Nat) (merged : List NodeEntry) (ns : Nodes) (n : NodeId) :
    Faults Failure.Usual (mergeFrom fuel merged ns n) := by
  induction fuel generalizing merged ns n with
  | zero => exact faults_error trivial
  | succ fuel ih =>
    unfold mergeFrom
    split
    · exact faults_ok _
    · refine (faults_foldlM (fun r n => ?_) _ _).bind fun _ _ => ih _ _ _
      exact faults_mergeBefore (fun ns n => ih [] ns n) r n

/-! ## Parts -/

namespace Parts

/-- Finding parts fails with usual faults only. -/
abbrev Finds {α : Type} (x : Find α) : Prop := Guards (fun _ => True) Failure.Usual x

theorem finds_note (n : NodeId) (p : Part) : Finds (note n p) := guards_modify fun _ _ => trivial

theorem faults_contentOf (ns : Nodes) (fuel : Nat) (n : NodeId) :
    Faults Failure.Usual (contentOf ns fuel n) := by
  induction fuel generalizing n with
  | zero => exact faults_error (usualFault_of_kind (lit "RecursionError") rfl (by decide))
  | succ fuel ih =>
    unfold contentOf
    split
    · exact faults_ok _
    · split
      · exact ih _
      · exact faults_error trivial
    · exact faults_error trivial

theorem faults_scalarOf (ns : Nodes) (n : NodeId) (tag : Tag) :
    Faults Failure.Usual (scalarOf ns n tag) := by
  refine (faults_contentOf _ _ _).bind fun c _ => ?_
  split
  · exact faults_throw (usualFault_of_kind (lit "TypeError") rfl (by decide))
  · exact (Scalar.faults_value _ _).bind fun _ _ => faults_pure _

theorem finds_openNode (n : NodeId) : Finds (openNode n) := by
  have hlater (p : Part) : Finds (do
      note n p
      modify fun ps => { ps with opened := ps.opened ++ [n] }) :=
    (finds_note n p).bind fun _ => guards_modify fun _ _ => trivial
  refine guards_get_bind fun ps _ => guards_ite (guards_pure _) ?_
  split
  · exact hlater _
  · exact hlater _
  · exact hlater _
  · exact hlater _
  · exact hlater _
  · exact (guards_lift (faults_scalarOf _ _ _)).bind fun _ => finds_note _ _

theorem finds_openEntry (e : NodeEntry) : Finds (openEntry e) := by
  refine (finds_openNode _).bind fun _ => guards_get_bind fun ps _ => ?_
  exact guards_ite (guards_throw trivial) (finds_openNode _)

theorem finds_fillMapping (n : NodeId) : Finds (fillMapping n) := by
  refine guards_get_bind fun ps _ => ?_
  refine (guards_lift (Nodes.faults_mergeFrom _ _ _ _)).bind fun nodes => ?_
  refine (guards_modify fun _ _ => trivial).bind fun _ => ?_
  exact (guards_forM finds_openEntry _).bind fun _ => guards_get_bind fun _ _ => guards_pure _

theorem finds_fillPair (n : NodeId) : Finds (fillPair n) := by
  refine guards_get_bind fun ps _ => ?_
  split
  · exact (finds_openNode _).bind fun _ => (finds_openNode _).bind fun _ => guards_pure _
  · exact guards_throw trivial

theorem finds_fill (n : NodeId) : Finds (fill n) := by
  refine guards_get_bind fun ps _ => ?_
  simp only
  split
  · exact (guards_forM finds_openNode _).bind fun _ => finds_note _ _
  · exact (guards_mapM finds_fillPair _).bind fun _ => finds_note _ _
  · exact (guards_mapM finds_fillPair _).bind fun _ => finds_note _ _
  · exact (finds_fillMapping n).bind fun _ => finds_note _ _
  · exact (finds_fillMapping n).bind fun _ => finds_note _ _
  · exact guards_throw trivial

theorem finds_fillAll (fuel : Nat) : Finds (fillAll fuel) := by
  induction fuel with
  | zero => exact guards_pure _
  | succ fuel ih =>
    refine guards_get_bind fun ps _ => ?_
    split
    · exact guards_pure _
    · exact (guards_modify fun _ _ => trivial).bind fun _ => (finds_fill _).bind fun _ => ih

end Parts

theorem Graph.faults_parts (g : Graph) : Faults Failure.Usual g.parts :=
  (((Parts.finds_openNode g.root).bind fun _ => Parts.finds_fillAll g.nodes.size).faults trivial).bind
    fun _ _ => faults_pure _

/-- A source that stands for no value is broken, or has a fault of one of the usual
classes. -/
theorem faults_read {s : Source} (h : s.Usual) : Faults Failure.Usual (read s) := by
  refine (Graph.faults_ofTokens? (Tokens.usual_ofSource h)).bind fun g _ => ?_
  split
  · exact faults_pure _
  · exact (Graph.faults_parts _).bind fun _ _ => faults_pure _

end Worksheet.Yaml
