import Worksheet.Proofs.Yaml.Token
import Worksheet.Yaml.Node

/-!
# Faults of nodes

Reading nodes fails because they are in no order, or with the failure behind their tokens,
which does not change while they are read. So if this failure is a fault of one of the usual
classes, or none, reading fails with such faults only (`Graph.faults_ofTokens?`).
-/

namespace Worksheet.Yaml.Graph

/-- The failure behind the tokens is a usual one. -/
def State.Usual (s : State) : Prop := s.failure.Usual

/-- Reading fails with usual faults only, and leaves the failure behind the tokens a usual
one. -/
abbrev Reads {α : Type} (x : Read α) : Prop := Guards State.Usual Failure.Usual x

theorem reads_broken {α : Type} : Reads (throw .broken : Read α) := guards_throw trivial

theorem reads_peek : Reads peek := by
  refine guards_get_bind fun s hs => ?_
  split
  · exact guards_pure _
  · exact guards_get_bind fun s hs => guards_throw hs

theorem reads_skip : Reads skip := guards_modify fun _ hs => hs

theorem reads_before (ts : List Token) : Reads (before ts) :=
  reads_peek.bind fun _ => guards_pure _

theorem reads_expect (t : Token) : Reads (expect t) :=
  reads_peek.bind fun _ => guards_ite reads_skip reads_broken

theorem reads_expand (handle : Option Text) (suffix : Text) : Reads (expand handle suffix) := by
  unfold expand
  split
  · exact guards_pure _
  · refine guards_get_bind fun s _ => ?_
    split
    · exact guards_pure _
    · exact reads_broken

theorem reads_readTag : Reads readTag := by
  refine reads_peek.bind fun t => ?_
  split
  · exact reads_skip.bind fun _ => guards_pure _
  · exact guards_pure _

theorem reads_readAnchor : Reads readAnchor := by
  refine reads_peek.bind fun t => ?_
  split
  · exact reads_skip.bind fun _ => guards_pure _
  · exact guards_pure _

theorem reads_properties : Reads properties := by
  have hexpand (first : Option Text) (tag : Option (Option Text × Text)) :
      Reads (do return (first, ← tag.mapM fun t => expand t.1 t.2)) := by
    cases tag with
    | none => exact (guards_pure _).bind fun _ => guards_pure _
    | some t => exact ((reads_expand t.1 t.2).bind fun _ => guards_pure _).bind fun _ => guards_pure _
  refine reads_readAnchor.bind fun first => reads_readTag.bind fun tag => ?_
  exact guards_ite (reads_readAnchor.bind fun _ => hexpand _ _) ((guards_pure _).bind fun _ => hexpand _ _)

theorem reads_lookUp (name : Text) : Reads (lookUp name) := by
  refine guards_get_bind fun s _ => ?_
  split
  · exact guards_pure _
  · exact reads_broken

theorem reads_add (n : Node) : Reads (add n) := guards_modifyGet fun _ hs => hs

theorem reads_addNamed (name : Option Text) (n : Node) : Reads (addNamed name n) := by
  unfold addNamed
  split
  · exact reads_add n
  · refine guards_get_bind fun s _ => guards_ite reads_broken ?_
    refine (reads_add n).bind fun _ => (guards_modify ?_).bind fun _ => guards_pure _
    exact fun _ hs => hs

theorem reads_addSequence (name tag : Option Text) {items : Read (List NodeId)} (h : Reads items) :
    Reads (addSequence name tag items) := by
  refine (reads_addNamed _ _).bind fun _ => h.bind fun _ => (guards_modify ?_).bind fun _ => guards_pure _
  exact fun _ hs => hs

theorem reads_addMapping (name tag : Option Text) {entries : Read (List (NodeId × NodeId))}
    (h : Reads entries) : Reads (addMapping name tag entries) := by
  refine (reads_addNamed _ _).bind fun _ => h.bind fun _ => (guards_modify ?_).bind fun _ => guards_pure _
  exact fun _ hs => hs

theorem reads_addNothing (name tag : Option Text) : Reads (addNothing name tag) :=
  guards_ite (reads_addNamed _ _) reads_broken

/-- Everything that is read with some fuel fails with usual faults only. -/
structure ReadsAll (fuel : Nat) : Prop where
  read (position : Position) : Reads (read fuel position)
  content (position : Position) (name tag : Option Text) :
    Reads (readContent fuel position name tag)
  nodeUnless (ends : List Token) (position : Position) : Reads (readUnless fuel ends position)
  blockItems : Reads (readBlockItems fuel)
  denseItems : Reads (readDenseItems fuel)
  entryValue (ends : List Token) (position : Position) : Reads (readEntryValue fuel ends position)
  blockEntries : Reads (readBlockEntries fuel)
  flowItems (first : Bool) : Reads (readFlowItems fuel first)
  flowEntries (first : Bool) : Reads (readFlowEntries fuel first)

theorem readsAll_zero : ReadsAll 0 where
  read _ := reads_broken
  content _ _ _ := reads_broken
  nodeUnless _ _ := reads_broken
  blockItems := reads_broken
  denseItems := reads_broken
  entryValue _ _ := reads_broken
  blockEntries := reads_broken
  flowItems _ := reads_broken
  flowEntries _ := reads_broken

variable {fuel : Nat}

theorem reads_read (h : ReadsAll fuel) (position : Position) : Reads (read (fuel + 1) position) := by
  refine reads_peek.bind fun t => ?_
  split
  · exact reads_skip.bind fun _ => reads_lookUp _
  · exact reads_properties.bind fun p => h.content position p.1 p.2

theorem reads_readContent (h : ReadsAll fuel) (position : Position) (name tag : Option Text) :
    Reads (readContent (fuel + 1) position name tag) := by
  refine reads_peek.bind fun t => ?_
  split
  · exact reads_skip.bind fun _ => reads_addNamed _ _
  · exact reads_addSequence _ _ (reads_skip.bind fun _ => h.flowItems true)
  · exact reads_addMapping _ _ (reads_skip.bind fun _ => h.flowEntries true)
  · exact guards_ite (reads_addSequence _ _ h.denseItems) (reads_addNothing _ _)
  · exact guards_ite (reads_addSequence _ _ (reads_skip.bind fun _ => h.blockItems))
      (reads_addNothing _ _)
  · exact guards_ite (reads_addMapping _ _ (reads_skip.bind fun _ => h.blockEntries))
      (reads_addNothing _ _)
  · exact reads_addNothing _ _

theorem reads_readUnless (h : ReadsAll fuel) (ends : List Token) (position : Position) :
    Reads (readUnless (fuel + 1) ends position) :=
  (reads_before ends).bind fun _ => guards_ite (reads_add _) (h.read position)

theorem reads_readBlockItems (h : ReadsAll fuel) : Reads (readBlockItems (fuel + 1)) := by
  refine reads_peek.bind fun t => ?_
  split
  · exact reads_skip.bind fun _ => (h.nodeUnless _ _).bind fun _ => h.blockItems.bind fun _ => guards_pure _
  · exact reads_skip.bind fun _ => guards_pure _
  · exact reads_broken

theorem reads_readDenseItems (h : ReadsAll fuel) : Reads (readDenseItems (fuel + 1)) := by
  refine reads_peek.bind fun t => ?_
  split
  · exact reads_skip.bind fun _ => (h.nodeUnless _ _).bind fun _ => h.denseItems.bind fun _ => guards_pure _
  · exact guards_pure _

theorem reads_readEntryValue (h : ReadsAll fuel) (ends : List Token) (position : Position) :
    Reads (readEntryValue (fuel + 1) ends position) := by
  refine reads_peek.bind fun t => ?_
  split
  · exact reads_skip.bind fun _ => h.nodeUnless _ _
  · exact reads_add _

theorem reads_readBlockEntries (h : ReadsAll fuel) : Reads (readBlockEntries (fuel + 1)) := by
  refine reads_peek.bind fun t => ?_
  split
  · exact reads_skip.bind fun _ => (h.nodeUnless _ _).bind fun _ => (h.entryValue _ _).bind fun _ =>
      h.blockEntries.bind fun _ => guards_pure _
  · exact reads_skip.bind fun _ => guards_pure _
  · exact reads_broken

/-- What comes within brackets, after a comma unless it is the first. -/
theorem reads_entry {α : Type} {x : Read α} (h : Reads x) (first : Bool) :
    Reads (if !first then (do expect .flowEntry; x) else x) :=
  guards_ite ((reads_expect _).bind fun _ => h) h

theorem reads_readFlowItems (h : ReadsAll fuel) (first : Bool) :
    Reads (readFlowItems (fuel + 1) first) := by
  refine (reads_before _).bind fun _ => guards_ite (reads_skip.bind fun _ => guards_pure _) ?_
  refine reads_entry (reads_peek.bind fun t => ?_) first
  split
  · exact reads_skip.bind fun _ => guards_pure _
  · exact reads_skip.bind fun _ => (h.nodeUnless _ _).bind fun _ => (h.entryValue _ _).bind fun _ =>
      (reads_add _).bind fun _ => (h.flowItems _).bind fun _ => guards_pure _
  · exact (h.read _).bind fun _ => (h.flowItems _).bind fun _ => guards_pure _

theorem reads_readFlowEntries (h : ReadsAll fuel) (first : Bool) :
    Reads (readFlowEntries (fuel + 1) first) := by
  refine (reads_before _).bind fun _ => guards_ite (reads_skip.bind fun _ => guards_pure _) ?_
  refine reads_entry (reads_peek.bind fun t => ?_) first
  split
  · exact reads_skip.bind fun _ => guards_pure _
  · exact reads_skip.bind fun _ => (h.nodeUnless _ _).bind fun _ => (h.entryValue _ _).bind fun _ =>
      (h.flowEntries _).bind fun _ => guards_pure _
  · exact (h.read _).bind fun _ => (reads_add _).bind fun _ =>
      (h.flowEntries _).bind fun _ => guards_pure _

/-- The functions call each other with less fuel. -/
theorem readsAll (fuel : Nat) : ReadsAll fuel := by
  induction fuel with
  | zero => exact readsAll_zero
  | succ fuel ih =>
    exact {
      read := reads_read ih
      content := reads_readContent ih
      nodeUnless := reads_readUnless ih
      blockItems := reads_readBlockItems ih
      denseItems := reads_readDenseItems ih
      entryValue := reads_readEntryValue ih
      blockEntries := reads_readBlockEntries ih
      flowItems := reads_readFlowItems ih
      flowEntries := reads_readFlowEntries ih }

/-! ## Documents -/

theorem reads_readDirectives (fuel : Nat) (versioned : Bool) : Reads (readDirectives fuel versioned) := by
  induction fuel generalizing versioned with
  | zero => exact reads_broken
  | succ fuel ih =>
    refine reads_peek.bind fun t => ?_
    split
    · exact guards_ite reads_broken (reads_skip.bind fun _ => ih true)
    · refine guards_get_bind fun s _ => guards_ite reads_broken ?_
      refine reads_skip.bind fun _ => (guards_modify ?_).bind fun _ => ih versioned
      exact fun _ hs => hs
    · exact reads_skip.bind fun _ => ih versioned
    · exact guards_pure _

theorem reads_readMarked (fuel : Nat) : Reads (readMarked fuel) := by
  refine (reads_readDirectives _ _).bind fun _ => (guards_modify ?_).bind fun _ =>
    (reads_expect _).bind fun _ => reads_peek.bind fun t => ?_
  · exact fun _ hs => hs
  · split
    all_goals first
      | exact reads_add _
      | exact (readsAll fuel).read .block

theorem reads_readEnd (fuel : Nat) : Reads (readEnd fuel) := by
  induction fuel with
  | zero => exact reads_broken
  | succ fuel ih =>
    refine reads_peek.bind fun t => ?_
    split
    · exact reads_skip.bind fun _ => ih
    · exact guards_pure _
    · refine (guards_modify ?_).bind fun _ => (reads_readDirectives _ _).bind fun _ => reads_broken
      exact fun _ hs => hs

theorem reads_readDocument (fuel : Nat) : Reads (readDocument fuel) := by
  have hend (n : NodeId) : Reads (do readEnd fuel; return some n) :=
    (reads_readEnd fuel).bind fun _ => guards_pure _
  refine reads_peek.bind fun t => ?_
  split
  · exact guards_pure _
  all_goals first
    | exact (reads_readMarked fuel).bind hend
    | skip
  refine (guards_modify ?_).bind fun _ => ((readsAll fuel).read .block).bind hend
  exact fun _ hs => hs

/-- Tokens that form no document are in no order, or more of them would have been needed. -/
theorem faults_ofTokens? {ts : Tokens} (h : ts.failure.Usual) : Faults Failure.Usual (ofTokens? ts) := by
  have hs : State.Usual { tokens := ts.list, failure := ts.failure } := h
  exact ((reads_readDocument _).faults hs).bind fun _ _ => faults_pure _

end Worksheet.Yaml.Graph
