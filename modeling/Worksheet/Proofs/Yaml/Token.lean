import Worksheet.Proofs.Yaml.Scalar
import Worksheet.Yaml.Token.Lexer

/-!
# Faults of tokens

Where there are no more tokens of a source, reading goes on with a failure that, if it is a
fault, belongs to one of the usual classes (`Tokens.usual_ofSource`).
-/

namespace Worksheet.Yaml

namespace Token

theorem faults_readAnchor (t : Text) : Faults Failure.Usual (readAnchor t) :=
  faults_ite (faults_error (usual_before _)) (faults_ite (faults_error trivial) (faults_ok _))

theorem faults_escapedBytes (t : Text) : Faults Failure.Usual (escapedBytes t) := by
  fun_induction escapedBytes t with
  | case1 => exact faults_ok _
  | case2 a b rest m n hm hn ih => exact ih.bind fun _ _ => faults_pure _
  | case3 => exact faults_error trivial
  | case4 a => exact faults_error (by split <;> trivial)
  | case5 => exact faults_error trivial
  | case6 => exact faults_ok _

theorem faults_tagChars (fuel : Nat) (t : Text) : Faults Failure.Usual (tagChars fuel t) := by
  induction fuel generalizing t with
  | zero => exact faults_ok _
  | succ fuel ih =>
    cases t with
    | nil => exact faults_ok _
    | cons c cs =>
      unfold tagChars
      split
      · refine (faults_escapedBytes _).bind fun r _ => ?_
        simp only
        split
        · exact faults_throw trivial
        · exact (ih _).bind fun _ _ => faults_pure _
      · exact faults_ite ((ih cs).bind fun _ _ => faults_pure _) (faults_ok _)

theorem faults_readTagChars (t : Text) : Faults Failure.Usual (readTagChars t) := by
  unfold readTagChars
  split
  · exact faults_error trivial
  · exact faults_ite (faults_tagChars _ _) (faults_error trivial)

theorem faults_readHandle (t : Text) : Faults Failure.Usual (readHandle t) := by
  unfold readHandle
  split
  · exact faults_ok _
  · split
    · exact faults_ok _
    · exact faults_error (usual_before _)
  · exact faults_error (usual_before _)

theorem faults_readTag (t : Text) : Faults Failure.Usual (readTag t) := by
  have hend (tag : Token) (rest : Text) :
      Faults Failure.Usual (if endsTag rest then pure (tag, rest) else throw .broken) :=
    faults_ite (faults_pure _) (faults_throw trivial)
  unfold readTag
  simp only
  split
  · refine (faults_readTagChars _).bind fun p _ => ?_
    split
    · exact (faults_pure _).bind fun _ _ => hend _ _
    · exact faults_throw (usual_before _)
  · refine faults_ite ((faults_pure _).bind fun _ _ => hend _ _) ?_
    exact faults_ite
      ((faults_readHandle _).bind fun _ _ => (faults_readTagChars _).bind fun _ _ =>
        (faults_pure _).bind fun _ _ => hend _ _)
      ((faults_pure _).bind fun _ _ => (faults_readTagChars _).bind fun _ _ =>
        (faults_pure _).bind fun _ _ => hend _ _)

theorem faults_readNumber (t : Text) : Faults Failure.Usual (readNumber t) := by
  unfold readNumber
  split
  · exact faults_error (usual_before _)
  · exact faults_ite (faults_error (usualFault_of_ofValue rfl)) (faults_ok _)

theorem faults_readVersion (t : Text) : Faults Failure.Usual (readVersion t) := by
  unfold readVersion
  refine (faults_readNumber _).bind fun p _ => ?_
  simp only
  split
  · refine (faults_readNumber _).bind fun _ _ => ?_
    exact faults_ite (faults_pure _) (faults_throw trivial)
  · exact faults_throw (usual_before _)

theorem faults_readAbbreviation (t : Text) : Faults Failure.Usual (readAbbreviation t) := by
  unfold readAbbreviation
  refine (faults_readHandle _).bind fun p _ => ?_
  simp only
  split
  · refine (faults_readTagChars _).bind fun _ _ => ?_
    exact faults_ite (faults_pure _) (faults_throw trivial)
  · exact faults_throw (usual_before _)

theorem faults_skipLine (t : Text) : Faults Failure.Usual (skipLine t) := by
  unfold skipLine
  simp only
  split
  · exact faults_ok _
  · exact faults_ite (faults_ok _) (faults_error trivial)

theorem faults_readDirective (t : Text) : Faults Failure.Usual (readDirective t) := by
  have hend (token : Token) (rest : Text) :
      Faults Failure.Usual (do return (token, ← skipLine rest)) :=
    (faults_skipLine _).bind fun _ _ => faults_pure _
  unfold readDirective
  refine faults_guard (usual_before _) (faults_guard trivial ?_)
  exact faults_ite ((faults_readVersion _).bind fun _ _ => hend _ _)
    (faults_ite ((faults_readAbbreviation _).bind fun _ _ => hend _ _)
      ((faults_pure _).bind fun _ _ => hend _ _))

end Token

namespace Lexer

variable (l : Lexer)

theorem faults_dropKey : Faults Failure.Usual l.dropKey := by
  unfold dropKey
  split
  · exact faults_ite (faults_error trivial) (faults_ok _)
  · exact faults_ok _

theorem faults_noteKey : Faults Failure.Usual l.noteKey :=
  faults_ite (l.faults_dropKey.bind fun _ _ => faults_pure _) (faults_ok _)

theorem faults_dropStaleKeys : Faults Failure.Usual l.dropStaleKeys :=
  faults_ite (faults_error trivial) (faults_ok _)

theorem faults_approach : Faults Failure.Usual l.approach :=
  (faults_dropStaleKeys _).bind fun _ _ => faults_pure _

theorem faults_separator (t : Token) (rest : Text) : Faults Failure.Usual (l.separator t rest) :=
  (faults_dropKey _).bind fun _ _ => faults_pure _

theorem faults_finish : Faults Failure.Usual l.finish :=
  (faults_dropKey _).bind fun _ _ => faults_pure _

theorem faults_openFlow (t : Token) (rest : Text) : Faults Failure.Usual (l.openFlow t rest) :=
  l.faults_noteKey.bind fun _ _ => faults_pure _

theorem faults_closeFlow (t : Token) (rest : Text) : Faults Failure.Usual (l.closeFlow t rest) :=
  faults_guard trivial (l.faults_dropKey.bind fun _ _ => faults_pure _)

theorem faults_flowEntry (rest : Text) : Faults Failure.Usual (l.flowEntry rest) :=
  l.faults_dropKey.bind fun _ _ => faults_pure _

theorem faults_blockEntry (rest : Text) : Faults Failure.Usual (l.blockEntry rest) :=
  faults_guard trivial ((faults_dropKey _).bind fun _ _ => faults_pure _)

theorem faults_explicitKey (rest : Text) : Faults Failure.Usual (l.explicitKey rest) :=
  faults_guard trivial ((faults_dropKey _).bind fun _ _ => faults_pure _)

theorem faults_mappingValue (rest : Text) : Faults Failure.Usual (l.mappingValue rest) := by
  unfold mappingValue
  simp only
  split
  · exact (faults_pure _).bind fun _ _ => faults_pure _
  · exact faults_guard trivial ((faults_dropKey _).bind fun _ _ =>
      (faults_pure _).bind fun _ _ => faults_pure _)

theorem faults_inKey {read : Except Failure (Token × Text)} (h : Faults Failure.Usual read) :
    Faults Failure.Usual (l.inKey read) :=
  l.faults_noteKey.bind fun _ _ => h.bind fun _ _ => faults_pure _

theorem faults_blockScalar (fold : Bool) (t : Text) : Faults Failure.Usual (l.blockScalar fold t) :=
  l.faults_dropKey.bind fun _ _ => (Block.faults_read _ _ _).bind fun _ _ => faults_pure _

theorem faults_quotedScalar (double : Bool) (t : Text) :
    Faults Failure.Usual (quotedScalar double t) :=
  (Quoted.faults_read _ _ _).bind fun _ _ => faults_pure _

theorem faults_plainScalar : Faults Failure.Usual l.plainScalar :=
  l.faults_noteKey.bind fun _ _ => faults_pure _

theorem faults_named (token : Text → Token) (t : Text) : Faults Failure.Usual (named token t) :=
  (Token.faults_readAnchor t).bind fun _ _ => faults_pure _

theorem faults_next : Faults Failure.Usual l.next := by
  unfold next
  refine l.faults_approach.bind fun l _ => ?_
  simp only
  split
  · exact l.faults_finish
  · rename_i c cs _
    exact
      faults_ite ((Token.faults_readDirective cs).bind fun _ _ => l.faults_separator _ _) <|
      faults_ite (l.faults_separator _ _) <|
      faults_ite (l.faults_openFlow _ cs) <|
      faults_ite (l.faults_openFlow _ cs) <|
      faults_ite (l.faults_closeFlow _ cs) <|
      faults_ite (l.faults_closeFlow _ cs) <|
      faults_ite (l.faults_flowEntry cs) <|
      faults_ite (l.faults_blockEntry cs) <|
      faults_ite (l.faults_explicitKey cs) <|
      faults_ite (l.faults_mappingValue cs) <|
      faults_ite (l.faults_inKey (faults_named _ cs)) <|
      faults_ite (l.faults_inKey (faults_named _ cs)) <|
      faults_ite (l.faults_inKey (Token.faults_readTag cs)) <|
      faults_ite (l.faults_blockScalar _ cs) <|
      faults_ite (l.faults_blockScalar _ cs) <|
      faults_ite (l.faults_inKey (faults_quotedScalar _ cs)) <|
      faults_ite (l.faults_inKey (faults_quotedScalar _ cs)) <|
      faults_ite l.faults_plainScalar (faults_throw trivial)

end Lexer

/-! ## Sources -/

/-- Where a source is cut off, its bytes are no text, or a character is not allowed. -/
def Source.Usual (s : Source) : Prop := ∀ f, s.cut = some f → f.Usual

namespace Source

theorem usual_unreadable {f : Failure} (h : f.Usual) : (unreadable f).Usual := by
  rintro _ ⟨⟩
  exact h

theorem Usual.after {s : Source} (h : s.Usual) (t : Text) : (s.after t).Usual := by
  unfold Source.after
  split
  · exact h
  · exact usual_unreadable trivial

theorem usual_notEncoded (f : Utf8.Failure) : (Failure.fault (.notEncoded f)).Usual :=
  usualFault_of_kind (lit "UnicodeDecodeError") rfl (by decide)

theorem usual_ofPieces (fuel : Nat) (p : Pieces) : (ofPieces fuel p).Usual := by
  induction fuel generalizing p with
  | zero => exact nofun
  | succ fuel ih =>
    unfold ofPieces
    split
    · exact usual_unreadable (usual_notEncoded _)
    · exact nofun
    · exact (ih _).after _

theorem usual_ofBytes (bs : List UInt8) : (ofBytes bs).Usual := by
  unfold ofBytes
  simp only
  split
  · exact usual_unreadable (usual_notEncoded _)
  · exact (usual_ofPieces _ _).after _

end Source

namespace Tokens

theorem usual_ofLexer {cut : Option Failure} (h : ∀ f, cut = some f → f.Usual) (fuel : Nat) (l : Lexer) :
    (ofLexer cut fuel l).failure.Usual := by
  have hcut : (cut.getD .broken).Usual := by
    cases cut with
    | none => trivial
    | some f => exact h f rfl
  induction fuel generalizing l with
  | zero => trivial
  | succ fuel ih =>
    unfold ofLexer
    simp only
    split
    · exact hcut
    · split
      · exact hcut
      · rename_i f _ hf
        exact l.faults_next f hf
      · split
        · trivial
        · split
          · exact hcut
          · exact ih _

theorem usual_ofSource {s : Source} (h : s.Usual) : (ofSource s).failure.Usual :=
  usual_ofLexer h _ _

end Tokens

end Worksheet.Yaml
