import Worksheet.Correction
import Worksheet.Proofs.Engine.Loop
import Worksheet.Proofs.FileName

/-!
# Documents whose names are texts

A document whose name is a text is checked and corrected alike in every alphabet. The stock
rules find the same in it (`Engine.found_embed`), what they find is put into the same text
(`Correction.applyAll_embed`), and it is told by the same lines (`Diagnostic.lines_embed`).
-/

namespace Worksheet

open Alphabet

variable {α : Type} [Alphabet α]

/-! ## Corrections -/

namespace Correction

theorem apply_embed (t : Text) (c : Correction) :
    apply (Alphabet.embed t : Text α) c.embed = Alphabet.embed (apply t c) := by
  rw [apply, apply, embed_append, embed_append, embed_take, embed_drop]
  rfl

theorem foldl_apply_embed (t : Text) (cs : List Correction) :
    (cs.map Correction.embed).foldl apply (Alphabet.embed t : Text α) = Alphabet.embed (cs.foldl apply t) := by
  induction cs generalizing t with
  | nil => rfl
  | cons c cs ih => rw [List.map_cons, List.foldl_cons, List.foldl_cons, apply_embed, ih]

theorem any_overlaps_embed (picked : List Correction) (c : Correction) :
    (picked.map Correction.embed).any (overlaps (c.embed : Correction α)) = picked.any (overlaps c) := by
  rw [List.any_map]
  rfl

/-- What is picked depends on the places of corrections alone. -/
theorem taken_choices_embed (picked : List Correction) (ds : List Diagnostic) :
    (choices (picked.map Correction.embed) (ds.map Diagnostic.embed)).filterMap (·.taken?) =
      (((choices picked ds).filterMap (·.taken?)).map Correction.embed : List (Correction α)) := by
  induction ds generalizing picked with
  | nil => rfl
  | cons d ds ih =>
    rw [List.map_cons, choices, choices]
    cases hfix : d.fix with
    | none =>
      have hembed : (d.embed : Diagnostic α).fix = none := by rw [Diagnostic.embed, hfix]; rfl
      simp only [hembed]
      exact ih picked
    | some c =>
      have hembed : (d.embed : Diagnostic α).fix = some c.embed := by rw [Diagnostic.embed, hfix]; rfl
      simp only [hembed, any_overlaps_embed]
      split
      · exact ih picked
      · have hpicked : (picked.map Correction.embed : List (Correction α)) ++ [(c.embed : Correction α)] =
            (picked ++ [c]).map Correction.embed := by rw [List.map_append, List.map_singleton]
        rw [hpicked]
        exact congrArg (c.embed :: ·) (ih (picked ++ [c]))

theorem backToFront_embed (cs : List Correction) :
    backToFront (cs.map Correction.embed : List (Correction α)) = (backToFront cs).map Correction.embed := by
  rw [backToFront, backToFront]
  exact (List.map_mergeSort (f := (Correction.embed : Correction → Correction α)) fun _ _ _ _ => rfl).symm

/-- The corrections of findings are put into a text alike. -/
theorem applyAll_embed (t : Text) (ds : List Diagnostic) :
    applyAll (Alphabet.embed t : Text α) (ds.map Diagnostic.embed) =
      (Alphabet.embed (applyAll t ds).1, (applyAll t ds).2) := by
  have hselect : select (ds.map Diagnostic.embed) = ((select ds).map Correction.embed : List (Correction α)) :=
    taken_choices_embed [] ds
  simp only [applyAll, hselect, backToFront_embed, foldl_apply_embed, List.length_map]

end Correction

/-! ## Findings -/

namespace Diagnostic

theorem locateAll_embed (doc : Document) (ds : List Diagnostic) :
    locateAll (doc.embed : Document α) (ds.map Diagnostic.embed) =
      (locateAll doc ds).map Diagnostic.embed := by
  rw [locateAll, locateAll, List.map_map, List.map_map]
  refine List.map_congr_left fun d _ => ?_
  simp only [Function.comp_apply, locateBy, Diagnostic.embed, Option.map_map]
  rfl

theorem line_embed (name : Text) (d : Diagnostic) :
    line (Alphabet.embed name : Text α) d.embed = Alphabet.embed (line name d) := by
  have hplace : (d.embed : Diagnostic α).place = d.place := rfl
  have hfix : (d.embed : Diagnostic α).fix.isSome = d.fix.isSome := Option.isSome_map
  simp only [line, hplace, hfix, embed_append]
  rfl

theorem lines_embed (name : Text) (ds : List Diagnostic) :
    lines (Alphabet.embed name : Text α) (ds.map Diagnostic.embed) = Alphabet.embed (lines name ds) := by
  have hbreak : [(ofChar '\n' : α)] = Alphabet.embed ['\n'] := by rw [embed_cons, embed_nil]
  have hlines : (ds.map Diagnostic.embed).map (line (Alphabet.embed name : Text α)) =
      (ds.map (line name)).map Alphabet.embed := by
    rw [List.map_map, List.map_map]
    exact List.map_congr_left fun d _ => line_embed name d
  rw [lines, hlines, hbreak, Text.join_embed, lines, ofChar_char]

/-- A list of findings begins with the name of the document. -/
theorem exists_lines_cons_eq (name : Text α) (d : Diagnostic α) (ds : List (Diagnostic α)) :
    ∃ t, lines name (d :: ds) = name ++ t := by
  rw [lines, List.map_cons, Text.join]
  cases ds.map (line name) with
  | nil =>
    rw [List.intercalate_singleton, line, List.append_assoc, List.append_assoc]
    exact ⟨_, rfl⟩
  | cons l ls =>
    rw [List.intercalate_cons_cons, line]
    simp only [List.append_assoc]
    exact ⟨_, rfl⟩

end Diagnostic

theorem Marks.result_embed (d : Document) (s : Settings) :
    ((rule : Rule α).run d.embed s).result = ((rule.run d s).result).map (List.map Diagnostic.embed) := by
  have hrun : ((rule : Rule α).run d.embed s).result = do
      return (← findings d.text s).map Diagnostic.embed := rfl
  rw [hrun, result_run_rule]
  cases findings d.text s <;> rfl

theorem Engine.returned_embed {r : Rule} {r' : Rule α} {d : Document} {s : Settings} (hname : r'.name = r.name)
    (hresult : (r'.run d.embed s).result = ((r.run d s).result).map (List.map Diagnostic.embed)) :
    Engine.returned d.embed s r' = (Engine.returned d s r).map Diagnostic.embed := by
  rw [Engine.returned, Engine.returned, hname, hresult]
  split
  · cases (r.run d s).result <;> rfl
  · rfl

variable [DecidableEq α]

theorem Image.folderFor_embed (name suffix : Text) :
    folderFor (Alphabet.embed name : Text α) suffix = Alphabet.embed (folderFor name suffix) := by
  have hseparator (c : Char) :
      ((ofChar c : α) == ofChar '\\' || (ofChar c : α) == FileName.slash) = (c == '\\' || c == '/') := by
    rw [FileName.slash_eq, Bool.eq_iff_iff, Bool.or_eq_true, Bool.or_eq_true, beq_iff_eq, beq_iff_eq,
      beq_iff_eq, ofChar_inj]
  rw [folderFor, Text.afterLast_embed hseparator, FileName.stem_embed, folderFor, embed_append]
  rfl

namespace Folder

theorem misplaced_embed (folder : Text) (i : Image) :
    misplaced (Alphabet.embed folder : Text α) i = misplaced folder i := by
  rw [misplaced, misplaced, Text.includes_embed, embed_char]

theorem correctedTag_embed (folder : Text) (i : Image) :
    correctedTag (Alphabet.embed folder : Text α) i = Alphabet.embed (correctedTag folder i) := by
  have hsource : (Alphabet.embed folder : Text α) ++ [(FileName.slash : α)] ++
      (Alphabet.embed (FileName.last i.src) : Text α) =
      Alphabet.embed (folder ++ ['/'] ++ FileName.last i.src) := by
    rw [embed_append, embed_append, embed_cons, embed_nil]
    rfl
  rw [correctedTag, hsource, Text.replaceFirst_embed, correctedTag_eq]

theorem finding_embed (s : Settings) (folder : Text) (i : Image) :
    finding s (Alphabet.embed folder : Text α) i = (finding s folder i).map Diagnostic.embed := by
  rw [finding, finding, correctedTag_embed]
  cases checkedSpan i.start i.stop with
  | error f => rfl
  | ok span =>
    refine congrArg Except.ok ?_
    rw [Diagnostic.embed, embed_append, embed_append]
    cases i.misspelt <;> rfl

theorem findings_embed (images : List Image) (folder : Text) (s : Settings) :
    findings images (Alphabet.embed folder : Text α) s =
      (findings images folder s).map (List.map Diagnostic.embed) := by
  have hmisplaced : misplaced (Alphabet.embed folder : Text α) = misplaced folder :=
    funext (misplaced_embed folder)
  rw [findings, findings, hmisplaced]
  induction images.filter (misplaced folder) with
  | nil => rfl
  | cons i is ih =>
    rw [List.mapM_cons, List.mapM_cons, ih, finding_embed]
    cases finding s folder i with
    | error f => rfl
    | ok d =>
      cases is.mapM (finding s folder) <;> rfl

end Folder

theorem Images.findings_embed (d : Document) (s : Settings) (images : List Image) (typos : List Diagnostic) :
    findings (d.embed : Document α) s images typos =
      (findings d s images typos).map (List.map Diagnostic.embed) := by
  have hfolder : Image.folderFor (d.embed : Document α).name s.images.folderSuffix =
      Alphabet.embed (Image.folderFor d.name s.images.folderSuffix) := Image.folderFor_embed _ _
  rw [findings_eq, findings]
  simp only [hfolder, Folder.findings_embed]
  cases Folder.findings images (Image.folderFor d.name s.images.folderSuffix) s with
  | error f => rfl
  | ok misplaced =>
    cases Numbering.findings images s with
    | error f => rfl
    | ok misnumbered =>
      refine congrArg Except.ok ?_
      rw [List.map_append, List.map_append]

/-! ## Checks -/

theorem Images.result_embed (d : Document) (s : Settings) :
    ((rule : Rule α).run d.embed s).result = ((rule.run d s).result).map (List.map Diagnostic.embed) :=
  findings_embed d s _ _

namespace Engine

/-- The stock rules find the same in a document whose name is a text. -/
theorem found_embed (s : Settings) (d : Document) :
    found (d.embed : Document α) ((stock s).outcomes d.embed) =
      (found d ((stock s).outcomes d)).map Diagnostic.embed := by
  have hmarks : returned d.embed s (Marks.rule : Rule α) = (returned d s Marks.rule).map Diagnostic.embed :=
    returned_embed rfl (Marks.result_embed d s)
  have himages : returned d.embed s (Images.rule : Rule α) = (returned d s Images.rule).map Diagnostic.embed :=
    returned_embed rfl (Images.result_embed d s)
  have hrules {β : Type} [DecidableEq β] [Alphabet β] :
      (stock s : Engine β).rules = [Marks.rule, Images.rule] := rfl
  have hsettings {β : Type} [DecidableEq β] [Alphabet β] : (stock s : Engine β).settings = s := rfl
  rw [found_outcomes, found_outcomes]
  simp only [hrules, hsettings, List.flatMap_cons, List.flatMap_nil, List.append_nil, hmarks, himages,
    Diagnostic.locateAll_embed, List.map_append]

end Engine

end Worksheet
