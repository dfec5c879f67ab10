import Worksheet.Proofs.Image.Annotations
import Worksheet.Proofs.Image.Reading

/-!
# What a correction of the folder does to its image

The correction of a finding about a folder changes the first place in the tag that reads
like the source. This is the source itself unless it also stands in the front of the tag
(`Folder.correctedTag_eq_iff`), for instance as the text of another attribute. In this
case, and in no other, the image is still in the wrong folder afterwards
(`Folder.exists_moved_iff`).
-/

namespace Worksheet.Folder

variable {folder : Text} {i : Image}

/-- The source that a file has in the folder. -/
def movedSource (folder src : Text) : Text := folder ++ '/' :: FileName.last src

theorem misplaced_iff : misplaced folder i = true ↔ i.src ≠ [] ∧ ¬ folder <:+: i.src := by
  rw [misplaced_eq, Bool.and_eq_true, Bool.not_eq_true', Bool.not_eq_true', List.isEmpty_eq_false_iff,
    ← Bool.not_eq_true, Text.includes_iff]

theorem infix_movedSource (folder src : Text) : folder <:+: movedSource folder src :=
  (List.prefix_append folder _).isInfix

theorem quote_not_mem_movedSource {src : Text} (hfolder : '"' ∉ folder) (hsrc : '"' ∉ src) :
    '"' ∉ movedSource folder src := by
  rw [movedSource, List.mem_append, List.mem_cons, not_or, not_or]
  exact ⟨hfolder, by decide, fun h => hsrc (FileName.mem_of_mem_last h)⟩

/-- Texts without quotes are the same if, with one text between them and a quote, they
go on to be the same. -/
theorem eq_of_append_eq {u v c s q : Text} (hu : '"' ∉ u) (hv : '"' ∉ v)
    (h : u ++ (c ++ '"' :: s) = v ++ (c ++ '"' :: q)) : u = v := by
  obtain ⟨d, r, r', hd, hs, hq⟩ :
      ∃ d r r', '"' ∉ d ∧ c ++ '"' :: s = d ++ '"' :: r ∧ c ++ '"' :: q = d ++ '"' :: r' := by
    by_cases hc : '"' ∈ c
    · obtain ⟨d, e, rfl, hd⟩ := List.eq_append_cons_of_mem hc
      exact ⟨d, _, _, hd, List.append_assoc .., List.append_assoc ..⟩
    · exact ⟨c, s, q, hc, rfl, rfl⟩
  rw [hs, hq, ← List.append_assoc, ← List.append_assoc] at h
  have hmem {w : Text} (hw : '"' ∉ w) : '"' ∉ w ++ d := fun hm => (List.mem_append.mp hm).elim hw hd
  exact List.append_cancel_right (append_cons_inj (hmem hu) (hmem hv) h).1

/-- The correction changes the source and nothing else if and only if the source does not
stand in the front of the tag as well. -/
theorem correctedTag_eq_iff {h z : Text} (hfull : i.fullText = h ++ (i.src ++ '"' :: z))
    (hh : ∃ h', h = h' ++ ['"']) (hfolder : '"' ∉ folder) (hsrc : '"' ∉ i.src)
    (hi : misplaced folder i = true) :
    correctedTag folder i = h ++ (movedSource folder i.src ++ '"' :: z) ↔ ¬ i.src <:+: h := by
  have hnew : folder ++ ['/'] ++ FileName.last i.src = movedSource folder i.src := by
    rw [List.append_assoc]
    rfl
  obtain ⟨hne, hout⟩ := misplaced_iff.mp hi
  obtain ⟨k, hk⟩ : ∃ k, Text.offsetOf? i.src i.fullText = some k := by
    rw [← Option.ne_none_iff_exists', ne_eq, Text.offsetOf?_eq_none_iff, not_not, hfull]
    exact (List.prefix_append _ _).isInfix.trans (List.suffix_append _ _).isInfix
  rw [correctedTag_eq, hnew, hfull]
  rw [hfull] at hk
  rcases offset_of_front hsrc hh hk with rfl | ⟨x, y, rfl, rfl⟩
  · rw [Text.replaceFirst_append hk]
    refine iff_of_true rfl fun hinfix => ?_
    obtain ⟨x, y, hxy⟩ := hinfix
    -- A place in the front would be the first one.
    have hpos := List.length_pos_iff.mpr hne
    have hlen := congrArg List.length hxy
    simp only [List.length_append] at hlen
    refine (Text.offsetOf?_eq_some hk).2 x.length (by omega) ?_
    rw [← hxy, List.append_assoc, List.append_assoc, List.drop_left]
    exact List.prefix_append _ _
  · refine iff_of_false (fun heq => hout ?_) (not_not.mpr ⟨x, y, List.append_assoc ..⟩)
    rw [List.append_assoc, List.append_assoc] at hk heq
    rw [Text.replaceFirst_append hk, List.append_assoc, List.append_assoc] at heq
    obtain ⟨y, rfl⟩ : ∃ y', y = y' ++ ['"'] := by
      obtain ⟨h', hh'⟩ := hh
      rcases List.eq_nil_or_concat' y with rfl | ⟨y', c, rfl⟩
      · obtain ⟨src', c, hsrc'⟩ := (List.eq_nil_or_concat' i.src).resolve_left hne
        rw [List.append_nil, hsrc', ← List.append_assoc] at hh'
        obtain ⟨rfl, -⟩ := List.cons_eq_cons.mp (List.append_inj' hh' rfl).2
        exact absurd (hsrc' ▸ List.mem_append_right src' (List.mem_singleton_self _)) hsrc
      · rw [← List.append_assoc, ← List.append_assoc] at hh'
        obtain ⟨rfl, -⟩ := List.cons_eq_cons.mp (List.append_inj' hh' rfl).2
        exact ⟨y', rfl⟩
    have hsame := List.append_cancel_left heq
    rw [List.append_assoc, List.append_assoc] at hsame
    rw [← eq_of_append_eq (quote_not_mem_movedSource hfolder hsrc) hsrc hsame]
    exact infix_movedSource folder i.src

/-- The correction of an image puts its new tag where the old one is. -/
theorem apply_correctedTag {t a f z b : Text} (hp : Image.Placed (lit "src") t i a f z b) {n k : Nat}
    (hstart : (n : Int) = i.start) (hstop : (k : Int) = i.stop) (g : Option TextRange) :
    Correction.apply t ⟨n, k, correctedTag folder i, g⟩ = a ++ (correctedTag folder i ++ b) := by
  have hplace := hp.start
  have hfront : n = a.length := by omega
  have hback : k = (a ++ i.fullText).length := by
    rw [Image.stop] at hstop
    rw [List.length_append]
    omega
  have ht : t = a ++ i.fullText ++ b := by
    rw [hp.text, hp.fullText]
    simp only [List.append_assoc]
  simp only [Correction.apply]
  rw [hfront, hback, List.append_assoc]
  refine congrArg₂ (· ++ ·) ?_ (congrArg _ ?_)
  · rw [ht, List.append_assoc, List.take_left]
  · rw [ht, List.drop_left]

/-- A tag whose source has been moved is found at its place, and there is nothing to report
about its folder. -/
theorem exists_moved {t a f z b : Text} (hp : Image.Placed (lit "src") t i a f z b)
    (hi : i ∈ Image.allWith (lit "src") false t) (hfolder : '"' ∉ folder) (s : Settings) :
    ∃ j ∈ Image.all (a ++ (f ++ (movedSource folder i.src ++ (z ++ b)))), j.misspelt = false ∧
      j.start = i.start ∧ j.src = movedSource folder i.src ∧ findings [j] folder s = .ok [] := by
  have hsrc : lit "src" ∈ Image.attributes := List.mem_cons_self
  obtain ⟨f', hf'⟩ := hp.head.head.exists_cons
  have hmeets := hp.meets hsrc hi (f' ++ (movedSource folder i.src ++ (z ++ b)))
  rw [← List.cons_append, ← hf'] at hmeets
  have hj := Image.mem_allWith_of_meets false hsrc hmeets hp.head
    (quote_not_mem_movedSource hfolder hp.quote) hp.tail
  refine ⟨_, List.mem_append_left _ hj, rfl, hp.start.symm, rfl, ?_⟩
  rw [findings, List.filter_cons_of_neg]
  · rfl
  · rw [misplaced_iff, not_and, not_not]
    exact fun _ => infix_movedSource folder i.src

/-- What becomes of an image whose folder is corrected. The text around its source stays,
and the image is found again at its place, now with its file in the folder and without a
finding, if and only if the source does not stand in the front of the tag as well. -/
theorem exists_moved_iff {t : Text} {s : Settings} {ds : List Diagnostic} (hfolder : '"' ∉ folder)
    (h : findings (Image.all t) folder s = .ok ds) {x : Diagnostic} (hx : x ∈ ds) {c : Correction}
    (hc : x.fix = some c) :
    ∃ i ∈ Image.all t, ∃ a f z b, i.misspelt = false ∧ i.start = x.start ∧
      Image.Placed (lit "src") t i a f z b ∧
      ((Correction.apply t c = a ++ (f ++ (movedSource folder i.src ++ (z ++ b))) ∧
          ∃ j ∈ Image.all (Correction.apply t c), j.misspelt = false ∧ j.start = i.start ∧
            j.src = movedSource folder i.src ∧ findings [j] folder s = .ok []) ↔
        ¬ i.src <:+: f) := by
  obtain ⟨i, hi, hmis, hstart, hstop, -, hfix⟩ := exists_of_mem_findings h hx
  rw [hfix] at hc
  have hspelt : i.misspelt = false := by
    cases hm : i.misspelt with
    | false => rfl
    | true =>
      rw [hm] at hc
      exact nomatch hc
  rw [hspelt, if_neg (by decide)] at hc
  obtain rfl := Option.some.inj hc
  have hwith : i ∈ Image.allWith (lit "src") false t := by
    refine (List.mem_append.mp hi).resolve_right fun hm => ?_
    rw [(Image.mem_allWith_iff.mp hm).1] at hspelt
    exact nomatch hspelt
  obtain ⟨a, f, z, b, hp⟩ := Image.exists_placed List.mem_cons_self hwith
  refine ⟨i, hi, a, f, z, b, hspelt, hstart.symm, hp, ?_⟩
  obtain ⟨d, rfl, -⟩ := hp.tail.mem
  rw [apply_correctedTag hp hstart hstop, ← correctedTag_eq_iff hp.fullText
    (hp.head.head.exists_quote List.mem_cons_self) hfolder hp.quote hmis]
  constructor
  · rintro ⟨heq, -⟩
    refine List.append_cancel_right (List.append_cancel_left (heq.trans ?_) : _ ++ b = _ ++ b)
    simp only [List.append_assoc]
  · intro heq
    have htext : a ++ (correctedTag folder i ++ b) =
        a ++ (f ++ (movedSource folder i.src ++ ('"' :: d ++ b))) := by
      rw [heq]
      simp only [List.append_assoc]
    rw [htext]
    exact ⟨rfl, exists_moved hp hwith hfolder s⟩

/-- An image tag with its source in another attribute. -/
def captioned : Text := lit "<img alt=\"1.png\" src=\"1.png\">"

/-- Its correction, which changes the other attribute. -/
def recaptioned : Correction := ⟨0, 29, lit "<img alt=\"a_files/1.png\" src=\"1.png\">", none⟩

/-- The finding about its folder. -/
def unmoved : Diagnostic where
  severity := .warning
  code := .imageFolder
  message := lit "Image source should be in \"a_files\" folder"
  source := lit "Educational Validator"
  rule := Images.ruleName
  start := 0
  stop := 29
  fix := some recaptioned

theorem findings_captioned : findings (Image.all captioned) (lit "a_files") {} = .ok [unmoved] := rfl

/-- The correction of this tag leaves its source as it is. -/
theorem exists_moved_iff_captioned :
    ∃ i ∈ Image.all captioned, ∃ a f z b, i.misspelt = false ∧ i.start = unmoved.start ∧
      Image.Placed (lit "src") captioned i a f z b ∧
      ((Correction.apply captioned recaptioned =
            a ++ (f ++ (movedSource (lit "a_files") i.src ++ (z ++ b))) ∧
          ∃ j ∈ Image.all (Correction.apply captioned recaptioned), j.misspelt = false ∧
            j.start = i.start ∧ j.src = movedSource (lit "a_files") i.src ∧
            findings [j] (lit "a_files") {} = .ok []) ↔
        ¬ i.src <:+: f) :=
  exists_moved_iff (by decide) findings_captioned List.mem_cons_self rfl

/-- So the correction of a folder can leave an image where it is. -/
theorem exists_unmoved : ¬ ∀ (t folder : Text) (s : Settings) (ds : List Diagnostic), folder ≠ [] →
    (∀ c ∈ folder, c ≠ '"' ∧ c ≠ '<' ∧ c ≠ '>') → findings (Image.all t) folder s = .ok ds →
    ∀ x ∈ ds, ∀ c, x.fix = some c → ∃ i ∈ Image.all t, i.start = x.start ∧
      ∃ j ∈ Image.all (Correction.apply t c), j.misspelt = false ∧ j.start = i.start ∧
        j.src = movedSource folder i.src := by
  intro h
  have hplain : ∀ c ∈ lit "a_files", c ≠ '"' ∧ c ≠ '<' ∧ c ≠ '>' := by simp [lit]
  have hmoved := h captioned (lit "a_files") {} [unmoved] (by decide) hplain findings_captioned
    unmoved List.mem_cons_self recaptioned rfl
  revert hmoved
  decide

end Worksheet.Folder
