import Worksheet.Proofs.Image.Typo

/-!
# Wider windows

A wider window around a path can show another mistyped tag than a narrower one does, but it
shows one for every path for which the narrower one did: what is read in a part of a text is
also read in the text (`Pattern.find?_ne_none_of_part`). As the message about a mistyped tag
only tells of the path, no message is lost (`Typo.messages_sublist`).
-/

namespace Worksheet

/-- A narrower window is a part of a wider one. -/
theorem Text.infix_window_of_le (t : Text) (n len : Nat) {r r' : Nat} (h : r ≤ r') :
    (t.window n (n + len) r).2 <:+: (t.window n (n + len) r').2 := by
  rw [window_eq, window_eq]
  have hback : t.take (min t.length (n + len + r)) <+: t.take (min t.length (n + len + r')) :=
    List.take_prefix_take_left (by omega)
  have hfront : n - r' ≤ n - r := by omega
  refine (hback.drop (n - r)).isInfix.trans ?_
  rw [← Nat.add_sub_cancel' hfront, ← List.drop_drop]
  exact (List.drop_suffix _ _).isInfix

/-- Where something is read in a part of a text, something is read in the text. -/
theorem Pattern.find?_ne_none_of_part {p : Pattern} {w w' : Text} (h : w <:+: w')
    (hw : p.find? w ≠ none) : p.find? w' ≠ none := by
  intro hnone
  apply hw
  rw [find?_eq_none_iff] at hnone ⊢
  intro u gs hu hpart
  exact hnone u gs hu (List.IsInfix.trans hpart h)

namespace Typo

theorem inWindow?_ne_none_iff {w : Text} : inWindow? w ≠ none ↔ ∃ p ∈ patterns, p.find? w ≠ none := by
  rw [inWindow?, ne_eq, List.findSome?_eq_none_iff]
  simp

theorem inWindow?_ne_none_of_part {w w' : Text} (h : w <:+: w') (hw : inWindow? w ≠ none) :
    inWindow? w' ≠ none := by
  obtain ⟨p, hp, hfind⟩ := inWindow?_ne_none_iff.mp hw
  exact inWindow?_ne_none_iff.mpr ⟨p, hp, Pattern.find?_ne_none_of_part h hfind⟩

/-- Whether the window around the first place of a path shows a mistyped tag. -/
def shows (t : Text) (radius : Nat) (p : Text) : Bool :=
  let n := (Text.offsetOf? p t).getD 0
  (inWindow? (t.window n (n + p.length) radius).2).isSome

theorem shows_of_le {t p : Text} {r r' : Nat} (h : r ≤ r') (hp : shows t r p = true) :
    shows t r' p = true := by
  rw [shows, Option.isSome_iff_ne_none] at hp ⊢
  exact inWindow?_ne_none_of_part (t.infix_window_of_le _ _ h) hp

/-- The message about a mistyped tag for a path. -/
def typoMessage (p : Text) : Text := lit "Possible typo in image tag. Should be " ++ correctTag p

variable {t : Text} {s : Settings}

theorem map_message_typoOf (p : Text) :
    (typoOf t s p).map (·.1.message) =
      if shows t s.images.typoWindow p then some (typoMessage p) else none := by
  rw [typoOf, typoReport, Option.map_map, shows]
  cases inWindow? (t.window ((Text.offsetOf? p t).getD 0) ((Text.offsetOf? p t).getD 0 + p.length)
    s.images.typoWindow).2 <;> rfl

/-- The messages about mistyped tags are those for the paths whose windows show one. -/
theorem map_message_findings (images : List Image) :
    ((findings t images s).filter (·.code = .imageTagTypo)).map (·.message) =
      (((paths t).filter fun p => !accounted images p).filter (shows t s.images.typoWindow)).map
        typoMessage := by
  have hreports : (findings t images s).filter (·.code = .imageTagTypo) =
      ((reports t images s).filter isTypo).map (·.1) := by
    rw [findings, List.filter_map]
    rfl
  have hshown (ps : List Text) : (ps.filter (shows t s.images.typoWindow)).map typoMessage =
      ps.filterMap fun p => if shows t s.images.typoWindow p then some (typoMessage p) else none := by
    rw [← List.filterMap_eq_map', List.filterMap_filter]
  rw [hreports, filter_isTypo_reports, List.map_map, List.map_filterMap, hshown]
  exact List.filterMap_congr fun p _ => map_message_typoOf p

/-- With a wider window, all messages about mistyped tags stay, in their order. No other
setting matters for them. -/
theorem messages_sublist (t : Text) (images : List Image) {s s' : Settings}
    (h : s.images.typoWindow ≤ s'.images.typoWindow) :
    (((findings t images s).filter (·.code = .imageTagTypo)).map (·.message)).Sublist
      (((findings t images s').filter (·.code = .imageTagTypo)).map (·.message)) := by
  rw [map_message_findings, map_message_findings]
  refine List.Sublist.map typoMessage (List.monotone_filter_right _ ?_)
  intro p
  exact shows_of_le h

/-- A window of three characters does not reach the front of the mistyped tag, one of fifty
does. -/
theorem messages_sublist_narrow :
    (((findings (lit "<im src=\"a_files/1.png\">") [] { images := { typoWindow := 3 } }).filter
        (·.code = .imageTagTypo)).map (·.message)).Sublist
      (((findings (lit "<im src=\"a_files/1.png\">") [] {}).filter
        (·.code = .imageTagTypo)).map (·.message)) :=
  messages_sublist _ _ (by decide)

end Typo

end Worksheet
