import Worksheet.Document

/-!
# Positions in a document

`Document.positionAt_le`: neither the line nor the column of an offset is larger than the
length of the text.
-/

namespace Worksheet

theorem Text.length_linesFrom_le (start n : Nat) (t : Text) :
    (linesFrom start n t).length ≤ t.length + 1 := by
  fun_induction linesFrom start n t with
  | case1 => exact Nat.le_refl 1
  | case2 start n cs ih =>
    simp only [List.length_cons]
    omega
  | case3 start n c cs _ _ ih =>
    simp only [List.length_cons]
    omega
  | case4 start n c cs _ _ ih =>
    simp only [List.length_cons]
    omega

namespace Document

theorem positionIn_le {lines : List LineSpan} {length : Nat} (h : lines.length ≤ length + 1) (offset : Int) :
    (positionIn lines length offset).line ≤ length ∧ (positionIn lines length offset).column ≤ length := by
  have hcount : lines.countP (fun l => l.start ≤ (min offset length).toNat) ≤ lines.length :=
    List.countP_le_length
  simp only [positionIn]
  constructor <;> omega

/-- Neither the line nor the column of an offset is larger than the length of the text. -/
theorem positionAt_le (d : Document) (offset : Int) :
    (d.positionAt offset).line ≤ d.text.length ∧ (d.positionAt offset).column ≤ d.text.length :=
  positionIn_le (Text.length_linesFrom_le 0 0 d.text) offset

end Document

end Worksheet
