import Sheetwright.Proofs.Record.Kept
/-!
# Values behind their names

A value is given to the first known name of its fragment, and it is read behind the equals sign of
that name: it is the text between the first two quotes there (`outcome_eq_attribute`). A name is
known wherever it is set off from the text before it. What stands between the equals sign and the
first quote is not looked at, so it may be more than the blanks that the grammar of records has
there, and even another name with an equals sign of its own, which then lends its value
(`not_all_beside`).
-/

namespace Sheetwright.Record

open Text

variable {fragment value : List Char} {name : AttributeName}

/-- The fragment holds the name of the attribute, set off from the text before it, an equals sign
behind it and, between quotes, the value, with nothing but blanks between them. -/
def Beside (fragment : List Char) (name : AttributeName) (value : List Char) : Prop :=
  ∃ (part : NamedPart) (lead gap tail : List Char), part.Stands lead fragment ∧
    AttributeName.read part.letters part.digits = .ok (some name) ∧ allBlank gap = true ∧
    part.rest = gap ++ '"' :: (value ++ '"' :: tail)

/-- A fragment gives a value to a name if and only if the name is the first known one that stands
before an equals sign, and the value is what the next two quotes enclose. -/
theorem outcome_eq_attribute :
    outcome fragment = .ok (.attribute name value) ↔
      ∃ before part after lead gap tail, namedParts fragment = before ++ part :: after ∧
        (∀ other ∈ before, AttributeName.read other.letters other.digits = .ok none) ∧
        AttributeName.read part.letters part.digits = .ok (some name) ∧
        part.Stands lead fragment ∧ '"' ∉ gap ∧ '"' ∉ value ∧
        part.rest = gap ++ '"' :: (value ++ '"' :: tail) := by
  rw [outcome_eq_attribute_iff]
  constructor
  · rintro ⟨gap, tail, hgap, hvalue, hknown⟩
    rcases firstKnown_namedParts_iff.mp hknown with
      ⟨before, part, after, lead, hsplit, hbefore, hread, hstands, hrest⟩
    exact ⟨before, part, after, lead, gap, tail, hsplit, hbefore, hread, hstands, hgap, hvalue,
      hrest⟩
  · rintro ⟨before, part, after, lead, gap, tail, hsplit, hbefore, hread, hstands, hgap, hvalue,
      hrest⟩
    have hknown := firstKnown_namedParts_iff.mpr
      ⟨before, part, after, lead, hsplit, hbefore, hread, hstands, hrest⟩
    exact ⟨gap, tail, hgap, hvalue, hknown⟩

/-- The value behind one name can be given to another one that stands before it. -/
theorem not_all_beside :
    ¬∀ fragment name value, outcome fragment = .ok (.attribute name value) →
      Beside fragment name value := by
  intro hall
  have hgives : outcome " label1=x label2=\"B\"".toList =
      .ok (.attribute (.slot .label 1) ['B']) := by
    decide +kernel
  rcases hall _ _ _ hgives with ⟨part, lead, gap, tail, hstands, hread, hgap, hrest⟩
  have hparts : namedParts " label1=x label2=\"B\"".toList =
      [⟨"label".toList, ['1'], "x label2=\"B\"".toList⟩,
        ⟨"label".toList, ['2'], "\"B\"".toList⟩] := by
    decide +kernel
  have hpart := mem_namedParts_iff.mpr ⟨lead, hstands⟩
  rw [hparts, List.mem_cons, List.mem_singleton] at hpart
  rcases hpart with rfl | rfl
  · -- the first name has no blank but a letter behind its sign
    cases gap with
    | nil => cases hrest
    | cons c gap =>
      obtain ⟨rfl, -⟩ := List.cons.inj hrest
      cases hgap
  · have hother : AttributeName.read "label".toList ['2'] = .ok (some (.slot .label 2)) := by
      decide +kernel
    rw [hother] at hread
    cases hread

end Sheetwright.Record
