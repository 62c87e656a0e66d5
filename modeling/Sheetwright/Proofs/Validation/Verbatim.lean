import Sheetwright.Proofs.Validation.Counts
import Sheetwright.Proofs.Validation.Passed
/-!
# Records that validation finds

The lines of a pasted text are trimmed, freed of quotes and commas at their ends and joined before
the records are taken out of them. None is lost, split or merged on the way
(`recordsOfText_verbatim`): validation finds the records of the text in their order, but for empty
pairs of brackets, and one that stands on one line is found as it is. Only what stands in the middle
of a record at the ends of its lines is cleaned.
-/

namespace Sheetwright.Validation

open Record Text

variable {reference : Reference} {text record : List Char}

/-- The records of a text that hold something between their brackets. -/
def filledTexts (text : List Char) : List (List Char) :=
  (texts text).filter (· != ['<', '>'])

/-- How a record is found: with its lines cleaned, and verbatim if it stands on one line. -/
structure Found (record found : List Char) : Prop where
  cleaned : found = cleaned record
  verbatim : (∀ c ∈ record, isLineBreak c = false) → found = record

theorem found_cleaned (h : record ∈ texts text) : Found record (cleaned record) := by
  obtain ⟨body, -, rfl⟩ := mem_texts h
  exact ⟨rfl, cleaned_of_unbroken⟩

/-- A kind of finding that the records give no reason for is not reported. -/
theorem ofKind_eq_nil {records : List (List Char)} {kind : DiagnosticKind}
    (h : expected reference records kind = 0) : (run reference records).ofKind kind = [] := by
  rw [← List.length_eq_zero_iff, length_ofKind, h]

/-- No record of a text lacks a bracket. -/
theorem ofKind_malformedRecord (reference : Reference) (text : List Char) :
    (runText reference text).ofKind .malformedRecord = [] := by
  rw [runText, runFound]
  split
  · rfl
  · refine ofKind_eq_nil (List.countP_eq_zero.mpr fun record hrecord => ?_)
    rcases isBracketed_of_mem hrecord with ⟨htrim, hbracketed⟩
    rw [htrim, hbracketed]
    decide

/-- A text without records is reported as such, and no other text is. -/
theorem ofKind_noRecords (reference : Reference) (text : List Char) :
    (runText reference text).ofKind .noRecords ≠ [] ↔ recordsOfText text = [] := by
  rw [runText, runFound]
  cases hrecords : recordsOfText text with
  | nil => exact iff_of_true (List.cons_ne_nil _ _) rfl
  | cons record records =>
    exact iff_of_false (fun h => h (ofKind_eq_nil rfl)) (List.cons_ne_nil _ _)

/-- Cleaning a text keeps its records, in their order and the unbroken ones verbatim; so a
validation finds none exactly if the text has none, and none that is malformed. -/
theorem recordsOfText_verbatim (reference : Reference) (text : List Char) :
    List.Forall₂ Found (filledTexts text) (recordsOfText text) ∧
      ((runText reference text).ofKind .noRecords ≠ [] ↔ filledTexts text = []) ∧
      (runText reference text).ofKind .malformedRecord = [] := by
  have hfound : List.Forall₂ Found (filledTexts text) (recordsOfText text) := by
    -- what is found is the list of the records, each cleaned in its place
    rw [recordsOfText_eq, ← filledTexts, List.forall₂_map_right_iff, List.forall₂_same]
    exact fun record hrecord => found_cleaned (List.mem_filter.mp hrecord).1
  refine ⟨hfound, ?_, ofKind_malformedRecord reference text⟩
  rw [ofKind_noRecords, recordsOfText_eq, List.map_eq_nil_iff, filledTexts]

end Sheetwright.Validation
