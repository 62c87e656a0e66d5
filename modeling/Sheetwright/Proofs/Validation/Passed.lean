import Sheetwright.Proofs.Validation.Cleaned
import Sheetwright.Validation
/-!
# What a passed validation says

A validation passes when none of its checks finds anything. Each record that is checked then has a
type of the reference, a tab has a label that no tab before it has, every row has a second field,
and every driver names a row of the run.
-/

namespace Sheetwright.Validation

open Record Text

variable {reference : Reference} {text record : List Char} {records : List (List Char)}

/-! ## Checked records -/

theorem mem_recordsOfText :
    record ∈ recordsOfText text ↔ ∃ raw ∈ texts text, raw ≠ ['<', '>'] ∧ cleaned raw = record := by
  rw [recordsOfText_eq, List.mem_map]
  constructor
  · rintro ⟨raw, hraw, rfl⟩
    obtain ⟨hmem, hne⟩ := List.mem_filter.mp hraw
    exact ⟨raw, hmem, by simpa using hne, rfl⟩
  · rintro ⟨raw, hmem, hne, rfl⟩
    exact ⟨raw, List.mem_filter.mpr ⟨hmem, by simpa using hne⟩, rfl⟩

/-- What is found in a text stands between brackets, and these bound it. -/
theorem isBracketed_of_mem (hrecord : record ∈ recordsOfText text) :
    trim record = record ∧ isBracketed record = true := by
  rcases mem_recordsOfText.mp hrecord with ⟨raw, hraw, -, rfl⟩
  rcases exists_cleaned hraw with ⟨body, -, hclean⟩
  rw [hclean]
  refine ⟨trim_record body, ?_⟩
  rw [isBracketed, List.getLast?_concat]
  rfl

/-- All records of a text but a bare break are checked, and nothing else is. -/
theorem candidates_recordsOfText (text : List Char) :
    candidates (recordsOfText text) = (recordsOfText text).filter (· != breakRecord) := by
  -- they are trimmed already, and none is left out for its brackets
  have htrim : (recordsOfText text).map trim = recordsOfText text := by
    rw [List.map_congr_left fun record hrecord => (isBracketed_of_mem hrecord).1, List.map_id']
  rw [candidates, htrim]
  refine List.filter_congr fun record hrecord => ?_
  rw [(isBracketed_of_mem hrecord).2, Bool.true_and]

theorem mem_candidates_of_ne (hrecord : record ∈ texts text)
    (hne : record ≠ ['<', '>'] ∧ cleaned record ≠ breakRecord) :
    cleaned record ∈ candidates (recordsOfText text) := by
  rw [candidates_recordsOfText, List.mem_filter]
  exact ⟨mem_recordsOfText.mpr ⟨record, hrecord, hne.1, rfl⟩, by simpa using hne.2⟩

/-! ## No findings -/

theorem findings_eq_nil (h : (runText reference text).passed = true) :
    findings reference (recordsOfText text) = [] := by
  rw [runText, runFound] at h
  split at h
  · cases h
  · simpa [Report.passed, run] using h

/-- What is found at none of the records in turn. -/
theorem recordFindings_append {seen : List (List Char)} {before after : List (List Char)}
    (h : recordFindings reference seen (before ++ record :: after) = []) :
    typeFindings reference record = [] ∧
      labelFindings (seen ++ before.flatMap fun other => (labelOf? other).toList) record = [] ∧
      rowFindings record = [] := by
  induction before generalizing seen with
  | nil =>
    rw [List.nil_append, recordFindings] at h
    simp only [List.append_eq_nil_iff] at h
    simpa using ⟨h.1.1.1, h.1.1.2, h.1.2⟩
  | cons first before ih =>
    rw [List.cons_append, recordFindings, List.append_eq_nil_iff] at h
    simpa using ih h.2

/-- A record that is checked has a type of the reference. -/
theorem contains_codeType (h : (runText reference text).passed = true)
    (hrecord : record ∈ candidates (recordsOfText text)) :
    reference.contains (codeType record) = true := by
  have hfindings := findings_eq_nil h
  simp only [findings, List.append_eq_nil_iff] at hfindings
  rcases List.append_of_mem hrecord with ⟨before, after, hsplit⟩
  have hrecords := hfindings.1.2
  rw [hsplit] at hrecords
  have htype := (recordFindings_append hrecords).1
  rw [typeFindings] at htype
  split at htype
  next hcontains => exact hcontains
  next => cases htype

/-- A driver that is found in a checked record is the identifier of a row that is found in one. -/
theorem driver_mem_rowIdentifiers (h : (runText reference text).passed = true)
    (hrecord : record ∈ candidates (recordsOfText text)) {value : List Char}
    (hvalue : value ∈ driverValues record) :
    trim value ∈ rowIdentifiers (candidates (recordsOfText text)) := by
  have hfindings := findings_eq_nil h
  simp only [findings, List.append_eq_nil_iff, List.flatMap_eq_nil_iff] at hfindings
  have hdrivers := hfindings.2 record hrecord
  rw [driverFindings, List.filterMap_eq_nil_iff] at hdrivers
  have hdriver := hdrivers (trim value) (List.mem_map_of_mem hvalue)
  split at hdriver
  next hcontains => simpa using hcontains
  next => cases hdriver

end Sheetwright.Validation
