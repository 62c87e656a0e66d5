import Sheetwright.Proofs.Validation.Findings
/-!
# The order of records

A validation says the same of the same records in every order: `run_perm`. Each check either looks
at one record, or at something that all records have together and that their order does not change:
the set of types with a suffix, the set of row identifiers, how often a label occurs.
-/

namespace Sheetwright.Validation

variable {reference : Reference} {records records' : List (List Char)}

/-! ## What all records have together -/

theorem candidates_perm (h : records.Perm records') :
    (candidates records).Perm (candidates records') :=
  (h.map _).filter _

theorem withSuffix_perm {types types' : List String} (h : types.Perm types') (suffix : String) :
    (withSuffix types suffix).Perm (withSuffix types' suffix) :=
  (List.perm_ext_iff_of_nodup (nodup_withSuffix _ _) (nodup_withSuffix _ _)).mpr fun type => by
    rw [mem_withSuffix, mem_withSuffix, h.mem_iff]

theorem pairingFindings_perm {types types' : List String} (h : types.Perm types')
    (rule : Pairing) : (pairingFindings types rule).Perm (pairingFindings types' rule) := by
  have hcompanions : (fun suffix => !(withSuffix types suffix).isEmpty) =
      fun suffix => !(withSuffix types' suffix).isEmpty := by
    funext suffix
    rw [(withSuffix_perm h suffix).isEmpty_eq]
  rw [pairingFindings, pairingFindings, hcompanions]
  split
  next => exact List.Perm.refl []
  next => exact (List.Perm.flatMap_left _ fun suffix _ => withSuffix_perm h suffix).map _

/-- Which drivers name no row depends on the set of identifiers only. -/
theorem driverFindings_congr {identifiers identifiers' : List (List Char)}
    (h : identifiers.Perm identifiers') :
    driverFindings identifiers = driverFindings identifiers' := by
  funext record
  simp only [driverFindings, List.contains_eq_mem, h.mem_iff]

/-! ## The same report -/

theorem separateFindings_perm (h : records.Perm records') :
    (separateFindings reference records).Perm (separateFindings reference records') := by
  have hchecked := candidates_perm h
  have hidentifiers : (rowIdentifiers (candidates records)).Perm
      (rowIdentifiers (candidates records')) :=
    ((hchecked.flatMap_right _).map _).filter _
  rw [separateFindings, separateFindings, driverFindings_congr hidentifiers]
  refine List.Perm.append (List.Perm.append (List.Perm.append ?_ ?_) ?_) ?_
  · exact (h.filter _).map _
  · exact List.Perm.flatMap_left _ fun rule _ => pairingFindings_perm (hchecked.map _) rule
  · exact hchecked.flatMap_right _
  · exact hchecked.flatMap_right _

theorem notices_perm (h : records.Perm records') :
    ((findings reference records).map Diagnostic.notice).Perm
      ((findings reference records').map Diagnostic.notice) := by
  have hlabels := (candidates_perm h).filterMap labelOf?
  refine (notices_findings records).trans (List.Perm.trans ?_ (notices_findings records').symm)
  exact ((separateFindings_perm h).map _).append ((repeatedFrom_perm hlabels).map _)

/-- The same records in another order get the same verdict, the same count and, but for the records
that are blamed, the same findings. -/
theorem run_perm (h : records.Perm records') :
    (run reference records).passed = (run reference records').passed ∧
      (run reference records).recordCount = (run reference records').recordCount ∧
      ((run reference records).diagnostics.map Diagnostic.notice).Perm
        ((run reference records').diagnostics.map Diagnostic.notice) := by
  have hnotices : ((findings reference records).map Diagnostic.notice).Perm _ := notices_perm h
  refine ⟨?_, congrArg Nat.cast h.length_eq, hnotices⟩
  have hempty := hnotices.isEmpty_eq
  rwa [List.isEmpty_map, List.isEmpty_map] at hempty

/-- The second of two tabs with one label is blamed, so read backwards it is the other one. -/
theorem run_perm_reverse :
    let reference := Reference.ofText "TAB\nBR".toList
    let records := ["<TAB; label1=\"a\">", "row1", "<TAB; label1=\"a\"; driver1=\"x\">",
      "<BR; row1=\"x|y\">", "<B-VR>", "<A-VV>", "<A-VV>"].map String.toList
    records.Perm records.reverse ∧
      ((run reference records).ofKind .duplicateLabel).map (·.record?) =
        [some "<TAB; label1=\"a\"; driver1=\"x\">"] ∧
      ((run reference records.reverse).ofKind .duplicateLabel).map (·.record?) =
        [some "<TAB; label1=\"a\">"] ∧
      (run reference records).passed = (run reference records.reverse).passed ∧
      (run reference records).recordCount = (run reference records.reverse).recordCount ∧
      ((run reference records).diagnostics.map Diagnostic.notice).Perm
        ((run reference records.reverse).diagnostics.map Diagnostic.notice) := by
  intro reference records
  have hreverse : records.Perm records.reverse := (List.reverse_perm records).symm
  exact ⟨hreverse, by decide +kernel, by decide +kernel, run_perm hreverse⟩

end Sheetwright.Validation
