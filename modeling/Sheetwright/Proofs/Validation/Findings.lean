import Mathlib.Data.List.Dedup
import Mathlib.Data.List.Perm.Basic
import Sheetwright.Validation
/-!
# Findings in any order

Validation goes through the records in turn and carries the labels of the tabs it has seen. Which
tab it blames for a repeated label depends on the order of the records; how often it reports the
label does not. `notices_findings` says what all findings come to, whichever record they blame: what
each record brings by itself, and each label once for every occurrence but the first.
-/

namespace Sheetwright

/-- What a diagnostic says, whichever record it blames. -/
def Diagnostic.notice (d : Diagnostic) : DiagnosticKind × String := (d.kind, d.message)

namespace Validation

variable {reference : Reference}

/-! ## Repeated items -/

section

variable {α : Type} [DecidableEq α]

/-- The items that stand among those before them or were seen already. -/
def repeatedFrom (seen : List α) : List α → List α
  | [] => []
  | item :: rest => (if item ∈ seen then [item] else []) ++ repeatedFrom (seen ++ [item]) rest

theorem repeatedFrom_append (seen items more : List α) :
    repeatedFrom seen (items ++ more) =
      repeatedFrom seen items ++ repeatedFrom (seen ++ items) more := by
  induction items generalizing seen with
  | nil => rw [List.nil_append, List.append_nil]; rfl
  | cons item items ih =>
    rw [List.cons_append, repeatedFrom, repeatedFrom, ih, List.append_assoc, List.append_assoc,
      List.singleton_append]

/-- An item is repeated as often as it occurs, but for its first occurrence if it was not seen. -/
theorem count_repeatedFrom (seen items : List α) (x : α) :
    (repeatedFrom seen items).count x = items.count x - if x ∈ seen then 0 else 1 := by
  induction items generalizing seen with
  | nil => simp [repeatedFrom]
  | cons item items ih =>
    rw [repeatedFrom, List.count_append, ih]
    by_cases hitem : item = x
    · subst hitem
      by_cases hseen : item ∈ seen
      · simp [hseen, Nat.add_comm]
      · simp [hseen]
    · have hmem : x ∈ seen ++ [item] ↔ x ∈ seen := by simp [Ne.symm hitem]
      have hnone : (if item ∈ seen then [item] else []).count x = 0 := by
        split <;> simp [hitem]
      rw [hnone, Nat.zero_add, List.count_cons_of_ne hitem]
      simp only [hmem]

/-- The repeated items make up for what is lost when each item is taken once. -/
theorem repeatedFrom_append_dedup (items : List α) :
    (repeatedFrom [] items ++ items.dedup).Perm items := by
  refine List.perm_iff_count.mpr fun x => ?_
  rw [List.count_append, count_repeatedFrom, List.count_dedup]
  by_cases hx : x ∈ items
  · have hcount : 0 < items.count x := List.count_pos_iff.mpr hx
    rw [if_neg List.not_mem_nil, if_pos hx]
    omega
  · rw [if_neg hx, List.count_eq_zero.mpr hx]
    omega

theorem repeatedFrom_perm {items items' : List α} (h : items.Perm items') :
    (repeatedFrom [] items).Perm (repeatedFrom [] items') := by
  refine List.perm_iff_count.mpr fun x => ?_
  rw [count_repeatedFrom, count_repeatedFrom, h.count_eq]

theorem length_repeatedFrom (items : List α) :
    (repeatedFrom [] items).length = items.length - items.dedup.length := by
  have hlength := (repeatedFrom_append_dedup items).length_eq
  rw [List.length_append] at hlength
  omega

end

/-! ## Types with a suffix -/

theorem nodup_eraseDups {α : Type} [DecidableEq α] (items : List α) : items.eraseDups.Nodup := by
  cases items with
  | nil => exact List.nodup_nil
  | cons item items =>
    rw [List.eraseDups_cons, List.nodup_cons, List.mem_eraseDups]
    exact ⟨by simp, nodup_eraseDups _⟩
termination_by items.length
decreasing_by exact Nat.lt_succ_of_le (List.length_filter_le _ _)

theorem mem_withSuffix {types : List String} {suffix type : String} :
    type ∈ withSuffix types suffix ↔ type ∈ types ∧ suffix.toList <:+ type.toList := by
  rw [withSuffix, List.mem_eraseDups, List.mem_filter, List.isSuffixOf_iff_suffix]

theorem nodup_withSuffix (types : List String) (suffix : String) :
    (withSuffix types suffix).Nodup := nodup_eraseDups _

/-! ## Single records -/

/-- What is found on a record whatever came before it. -/
def ownFindings (reference : Reference) (record : List Char) : List Diagnostic :=
  typeFindings reference record ++ labelFindings [] record ++ rowFindings record

def repeatedNotice (label : List Char) : DiagnosticKind × String :=
  (.duplicateLabel, s!"Duplicate tab label: \"{String.ofList label}\"")

/-- The labels seen before a record only add that its label is repeated. -/
theorem notices_labelFindings (seen : List (List Char)) (record : List Char) :
    (labelFindings seen record).map Diagnostic.notice =
      (labelFindings [] record).map Diagnostic.notice ++
        (repeatedFrom seen (labelOf? record).toList).map repeatedNotice := by
  rw [labelFindings, labelFindings, labelOf?]
  split
  next =>
    cases tabLabel? record with
    | none => rfl
    | some label =>
      simp only [Option.toList_some, repeatedFrom, List.contains_eq_mem, decide_eq_true_eq,
        List.not_mem_nil, if_false, List.append_nil, List.map_append]
      congr 1
      by_cases hseen : label ∈ seen
      · rw [if_pos hseen, if_pos hseen]
        rfl
      · rw [if_neg hseen, if_neg hseen]
        rfl
  next => rfl

/-! ## All records -/

/-- The labels by which tabs are checked. -/
def tabLabels (records : List (List Char)) : List (List Char) := records.filterMap labelOf?

theorem tabLabels_cons (record : List Char) (records : List (List Char)) :
    tabLabels (record :: records) = (labelOf? record).toList ++ tabLabels records := by
  rw [tabLabels, List.filterMap_cons]
  cases labelOf? record <;> rfl

theorem notices_recordFindings (seen records : List (List Char)) :
    ((recordFindings reference seen records).map Diagnostic.notice).Perm
      ((records.flatMap (ownFindings reference)).map Diagnostic.notice ++
        (repeatedFrom seen (tabLabels records)).map repeatedNotice) := by
  induction records generalizing seen with
  | nil => exact List.Perm.refl []
  | cons record records ih =>
    rw [recordFindings, tabLabels_cons, repeatedFrom_append, List.flatMap_cons, ownFindings]
    simp only [List.map_append, notices_labelFindings seen record]
    refine ((ih _).append_left _).trans (List.perm_iff_count.mpr fun notice => ?_)
    simp only [List.count_append]
    omega

/-- What a validation finds on the records, each of them by itself. -/
def separateFindings (reference : Reference) (records : List (List Char)) : List Diagnostic :=
  let checked := candidates records
  bracketFindings records ++ pairings.flatMap (pairingFindings (checked.map codeType)) ++
    checked.flatMap (ownFindings reference) ++
    checked.flatMap (driverFindings (rowIdentifiers checked))

theorem notices_findings (records : List (List Char)) :
    ((findings reference records).map Diagnostic.notice).Perm
      ((separateFindings reference records).map Diagnostic.notice ++
        (repeatedFrom [] (tabLabels (candidates records))).map repeatedNotice) := by
  rw [findings, separateFindings]
  simp only [List.map_append]
  refine (((notices_recordFindings [] _).append_left _).append_right _).trans
    (List.perm_iff_count.mpr fun notice => ?_)
  simp only [List.count_append]
  omega

end Validation

end Sheetwright
