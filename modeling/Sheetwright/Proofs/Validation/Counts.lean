import Mathlib.Algebra.BigOperators.Group.List.Basic
import Mathlib.Algebra.GroupWithZero.Nat
import Sheetwright.Proofs.Text.Cut
import Sheetwright.Proofs.Validation.Findings
/-!
# What a report says

How often a validation reports each kind of finding is read off the records: `run_exact`. The counts
are those of `expected`, which has no accumulators; in particular a validation passes if and only if
the records are sound. What all findings come to is known from `notices_findings`, so each check is
counted by itself.
-/

namespace Sheetwright

/-- How many of some diagnostics are of a kind. -/
def Diagnostic.tally (kind : DiagnosticKind) (found : List Diagnostic) : Nat :=
  found.countP (·.kind == kind)

namespace Validation

open Diagnostic Text

variable {reference : Reference} {kind : DiagnosticKind}

/-! ## What is counted -/

def types (records : List (List Char)) : List String := (candidates records).map codeType

/-- The checked records that are tabs. -/
def tabs (records : List (List Char)) : List (List Char) :=
  (candidates records).filter fun record => codeType record = tabType

/-- The labels of the tabs that have one. -/
def labels (records : List (List Char)) : List (List Char) := (tabs records).filterMap tabLabel?

/-- A driver is the first field of a row, trimmed, and not empty. -/
def NamesRow (records : List (List Char)) (driver : List Char) : Prop :=
  driver ≠ [] ∧ ∃ record ∈ candidates records, ∃ row ∈ rowValues record,
    trim (row.takeWhile (· != '|')) = driver

instance (records : List (List Char)) (driver : List Char) : Decidable (NamesRow records driver) :=
  inferInstanceAs (Decidable (driver ≠ [] ∧ ∃ record ∈ candidates records,
    ∃ row ∈ rowValues record, trim (row.takeWhile (· != '|')) = driver))

/-- A type ends with one of some suffixes. -/
def EndsWithAny (suffixes : List String) (type : String) : Prop :=
  ∃ suffix ∈ suffixes, suffix.toList <:+ type.toList

instance (suffixes : List String) (type : String) : Decidable (EndsWithAny suffixes type) :=
  inferInstanceAs (Decidable (∃ suffix ∈ suffixes, suffix.toList <:+ type.toList))

/-- The distinct types with one of the first suffixes, unless some type has one of the second. -/
def unpaired (requesters companions types : List String) : List String :=
  if ∃ type ∈ types, EndsWithAny companions type then []
  else (types.filter fun type => EndsWithAny requesters type).dedup

/-- How often a validation reports each kind of finding. -/
def expected (reference : Reference) (records : List (List Char)) : DiagnosticKind → Nat
  | .malformedRecord => records.countP fun record => !isBracketed (trim record)
  | .unknownCodeType => (types records).countP fun type => type ∉ reference
  | .missingTabLabel => (tabs records).countP fun tab => tabLabel? tab = none
  | .labelTooLong => (labels records).countP fun label => 30 < label.length
  | .illegalLabelChars => (labels records).countP fun label => label.any (· ∈ "&,\":;".toList)
  | .duplicateLabel => (labels records).length - (labels records).dedup.length
  | .formatError => ((candidates records).flatMap rowValues).countP fun row => '|' ∉ row
  | .danglingDriverReference => ((candidates records).flatMap driverValues).countP fun driver =>
      ¬NamesRow records (trim driver)
  | .missingPairedSuffix =>
      (unpaired ["-VV", "-VR"] ["-EV", "-RV"] (types records)).length +
        (unpaired ["-RR", "-RV"] ["-ER", "-VR"] (types records)).length
  | .noRecords => 0

/-- Records that give no reason for a finding. -/
structure Sound (reference : Reference) (records : List (List Char)) : Prop where
  bracketed : ∀ record ∈ records, isBracketed (trim record) = true
  known : ∀ type ∈ types records, type ∈ reference
  labelled : ∀ tab ∈ tabs records, ∃ label, tabLabel? tab = some label
  short : ∀ label ∈ labels records, label.length ≤ 30
  legal : ∀ label ∈ labels records, ∀ c ∈ label, c ∉ "&,\":;".toList
  distinct : (labels records).Nodup
  fields : ∀ record ∈ candidates records, ∀ row ∈ rowValues record, '|' ∈ row
  drivers : ∀ record ∈ candidates records, ∀ driver ∈ driverValues record,
    NamesRow records (trim driver)
  firstPair : (∃ type ∈ types records, EndsWithAny ["-VV", "-VR"] type) →
    ∃ type ∈ types records, EndsWithAny ["-EV", "-RV"] type
  secondPair : (∃ type ∈ types records, EndsWithAny ["-RR", "-RV"] type) →
    ∃ type ∈ types records, EndsWithAny ["-ER", "-VR"] type

/-! ## Tallies -/

theorem tally_append (found more : List Diagnostic) :
    tally kind (found ++ more) = tally kind found + tally kind more := List.countP_append

theorem tally_flatMap (records : List (List Char)) (check : List Char → List Diagnostic) :
    tally kind (records.flatMap check) =
      (records.map fun record => tally kind (check record)).sum :=
  List.countP_flatMap

theorem tally_flatMap_append (records : List (List Char))
    (check more : List Char → List Diagnostic) :
    tally kind (records.flatMap fun record => check record ++ more record) =
      tally kind (records.flatMap check) + tally kind (records.flatMap more) := by
  simp only [tally_flatMap, tally_append, List.sum_map_add]

/-- Findings of one kind count for that kind only. -/
theorem tally_of_kind {k : DiagnosticKind} {found : List Diagnostic} (h : ∀ d ∈ found, d.kind = k) :
    tally kind found = if kind = k then found.length else 0 := by
  split
  next hkind =>
    exact List.countP_eq_length.mpr fun d hd => by rw [h d hd, hkind, beq_self_eq_true]
  next hkind =>
    exact List.countP_eq_zero.mpr fun d hd => by simpa [h d hd] using Ne.symm hkind

theorem tally_eq_of_perm {found : List Diagnostic} {notices : List (DiagnosticKind × String)}
    (h : (found.map notice).Perm notices) :
    tally kind found = notices.countP (·.1 == kind) := by
  rw [← h.countP_eq, List.countP_map]
  rfl

theorem tally_finding (k : DiagnosticKind) (message : String) (record : List Char) :
    tally kind [finding k message record] = if kind = k then 1 else 0 := by
  rw [tally_of_kind (k := k) (by simp [finding])]
  rfl

theorem tally_finding_if (p : Prop) [Decidable p] (k : DiagnosticKind) (message : String)
    (record : List Char) :
    tally kind (if p then [finding k message record] else []) =
      if kind = k then (if p then 1 else 0) else 0 := by
  by_cases hp : p
  · rw [if_pos hp, tally_finding, if_pos hp]
  · rw [if_neg hp, if_neg hp, ite_self]
    rfl

/-! ## One check at a time -/

theorem tally_bracketFindings (records : List (List Char)) :
    tally kind (bracketFindings records) =
      if kind = .malformedRecord then records.countP fun record => !isBracketed (trim record)
      else 0 := by
  rw [tally_of_kind (k := .malformedRecord), bracketFindings, List.length_map,
    List.countP_eq_length_filter]
  intro d hd
  rcases List.mem_map.mp hd with ⟨record, -, rfl⟩
  rfl

theorem tally_typeFindings (records : List (List Char)) :
    tally kind (records.flatMap (typeFindings reference)) =
      if kind = .unknownCodeType then (records.map codeType).countP fun type => type ∉ reference
      else 0 := by
  induction records with
  | nil => simp [tally]
  | cons record records ih =>
    rw [List.flatMap_cons, tally_append, ih, List.map_cons, List.countP_cons, typeFindings]
    by_cases hknown : codeType record ∈ reference
    · simp [hknown, tally]
    · simp only [Std.ExtTreeSet.contains_iff_mem, hknown, if_false, tally_finding]
      split <;> simp [Nat.add_comm]

theorem tally_rowFindings (records : List (List Char)) :
    tally kind (records.flatMap rowFindings) =
      if kind = .formatError then (records.flatMap rowValues).countP fun row => '|' ∉ row
      else 0 := by
  induction records with
  | nil => simp [tally]
  | cons record records ih =>
    have hown : tally kind (rowFindings record) =
        if kind = .formatError then (rowValues record).countP fun row => '|' ∉ row else 0 := by
      rw [tally_of_kind (k := .formatError), rowFindings, List.length_map,
        List.countP_eq_length_filter]
      · simp
      · intro d hd
        rcases List.mem_map.mp hd with ⟨row, -, rfl⟩
        rfl
    rw [List.flatMap_cons, List.flatMap_cons, tally_append, ih, hown, List.countP_append]
    split <;> simp

theorem tally_driverFindings (identifiers records : List (List Char)) :
    tally kind (records.flatMap (driverFindings identifiers)) =
      if kind = .danglingDriverReference then
        (records.flatMap driverValues).countP fun driver => trim driver ∉ identifiers
      else 0 := by
  induction records with
  | nil => simp [tally]
  | cons record records ih =>
    have hown : tally kind (driverFindings identifiers record) =
        if kind = .danglingDriverReference then
          (driverValues record).countP fun driver => trim driver ∉ identifiers else 0 := by
      rw [tally_of_kind (k := .danglingDriverReference)]
      · rw [driverFindings, List.length_filterMap_eq_countP, List.countP_map]
        refine congrArg (ite _ · 0) (List.countP_congr fun driver _ => ?_)
        by_cases hnamed : trim driver ∈ identifiers <;> simp [hnamed]
      · intro d hd
        rcases List.mem_filterMap.mp hd with ⟨driver, -, hsome⟩
        split at hsome
        next => cases hsome
        next => rw [← Option.some.inj hsome]; rfl
    rw [List.flatMap_cons, List.flatMap_cons, tally_append, ih, hown, List.countP_append]
    split <;> simp

/-- A tab without a label counts once, and a label counts for each rule that it breaks. -/
theorem tally_labelFindings (records : List (List Char)) :
    tally kind (records.flatMap (labelFindings [])) =
      (if kind = .missingTabLabel then
        (records.filter fun record => codeType record = tabType).countP fun tab =>
          tabLabel? tab = none
      else 0) +
      (if kind = .labelTooLong then
        (tabLabels records).countP fun label => labelLimit < label.length
      else 0) +
      (if kind = .illegalLabelChars then
        (tabLabels records).countP fun label => label.any isIllegalInLabel
      else 0) := by
  induction records with
  | nil => simp [tally, tabLabels]
  | cons record records ih =>
    have hnone : tally kind [] = 0 := rfl
    rw [List.flatMap_cons, tally_append, ih, tabLabels_cons, List.filter_cons, labelFindings,
      labelOf?]
    by_cases htab : codeType record = tabType
    · cases hlabel : tabLabel? record with
      | none =>
        simp only [htab, hlabel, if_true, tally_finding, decide_true, Option.toList_none,
          List.nil_append, List.countP_cons, ite_add_zero]
        omega
      | some label =>
        simp only [htab, hlabel, if_true, tally_append, tally_finding_if, decide_true,
          List.contains_nil, Bool.false_eq_true, if_false, hnone, Nat.add_zero,
          Option.toList_some, List.singleton_append, List.countP_cons, decide_eq_true_eq,
          reduceCtorEq, ite_add_zero]
        omega
    · simp [htab, tally]

theorem tally_ownFindings (records : List (List Char)) :
    tally kind (records.flatMap (ownFindings reference)) =
      tally kind (records.flatMap (typeFindings reference)) +
        tally kind (records.flatMap (labelFindings [])) +
        tally kind (records.flatMap rowFindings) := by
  rw [← tally_flatMap_append, ← tally_flatMap_append]
  rfl

/-! ## Suffix pairs -/

theorem any_companion (types companions : List String) :
    (companions.any fun suffix => !(withSuffix types suffix).isEmpty) = true ↔
      ∃ type ∈ types, EndsWithAny companions type := by
  rw [List.any_eq_true]
  constructor
  · rintro ⟨suffix, hsuffix, hfound⟩
    rcases List.isEmpty_eq_false_iff_exists_mem.mp (by simpa using hfound) with ⟨type, htype⟩
    rw [mem_withSuffix] at htype
    exact ⟨type, htype.1, suffix, hsuffix, htype.2⟩
  · rintro ⟨type, htype, suffix, hsuffix, hends⟩
    have hmem := List.ne_nil_of_mem (mem_withSuffix.mpr ⟨htype, hends⟩)
    exact ⟨suffix, hsuffix, by simpa using hmem⟩

/-- Two suffixes of one length are not both at the end of a type. -/
theorem disjoint_withSuffix (types : List String) {suffix other : String} (hne : suffix ≠ other)
    (hlength : suffix.toList.length = other.toList.length) :
    List.Disjoint (withSuffix types suffix) (withSuffix types other) := by
  intro type htype htype'
  have hends := (mem_withSuffix.mp htype).2
  have hends' := (mem_withSuffix.mp htype').2
  have hsuffix := List.suffix_of_suffix_length_le hends hends' hlength.le
  exact hne (String.toList_injective (hsuffix.eq_of_length hlength))

/-- Each distinct type with a suffix that asks for a companion is reported once. -/
theorem length_pairingFindings (types : List String) {rule : Pairing}
    (hrule : rule.requesters.Pairwise fun suffix other =>
      suffix ≠ other ∧ suffix.toList.length = other.toList.length) :
    (pairingFindings types rule).length =
      (unpaired rule.requesters rule.companions types).length := by
  rw [pairingFindings, unpaired]
  by_cases hpaired : ∃ type ∈ types, EndsWithAny rule.companions type
  · rw [if_pos hpaired, if_pos ((any_companion types _).mpr hpaired)]
    rfl
  · rw [if_neg hpaired, if_neg (mt (any_companion types _).mp hpaired), List.length_map]
    refine ((List.perm_ext_iff_of_nodup ?_ (List.nodup_dedup _)).mpr fun type => ?_).length_eq
    · exact List.nodup_flatMap.mpr ⟨fun suffix _ => nodup_withSuffix types suffix,
        hrule.imp fun h => disjoint_withSuffix types h.1 h.2⟩
    · rw [List.mem_dedup, List.mem_filter, List.mem_flatMap, decide_eq_true_eq]
      constructor
      · rintro ⟨suffix, hsuffix, hmem⟩
        rw [mem_withSuffix] at hmem
        exact ⟨hmem.1, suffix, hsuffix, hmem.2⟩
      · rintro ⟨htype, suffix, hsuffix, hends⟩
        exact ⟨suffix, hsuffix, mem_withSuffix.mpr ⟨htype, hends⟩⟩

theorem kind_of_mem_pairingFindings {types : List String} {rule : Pairing} {d : Diagnostic}
    (hd : d ∈ pairingFindings types rule) : d.kind = .missingPairedSuffix := by
  rw [pairingFindings] at hd
  split at hd
  next => cases hd
  next =>
    rcases List.mem_map.mp hd with ⟨type, -, rfl⟩
    rfl

theorem tally_pairingFindings (types : List String) :
    tally kind (pairings.flatMap (pairingFindings types)) =
      if kind = .missingPairedSuffix then
        (unpaired ["-VV", "-VR"] ["-EV", "-RV"] types).length +
          (unpaired ["-RR", "-RV"] ["-ER", "-VR"] types).length
      else 0 := by
  have hrules : ∀ rule ∈ pairings, rule.requesters.Pairwise fun suffix other =>
      suffix ≠ other ∧ suffix.toList.length = other.toList.length := by
    decide
  rw [tally_of_kind (k := .missingPairedSuffix) fun d hd => by
    rcases List.mem_flatMap.mp hd with ⟨rule, -, hmem⟩
    exact kind_of_mem_pairingFindings hmem]
  rw [pairings, List.forall_mem_cons, List.forall_mem_singleton] at hrules
  rw [pairings, List.flatMap_cons, List.flatMap_singleton, List.length_append,
    length_pairingFindings types hrules.1, length_pairingFindings types hrules.2]

/-! ## Drivers -/

theorem mem_rowIdentifiers (records : List (List Char)) (driver : List Char) :
    driver ∈ rowIdentifiers (candidates records) ↔ NamesRow records driver := by
  simp only [rowIdentifiers, headD_splitOn, List.mem_filter, List.mem_map, List.mem_flatMap,
    Bool.not_eq_true', List.isEmpty_eq_false_iff, NamesRow]
  constructor
  · rintro ⟨⟨row, ⟨record, hrecord, hrow⟩, hfield⟩, hne⟩
    exact ⟨hne, record, hrecord, row, hrow, hfield⟩
  · rintro ⟨hne, record, hrecord, row, hrow, hfield⟩
    exact ⟨⟨row, ⟨record, hrecord, hrow⟩, hfield⟩, hne⟩

/-! ## Whole reports -/

theorem tabLabels_candidates (records : List (List Char)) :
    tabLabels (candidates records) = labels records := by
  rw [labels, tabs, List.filterMap_filter]
  refine List.filterMap_congr fun record _ => ?_
  by_cases htab : codeType record = tabType <;> simp [labelOf?, htab]

theorem isIllegalInLabel_iff {c : Char} : isIllegalInLabel c = true ↔ c ∈ "&,\":;".toList := by
  simp [isIllegalInLabel, or_assoc]

theorem length_ofKind (records : List (List Char)) (kind : DiagnosticKind) :
    ((run reference records).ofKind kind).length = expected reference records kind := by
  -- repeated labels are noticed apart from all other findings, so they are counted apart
  have hrepeated : ((repeatedFrom [] (labels records)).map repeatedNotice).countP (·.1 == kind) =
      if kind = .duplicateLabel then (labels records).length - (labels records).dedup.length
      else 0 := by
    rw [← length_repeatedFrom, List.countP_map]
    split
    next hkind =>
      subst hkind
      exact List.countP_eq_length.mpr fun _ _ => rfl
    next hkind =>
      refine List.countP_eq_zero.mpr fun label _ => ?_
      simpa [repeatedNotice] using Ne.symm hkind
  have htally : ((run reference records).ofKind kind).length =
      tally kind (separateFindings reference records) +
        ((repeatedFrom [] (labels records)).map repeatedNotice).countP (·.1 == kind) := by
    rw [Report.ofKind, ← List.countP_eq_length_filter]
    refine (tally_eq_of_perm (notices_findings records)).trans ?_
    rw [List.countP_append, List.countP_map, tabLabels_candidates]
    rfl
  rw [htally, hrepeated, separateFindings, tally_append, tally_append, tally_append,
    tally_bracketFindings, tally_pairingFindings, tally_ownFindings, tally_typeFindings,
    tally_labelFindings, tally_rowFindings, tally_driverFindings, tabLabels_candidates]
  cases kind <;> simp only [reduceCtorEq, if_false, if_true, Nat.zero_add, Nat.add_zero]
  case illegalLabelChars =>
    refine List.countP_congr fun label _ => ?_
    simp only [List.any_eq_true, isIllegalInLabel_iff, decide_eq_true_eq]
  case danglingDriverReference =>
    exact List.countP_congr fun driver _ => by simp only [mem_rowIdentifiers]
  all_goals rfl

theorem length_unpaired_eq_zero (requesters companions types : List String) :
    (unpaired requesters companions types).length = 0 ↔
      ((∃ type ∈ types, EndsWithAny requesters type) →
        ∃ type ∈ types, EndsWithAny companions type) := by
  rw [unpaired]
  by_cases hpaired : ∃ type ∈ types, EndsWithAny companions type
  · simp only [hpaired, if_true, implies_true, List.length_nil]
  · rw [if_neg hpaired, List.length_eq_zero_iff, List.dedup_eq_nil, List.filter_eq_nil_iff]
    simp [hpaired]

theorem length_sub_dedup_eq_zero (labels : List (List Char)) :
    labels.length - labels.dedup.length = 0 ↔ labels.Nodup := by
  rw [Nat.sub_eq_zero_iff_le, ← List.dedup_eq_self]
  exact ⟨(List.dedup_sublist labels).eq_of_length_le, fun h => by rw [h]⟩

theorem Sound.expected_eq_zero {records : List (List Char)} (h : Sound reference records)
    (kind : DiagnosticKind) : expected reference records kind = 0 := by
  cases kind with
  | malformedRecord =>
    exact List.countP_eq_zero.mpr fun record hrecord => by simp [h.bracketed record hrecord]
  | formatError =>
    refine List.countP_eq_zero.mpr fun row hrow => ?_
    rcases List.mem_flatMap.mp hrow with ⟨record, hrecord, hmem⟩
    simp [h.fields record hrecord row hmem]
  | unknownCodeType =>
    exact List.countP_eq_zero.mpr fun type htype => by simp [h.known type htype]
  | missingTabLabel =>
    refine List.countP_eq_zero.mpr fun tab htab => ?_
    rcases h.labelled tab htab with ⟨label, hlabel⟩
    simp [hlabel]
  | duplicateLabel => exact (length_sub_dedup_eq_zero _).mpr h.distinct
  | labelTooLong =>
    exact List.countP_eq_zero.mpr fun label hlabel => by simp [h.short label hlabel]
  | illegalLabelChars =>
    refine List.countP_eq_zero.mpr fun label hlabel => ?_
    rw [List.any_eq_true]
    rintro ⟨c, hc, hillegal⟩
    exact h.legal label hlabel c hc (of_decide_eq_true hillegal)
  | missingPairedSuffix =>
    exact Nat.add_eq_zero_iff.mpr ⟨(length_unpaired_eq_zero _ _ _).mpr h.firstPair,
      (length_unpaired_eq_zero _ _ _).mpr h.secondPair⟩
  | danglingDriverReference =>
    refine List.countP_eq_zero.mpr fun driver hdriver => ?_
    rcases List.mem_flatMap.mp hdriver with ⟨record, hrecord, hmem⟩
    simp [h.drivers record hrecord driver hmem]
  | noRecords => rfl

theorem sound_iff (records : List (List Char)) :
    Sound reference records ↔ ∀ kind, expected reference records kind = 0 := by
  refine ⟨Sound.expected_eq_zero, fun h => ?_⟩
  have hnone : ∀ {α : Type} {p : α → Bool} {items : List α}, items.countP p = 0 →
      ∀ a ∈ items, p a = false := by
    intro α p items hzero a ha
    simpa using List.countP_eq_zero.mp hzero a ha
  have hpairs := Nat.add_eq_zero_iff.mp (h .missingPairedSuffix)
  exact
    { bracketed := fun record hrecord => by simpa using hnone (h .malformedRecord) record hrecord
      known := fun type htype => by simpa using hnone (h .unknownCodeType) type htype
      labelled := fun tab htab =>
        Option.ne_none_iff_exists'.mp (by simpa using hnone (h .missingTabLabel) tab htab)
      short := fun label hlabel => by simpa using hnone (h .labelTooLong) label hlabel
      legal := fun label hlabel c hc hillegal => by
        have hlegal := List.any_eq_false.mp (hnone (h .illegalLabelChars) label hlabel) c hc
        exact hlegal (decide_eq_true hillegal)
      distinct := (length_sub_dedup_eq_zero _).mp (h .duplicateLabel)
      fields := fun record hrecord row hrow => by
        simpa using hnone (h .formatError) row (List.mem_flatMap_of_mem hrecord hrow)
      drivers := fun record hrecord driver hdriver => by
        simpa using hnone (h .danglingDriverReference) driver
          (List.mem_flatMap_of_mem hrecord hdriver)
      firstPair := (length_unpaired_eq_zero _ _ _).mp hpairs.1
      secondPair := (length_unpaired_eq_zero _ _ _).mp hpairs.2 }

theorem passed_iff_sound (records : List (List Char)) :
    (run reference records).passed = true ↔ Sound reference records := by
  rw [sound_iff, Report.passed, List.isEmpty_iff]
  constructor
  · intro hnone kind
    rw [← length_ofKind, Report.ofKind, hnone]
    rfl
  · intro hzero
    refine List.eq_nil_iff_forall_not_mem.mpr fun d hd => ?_
    have hmem : d ∈ (run reference records).ofKind d.kind :=
      List.mem_filter.mpr ⟨hd, beq_self_eq_true d.kind⟩
    have hlength : ((run reference records).ofKind d.kind).length =
        expected reference records d.kind := length_ofKind records d.kind
    rw [hzero, List.length_eq_zero_iff] at hlength
    rw [hlength] at hmem
    cases hmem

/-- A validation reports each kind of finding as often as the records give reason to, and it passes
if and only if they give none. -/
theorem run_exact (reference : Reference) (records : List (List Char)) :
    (∀ kind, ((run reference records).ofKind kind).length = expected reference records kind) ∧
      ((run reference records).passed = true ↔ Sound reference records) :=
  ⟨length_ofKind records, passed_iff_sound records⟩

/-- The records of a text that passes are sound. -/
theorem sound_of_runText {text : List Char} (h : (runText reference text).passed = true) :
    Sound reference (recordsOfText text) := by
  rw [runText, runFound] at h
  split at h
  · cases h
  · exact (passed_iff_sound _).mp h

/-- One suffix is a companion for the first rule and asks for a companion by the second. -/
example : expected (Reference.ofText "A-RV\nA-VV".toList) ["<A-RV>".toList, "<A-VV>".toList]
    .missingPairedSuffix = 1 := by
  decide +kernel

end Validation

end Sheetwright
