import Sheetwright.Proofs.Collection
import Sheetwright.Proofs.Validation.Counts
import Sheetwright.Proofs.Validation.Examined
import Sheetwright.Proofs.Validation.Passed
/-!
# Types that are checked and carried out

Validation takes the type of a record from its text, up to the first semicolon or closing bracket. A
run carries out codes by the base type that the reader found, between the brackets and up to the
first semicolon. These are the same for whatever is found in a text (`codeType_eq_dispatched`),
since the only closing bracket of a record is its last character. For other texts they differ: a
bracket that closes too early ends the type for validation and not for the reader.
-/

namespace Sheetwright.Validation

open Record Text

variable {text record body : List Char} {type : String}

/-! ## Records that are found -/

/-- Both searches find brackets with no closing bracket between them. -/
theorem exists_body (h : record ∈ texts text ∨ record ∈ recordsOfText text) :
    ∃ body, '>' ∉ body ∧ record = '<' :: body ++ ['>'] := by
  rcases h with h | h
  · exact mem_texts h
  · rcases mem_recordsOfText.mp h with ⟨raw, hraw, -, rfl⟩
    exact exists_cleaned hraw

/-! ## The checks that ask for a type -/

/-- A label that a tab may have behind tabs with other labels. -/
def Acceptable (seen : List (List Char)) (label : List Char) : Prop :=
  label.length ≤ labelLimit ∧ label.any isIllegalInLabel = false ∧ label ∉ seen

/-- Validation takes a record for one of a type, in every check that asks for the type. -/
structure CheckedAs (record : List Char) (type : String) : Prop where
  /-- The reference is asked for the type, and a type that it does not have is reported. -/
  reference : ∀ reference : Reference, typeFindings reference record =
    if reference.contains type then []
    else [finding .unknownCodeType
      s!"Invalid code type: \"{type}\" not found in valid codes list" record]
  /-- A label is asked for if the type is that of tabs, and of no other record. -/
  tab : ∀ seen, labelFindings seen record = [] ↔
    (type = tabType → ∃ label, tabLabel? record = some label ∧ Acceptable seen label)
  /-- The type stands among those whose suffixes are paired, in the place of the record. -/
  suffix : record ≠ breakRecord → ∀ before after,
    types (before ++ record :: after) = types before ++ type :: types after

theorem labelFindings_eq_nil_iff (seen : List (List Char)) :
    labelFindings seen record = [] ↔ (codeType record = tabType →
      ∃ label, tabLabel? record = some label ∧ Acceptable seen label) := by
  rw [labelFindings]
  by_cases htab : codeType record = tabType
  · rw [if_pos htab]
    cases tabLabel? record with
    | none => simp [htab]
    | some label =>
      -- each of the three rules has its own findings
      simp [htab, Acceptable]
  · rw [if_neg htab]
    exact iff_of_true rfl fun h => absurd h htab

theorem candidates_append (before after : List (List Char)) :
    candidates (before ++ after) = candidates before ++ candidates after := by
  rw [candidates, List.map_append, List.filter_append]
  rfl

/-- Brackets with anything between them are checked, unless they are a bare break. -/
theorem candidates_cons (hne : '<' :: body ++ ['>'] ≠ breakRecord) (after : List (List Char)) :
    candidates (('<' :: body ++ ['>']) :: after) =
      ('<' :: body ++ ['>']) :: candidates after := by
  have hbracketed : isBracketed ('<' :: body ++ ['>']) = true := by
    rw [isBracketed, List.getLast?_concat]
    rfl
  rw [candidates, List.map_cons, trim_record, List.filter_cons_of_pos, candidates]
  rw [hbracketed, Bool.true_and, bne_iff_ne]
  exact hne

theorem checkedAs_codeType (body : List Char) :
    CheckedAs ('<' :: body ++ ['>']) (codeType ('<' :: body ++ ['>'])) where
  reference _ := rfl
  tab := labelFindings_eq_nil_iff
  suffix hne before after := by
    rw [types, candidates_append, candidates_cons hne, List.map_append, List.map_cons]
    rfl

/-! ## The types of a run -/

/-- The codes of a text have the types that validation takes its records for, but records without
one are no codes. -/
theorem map_baseType_of_ofText {collection : Collection}
    (h : Collection.ofText text = .ok collection) :
    collection.values.map Code.baseType =
      ((texts text).map codeType).filter fun type => !type.isEmpty := by
  rcases Collection.forall₂_of_ofText h with ⟨records, hrecords, hcodes⟩
  rcases readAll_eq_ok.mp hrecords with ⟨all, hall, rfl⟩
  have hread : (texts text).map codeType = all.map Record.baseType := by
    rw [← List.forall₂_eq_eq_eq, List.forall₂_map_left_iff, List.forall₂_map_right_iff]
    have hbodies := (List.forall₂_and_left _ _).mpr ⟨fun record => mem_texts, hall⟩
    refine hbodies.imp ?_
    rintro _ r ⟨⟨body, hbody, rfl⟩, hread⟩
    exact codeType_eq hbody hread
  have hcode : collection.values.map Code.baseType =
      (all.filter hasBaseType).map Record.baseType := by
    rw [eq_comm, ← List.forall₂_eq_eq_eq, List.forall₂_map_left_iff, List.forall₂_map_right_iff]
    refine hcodes.imp fun r code hcode => ?_
    rcases hcode with ⟨key, hkey⟩
    exact (Code.fields_of_ofRecord hkey).1.symm
  rw [hcode, hread, List.filter_map]
  rfl

/-- For every record that is found in a text and can be read, by the reader or by validation, the
checks take it for a record of the type that its code is carried out by. So a run carries out the
types that validation sees, in their order. -/
theorem codeType_eq_dispatched (text : List Char) :
    (∀ record, record ∈ texts text ∨ record ∈ recordsOfText text →
      ∀ r, Record.read record = .ok r →
        codeType record = r.baseType ∧ CheckedAs record r.baseType ∧
        ∀ key c, Code.ofRecord key r = .ok c → c.baseType = codeType record) ∧
    ∀ collection, Collection.ofText text = .ok collection →
      collection.values.map Code.baseType =
        ((texts text).map codeType).filter fun type => !type.isEmpty := by
  refine ⟨fun record hfound r hread => ?_, fun collection => map_baseType_of_ofText⟩
  obtain ⟨body, hbody, rfl⟩ := exists_body hfound
  have htype := codeType_eq hbody hread
  refine ⟨htype, htype ▸ checkedAs_codeType body, fun key c hcode => ?_⟩
  rw [(Code.fields_of_ofRecord hcode).1, htype]

/-- A record with a bracket, blanks of other scripts and a line end around its type. -/
theorem codeType_eq_dispatched_spread :
    let text := "x> <<\u2003BR-RV\u00a0\n; <row1=\"a\"> , <\u3000TAB\u2028>".toList
    let raw := "<<\u2003BR-RV\u00a0\n; <row1=\"a\">".toList
    let found := "<\u3000TAB >".toList
    raw ∈ texts text ∧ found ∈ recordsOfText text ∧
      (∃ r, Record.read raw = .ok r ∧ r.baseType = "<\u2003BR-RV" ∧
        codeType raw = r.baseType ∧ CheckedAs raw r.baseType) ∧
      (∃ r, Record.read found = .ok r ∧ r.baseType = tabType ∧
        codeType found = r.baseType ∧ CheckedAs found r.baseType) ∧
      ∃ collection, Collection.ofText text = .ok collection ∧
        collection.values.map Code.baseType = ["<\u2003BR-RV", tabType] := by
  intro text raw found
  have hexists {ε α : Type} {result : Except ε α} (h : result.isOk = true) :
      ∃ value, result = .ok value := by
    cases result with
    | error fault => cases h
    | ok value => exact ⟨value, rfl⟩
  have hraw : raw ∈ texts text := by
    decide +kernel
  have hfound : found ∈ recordsOfText text := by
    decide +kernel
  obtain ⟨r, hr⟩ : ∃ r, Record.read raw = .ok r := hexists (by decide +kernel)
  obtain ⟨s, hs⟩ : ∃ s, Record.read found = .ok s := hexists (by decide +kernel)
  obtain ⟨collection, hcollection⟩ : ∃ collection, Collection.ofText text = .ok collection :=
    hexists (by decide +kernel)
  have htypes : codeType raw = "<\u2003BR-RV" ∧ codeType found = tabType ∧
      (((texts text).map codeType).filter fun type => !type.isEmpty) =
        ["<\u2003BR-RV", tabType] := by
    decide +kernel
  rcases codeType_eq_dispatched text with ⟨hrecords, hcodes⟩
  rcases hrecords raw (.inl hraw) r hr with ⟨hrtype, hrchecked, -⟩
  rcases hrecords found (.inr hfound) s hs with ⟨hstype, hschecked, -⟩
  exact ⟨hraw, hfound, ⟨r, hr, hrtype ▸ htypes.1, hrtype, hrchecked⟩,
    ⟨s, hs, hstype ▸ htypes.2.1, hstype, hschecked⟩,
    collection, hcollection, (hcodes collection hcollection).trans htypes.2.2⟩

/-- A record that closes early, as no search finds it, has another type for validation. -/
example : codeType "<A>B>".toList = "A" ∧
    (Record.read "<A>B>".toList).map Record.baseType = .ok "A>B" := by
  decide +kernel

end Sheetwright.Validation
