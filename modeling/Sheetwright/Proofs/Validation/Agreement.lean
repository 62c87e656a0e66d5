import Sheetwright.Proofs.Record.Reflowed
import Sheetwright.Proofs.Validation.Cleaned
/-!
# What is validated and what is executed

Validation and execution take their records out of the same text in two ways. Both find the same
records, and validation sees each of them with its own lines cleaned. Where no line of a record
carries noise the cleaned record is the reflowed one, which reads as the record itself with every
blank run over a line end as one space. Where a line does, something of the record is lost on the
way to validation only: `not_agreeing`.
-/

namespace Sheetwright.Validation

open Record Text

/-- The records that have a base type, read from their texts. -/
def readRecords (texts : List (List Char)) : Except IntegerFault (List Record) :=
  (texts.mapM Record.read).map (List.filter hasBaseType)

theorem readAll_eq (text : List Char) : readAll text = readRecords (texts text) := rfl

theorem read_cleaned {text record : List Char} (hrecord : record ∈ texts text)
    (h : Seamless record) :
    Record.read (cleaned record) = (Record.read record).map Record.reflow := by
  obtain ⟨body, -, rfl⟩ := mem_texts hrecord
  rw [h.cleaned_eq, read_reflow]

/-- A seamless record that is read is read as validation sees it, too. -/
theorem exists_read_cleaned {text record : List Char} (hrecord : record ∈ texts text)
    (h : Seamless record) {r : Record} (hread : Record.read record = .ok r) :
    ∃ body, '>' ∉ body ∧ cleaned record = '<' :: body ++ ['>'] ∧
      Record.read ('<' :: body ++ ['>']) = .ok r.reflow := by
  rcases exists_cleaned hrecord with ⟨body, hbody, hclean⟩
  refine ⟨body, hbody, hclean, ?_⟩
  rw [← hclean, read_cleaned hrecord h, hread, Except.map]

theorem readRecords_cons (record : List Char) (records : List (List Char)) :
    readRecords (record :: records) = (Record.read record).bind fun r =>
      (readRecords records).map fun rs => if hasBaseType r then r :: rs else rs := by
  rw [readRecords, readRecords, List.mapM_cons]
  cases Record.read record with
  | error fault => rfl
  | ok r =>
    cases records.mapM Record.read with
    | error fault => rfl
    | ok rs => exact congrArg Except.ok List.filter_cons

/-- Empty brackets have no base type, so that validation does not see them makes no difference. -/
theorem readRecords_filter (records : List (List Char)) :
    readRecords (records.filter (· != ['<', '>'])) = readRecords records := by
  have hempty : Record.read ['<', '>'] = .ok ⟨"", [], "<>"⟩ := rfl
  induction records with
  | nil => rfl
  | cons record records ih =>
    by_cases hrecord : record = ['<', '>']
    · subst hrecord
      rw [List.filter_cons_of_neg (by simp), ih, readRecords_cons, hempty]
      cases readRecords records <;> rfl
    · rw [List.filter_cons_of_pos (by simpa using hrecord), readRecords_cons, readRecords_cons, ih]

theorem readRecords_map {f : List Char → List Char} (records : List (List Char))
    (h : ∀ record ∈ records, Record.read (f record) = (Record.read record).map Record.reflow) :
    readRecords (records.map f) = (readRecords records).map (List.map Record.reflow) := by
  induction records with
  | nil => rfl
  | cons record records ih =>
    rw [List.map_cons, readRecords_cons, readRecords_cons, h record List.mem_cons_self,
      ih fun r hr => h r (List.mem_cons_of_mem _ hr)]
    cases Record.read record with
    | error fault => rfl
    | ok r =>
      cases readRecords records with
      | error fault => rfl
      | ok rs =>
        by_cases hr : hasBaseType r = true <;>
          simp [Except.map, Except.bind, hasBaseType_reflow, hr]

/-- Validation sees the records of the text, each with its lines cleaned. A record without noise at
its line ends reads the same there as in execution, on one line; if all records are like that, the
same records are validated and executed, and where reading fails it fails for the same reason. -/
theorem validated_eq_executed (text : List Char) :
    recordsOfText text = ((texts text).filter (· != ['<', '>'])).map cleaned ∧
    (∀ record ∈ texts text, Seamless record →
      Record.read (cleaned record) = (Record.read record).map Record.reflow) ∧
    ((∀ record ∈ texts text, Seamless record) →
      readRecords (recordsOfText text) = (readAll text).map (List.map Record.reflow)) := by
  refine ⟨recordsOfText_eq text, fun record => read_cleaned, fun hseamless => ?_⟩
  have hmap := readRecords_map (f := cleaned) ((texts text).filter (· != ['<', '>'])) ?_
  · rw [recordsOfText_eq, hmap, readRecords_filter, readAll_eq]
  · intro record hrecord
    have hmem := (List.mem_filter.mp hrecord).1
    exact read_cleaned hmem (hseamless record hmem)

theorem validated_eq_executed_wrapped :
    let text := "<BR; row1=\"a|b\";\n\n row2=\"c\n  d\"> , <TAB;\r\n label1=\"e\">".toList
    (∀ record ∈ texts text, Seamless record) ∧
      Record.read (cleaned "<TAB;\r\n label1=\"e\">".toList) =
        (Record.read "<TAB;\r\n label1=\"e\">".toList).map Record.reflow ∧
      readRecords (recordsOfText text) = (readAll text).map (List.map Record.reflow) := by
  intro text
  have hseamless : ∀ record ∈ texts text, Seamless record := by
    decide +kernel
  have hmem : "<TAB;\r\n label1=\"e\">".toList ∈ texts text := by
    decide +kernel
  refine ⟨hseamless, ?_, (validated_eq_executed text).2.2 hseamless⟩
  exact (validated_eq_executed text).2.1 _ hmem (hseamless _ hmem)

/-! ## Lost noise -/

/-- What a record says: its base type, and its attributes as plain texts. -/
def content (r : Record) : String × List (String × String) :=
  (r.baseType, r.attributes.map fun (name, value) => (name, value.plain))

/-- Records with a line that ends in a comma or a closing quote or begins with an opening quote or
an apostrophe. -/
def noisyTexts : List (List Char) :=
  ["<BR; row1=\"R|a,\nb\">", "<BR; label1=\"a\"\n; label2=\"b\">",
    "<BR; label1=\n\"a\"; label2=\"b\">", "<BR; label1=\"a\n'b\">"].map String.toList

/-- Noise inside a record is lost for validation, and a base type on two lines is not the same as
one with a space. -/
theorem not_agreeing :
    (∀ text ∈ noisyTexts, ∃ records, readAll text = .ok records ∧
      ∀ validated, readRecords (recordsOfText text) = .ok validated →
        validated.map content ≠ (records.map Record.reflow).map content) ∧
    (readRecords (recordsOfText "<A\nB>".toList)).map (List.map Record.baseType) ≠
      (readAll "<A\nB>".toList).map (List.map Record.baseType) := by
  have hread : ∀ text ∈ noisyTexts,
      ((readAll text).map fun records => (records.map Record.reflow).map content).isOk = true ∧
        (readRecords (recordsOfText text)).map (List.map content) ≠
          (readAll text).map fun records => (records.map Record.reflow).map content := by
    decide +kernel
  refine ⟨fun text htext => ?_, by decide +kernel⟩
  have hcontent := hread text htext
  cases hrecords : readAll text with
  | error fault =>
    rw [hrecords] at hcontent
    cases hcontent.1
  | ok records =>
    refine ⟨records, rfl, fun validated hvalidated hsame => hcontent.2 ?_⟩
    rw [hrecords, hvalidated]
    exact congrArg Except.ok hsame

end Sheetwright.Validation
