import Sheetwright.Proofs.Validation.Cleaned
import Sheetwright.Proofs.Validation.Legible
/-!
# What validation examines

The rows and drivers that a record keeps, and the label of a tab, are among the values that
validation finds in the text of the record, if the record is legible for the scan and writes its
label only once: `kept_values_examined`. Every condition is needed: `not_all_examined`.
-/

namespace Sheetwright.Validation

open Record Text

/-! ## Base types -/

/-- Validation and the reader see the same base type. -/
theorem baseType_eq {body : List Char} (h : '>' ∉ body) :
    baseType ('<' :: body ++ ['>']) = trim ((parts ('<' :: body ++ ['>'])).headD []) := by
  rw [baseType, trim_record, parts, body_bracketed, List.cons_append]
  simp only
  -- a semicolon ends the base type, and without one the closing bracket does
  by_cases hmem : ';' ∈ body
  · rcases List.eq_append_cons_of_mem hmem with ⟨base, more, rfl, hbase⟩
    have htake : (base ++ ';' :: (more ++ ['>'])).takeWhile (fun c => c != ';' && c != '>') =
        base := by
      refine takeWhile_append_cons (fun c hc => ?_) rfl _
      rw [Bool.and_eq_true]
      exact ⟨all_ne hbase c hc, all_ne h c (List.mem_append_left _ hc)⟩
    rw [List.append_assoc, List.cons_append, htake,
      List.splitOn_append_cons_self_of_not_mem hbase, List.headD_cons]
  · have htake : (body ++ ['>']).takeWhile (fun c => c != ';' && c != '>') = body := by
      refine takeWhile_append_cons (fun c hc => ?_) rfl []
      rw [Bool.and_eq_true]
      exact ⟨all_ne hmem c hc, all_ne h c hc⟩
    rw [htake, List.splitOn_eq_singleton hmem, List.headD_cons]

theorem codeType_eq {body : List Char} (h : '>' ∉ body) {r : Record}
    (hread : Record.read ('<' :: body ++ ['>']) = .ok r) :
    codeType ('<' :: body ++ ['>']) = r.baseType := by
  rcases read_eq_ok hread with ⟨found, -, -, rfl⟩
  rw [codeType, baseType_eq h]
  rfl

/-! ## Values -/

/-- All labels that the scan for a tab label finds; validation takes the first. -/
def labelValues (record : List Char) : List (List Char) := labelScanner.values record

/-- A record writes no two different labels. -/
def OneLabel (record : List Char) : Prop :=
  ∀ label ∈ labelValues record, ∀ other ∈ labelValues record, label = other

instance (record : List Char) : Decidable (OneLabel record) :=
  inferInstanceAs
    (Decidable (∀ label ∈ labelValues record, ∀ other ∈ labelValues record, label = other))

theorem tabLabel?_of_mem {record label : List Char} (hone : OneLabel record)
    (h : label ∈ labelValues record) : tabLabel? record = some label := by
  rw [tabLabel?_eq]
  cases hvalues : labelScanner.values record with
  | nil =>
    rw [labelValues, hvalues] at h
    cases h
  | cons first more =>
    have hfirst : first ∈ labelValues record := by
      rw [labelValues, hvalues]
      exact List.mem_cons_self
    rw [List.head?_cons, hone label h first hfirst]

/-- The first label that a legible record keeps is the one that validation takes. -/
theorem tabLabel?_of_kept {body : List Char}
    (hlegible : labelPattern.Legible ('<' :: body ++ ['>']))
    (hone : OneLabel ('<' :: body ++ ['>'])) {r : Record}
    (hread : Record.read ('<' :: body ++ ['>']) = .ok r) {datum : Datum}
    (hkept : r.attributes.get? (AttributeName.slot .label 1).text = some datum) :
    ∃ label ∈ labelValues ('<' :: body ++ ['>']), datum = .text (String.ofList label) ∧
      tabLabel? ('<' :: body ++ ['>']) = some label := by
  rcases hlegible.mem_values hread rfl hkept with ⟨label, hdatum, hmem⟩
  exact ⟨label, hmem, hdatum, tabLabel?_of_mem hone hmem⟩

/-- Every row value and every driver value that a record keeps is among those that validation finds
in its text, and the label of a tab is the one it checks. -/
theorem kept_values_examined {text record : List Char} (hrecord : record ∈ texts text) {r : Record}
    (hread : Record.read record = .ok r) :
    (rowPattern.Legible record → ∀ i datum,
      r.attributes.get? (AttributeName.slot .row i).text = some datum →
        ∃ value ∈ rowValues record, datum = .text (String.ofList value)) ∧
    (driverPattern.Legible record → ∀ i datum,
      r.attributes.get? (AttributeName.slot .driver i).text = some datum →
        ∃ value ∈ driverValues record, datum = .text (String.ofList value)) ∧
    (labelPattern.Legible record → OneLabel record → ∀ key c label, Code.ofRecord key r = .ok c →
      c.baseType = tabType → c.labels.get? 1 = some label → label ≠ "" →
        labelOf? record = some label.toList) := by
  obtain ⟨body, hbody, rfl⟩ := mem_texts hrecord
  refine ⟨fun hlegible i datum hkept => ?_, fun hlegible i datum hkept => ?_, ?_⟩
  · rcases hlegible.mem_values hread rfl hkept with ⟨value, rfl, hmem⟩
    exact ⟨value, by rwa [rowValues_eq], rfl⟩
  · rcases hlegible.mem_values hread rfl hkept with ⟨value, rfl, hmem⟩
    exact ⟨value, by rwa [driverValues_eq], rfl⟩
  · intro hlegible hone key c label hcode htype hlabel hne
    have hbase : codeType ('<' :: body ++ ['>']) = tabType := by
      rw [codeType_eq hbody hread, ← (Code.fields_of_ofRecord hcode).1, htype]
    rcases Code.exists_of_get?_slots (g := .label) (i := 1) hcode (by decide) hlabel hne with
      ⟨datum, hkept, hplain⟩
    rcases tabLabel?_of_kept hlegible hone hread hkept with ⟨value, -, rfl, hfound⟩
    rw [labelOf?, if_pos hbase, hfound, ← hplain]
    exact congrArg some String.toList_ofList.symm

/-- A record keeps a text under a name; the check that decides it. -/
def keeps (record : List Char) (name : AttributeName) (value : String) : Bool :=
  (Record.read record).toOption.any fun r =>
    (r.attributes.get? name.text).any fun
      | .text kept => kept == value
      | _ => false

theorem exists_of_keeps {record : List Char} {name : AttributeName} {value : String}
    (h : keeps record name value = true) :
    ∃ r, Record.read record = .ok r ∧ r.attributes.get? name.text = some (.text value) := by
  rw [keeps] at h
  cases hread : Record.read record with
  | error fault =>
    rw [hread] at h
    cases h
  | ok r =>
    rw [hread] at h
    refine ⟨r, rfl, ?_⟩
    change (r.attributes.get? name.text).any _ = true at h
    cases hdatum : r.attributes.get? name.text with
    | none =>
      rw [hdatum] at h
      cases h
    | some datum =>
      rw [hdatum, Option.any_some] at h
      split at h
      next kept => rw [eq_of_beq h]
      next => cases h

theorem kept_values_examined_noisy :
    let record := ("<TAB; x=\"row7\" Row1 = \"a|b\"; DRIVER2=\"a\"; row1=\"c; d|e\"; " ++
      "Label1=\"T\" >").toList
    record ∈ texts record ∧ rowPattern.Legible record ∧ driverPattern.Legible record ∧
      labelPattern.Legible record ∧ OneLabel record ∧
      ∃ r, Record.read record = .ok r ∧
        r.attributes.get? (AttributeName.slot .row 1).text = some (.text "a|b") ∧
        (∃ value ∈ rowValues record, Datum.text "a|b" = .text (String.ofList value)) ∧
        r.attributes.get? (AttributeName.slot .driver 2).text = some (.text "a") ∧
        (∃ value ∈ driverValues record, Datum.text "a" = .text (String.ofList value)) ∧
        ∃ c, Code.ofRecord "TAB" r = .ok c ∧ c.baseType = tabType ∧ c.labels.get? 1 = some "T" ∧
          labelOf? record = some "T".toList := by
  intro record
  have hmem : record ∈ texts record := by
    decide +kernel
  have hlegible : rowPattern.Legible record ∧ driverPattern.Legible record ∧
      labelPattern.Legible record ∧ OneLabel record := by
    decide +kernel
  have hkeeps : keeps record (.slot .row 1) "a|b" = true ∧
      keeps record (.slot .driver 2) "a" = true ∧
      keeps record (.slot .label 1) "T" = true ∧ codeType record = tabType := by
    decide +kernel
  rcases exists_of_keeps hkeeps.1 with ⟨r, hread, hrow⟩
  rcases exists_of_keeps hkeeps.2.1 with ⟨r', hread', hdriver⟩
  rcases exists_of_keeps hkeeps.2.2.1 with ⟨r'', hread'', hlabel⟩
  obtain rfl : r = r' := Except.ok.inj (hread.symm.trans hread')
  obtain rfl : r = r'' := Except.ok.inj (hread.symm.trans hread'')
  have hkey : "TAB" ≠ "" := by decide
  rcases Code.exists_ofRecord hread hkey with ⟨c, hcode⟩
  have htype : c.baseType = tabType := by
    obtain ⟨body, hbody, hrecord⟩ := mem_texts hmem
    rw [hrecord] at hread hkeeps
    rw [(Code.fields_of_ofRecord hcode).1, ← codeType_eq hbody hread, hkeeps.2.2.2]
  have hlabels : c.labels.get? 1 = some "T" :=
    Code.get?_slots_of_text (g := .label) hcode (by decide) hlabel
  have hexamined := kept_values_examined hmem hread
  exact ⟨hmem, hlegible.1, hlegible.2.1, hlegible.2.2.1, hlegible.2.2.2, r, hread, hrow,
    hexamined.1 hlegible.1 1 _ hrow, hdriver, hexamined.2.1 hlegible.2.1 2 _ hdriver, c, hcode,
    htype, hlabels,
    hexamined.2.2 hlegible.2.2.1 hlegible.2.2.2 "TAB" c "T" hcode htype hlabels (by decide)⟩

/-! ## Values that are missed -/

/-- Records that keep a value which validation does not find: text stands before the opening quote,
a value runs over the name, a value ends like a name, a letter that is Latin only when case is
ignored stands in front. -/
def missedValues : List (List Char × AttributeName × String) :=
  [("<BR; row1= x \"R|a\">".toList, .slot .row 1, "R|a"),
    ("<BR; row1=\"a; row2=\"b|c\">".toList, .slot .row 2, "b|c"),
    ("<BR; label2=\"row1=\"; row1=\"a|b\">".toList, .slot .row 1, "a|b"),
    ("<BR; \u017Frow1=\"a|b\">".toList, .slot .row 1, "a|b"),
    ("<BR; driver1= x \"R\">".toList, .slot .driver 1, "R"),
    ("<BR; driver1=\"a; driver2=\"b\">".toList, .slot .driver 2, "b")]

/-- Tabs whose code has another label than the one that is checked: the name is written in capitals,
or the label is written twice. -/
def missedLabels : List (List Char × String) :=
  [("<TAB; LABEL1=\"A\">".toList, "A"), ("<TAB; label1=\"A\"; label1=\"B\">".toList, "B")]

theorem not_all_examined :
    (∀ entry ∈ missedValues, entry.1 ∈ texts entry.1 ∧
      ∃ r, Record.read entry.1 = .ok r ∧
        r.attributes.get? entry.2.1.text = some (.text entry.2.2) ∧
        entry.2.2.toList ∉ rowValues entry.1 ∧ entry.2.2.toList ∉ driverValues entry.1) ∧
    (∀ entry ∈ missedLabels, entry.1 ∈ texts entry.1 ∧
      ∃ r c, Record.read entry.1 = .ok r ∧ Code.ofRecord "TAB" r = .ok c ∧ r.baseType = tabType ∧
        c.labels.get? 1 = some entry.2 ∧ entry.2 ≠ "" ∧
        labelOf? entry.1 ≠ some entry.2.toList) := by
  have hvalues : ∀ entry ∈ missedValues, entry.1 ∈ texts entry.1 ∧
      keeps entry.1 entry.2.1 entry.2.2 = true ∧
      entry.2.2.toList ∉ rowValues entry.1 ∧ entry.2.2.toList ∉ driverValues entry.1 := by
    decide +kernel
  have hlabels : ∀ entry ∈ missedLabels, entry.1 ∈ texts entry.1 ∧
      keeps entry.1 (.slot .label 1) entry.2 = true ∧ codeType entry.1 = tabType ∧ entry.2 ≠ "" ∧
      labelOf? entry.1 ≠ some entry.2.toList := by
    decide +kernel
  refine ⟨fun entry hentry => ?_, fun entry hentry => ?_⟩
  · rcases hvalues entry hentry with ⟨hmem, hkeeps, hmissed⟩
    rcases exists_of_keeps hkeeps with ⟨r, hread, hkept⟩
    exact ⟨hmem, r, hread, hkept, hmissed⟩
  · rcases hlabels entry hentry with ⟨hmem, hkeeps, htype, hne, hmissed⟩
    rcases exists_of_keeps hkeeps with ⟨r, hread, hkept⟩
    have hkey : "TAB" ≠ "" := by decide
    rcases Code.exists_ofRecord hread hkey with ⟨c, hcode⟩
    obtain ⟨body, hbody, hrecord⟩ := mem_texts hmem
    refine ⟨hmem, r, c, hread, hcode, ?_, ?_, hne, hmissed⟩
    · rw [hrecord] at hread htype
      rw [← codeType_eq hbody hread, htype]
    · exact Code.get?_slots_of_text (g := .label) hcode (by decide) hkept

end Sheetwright.Validation
