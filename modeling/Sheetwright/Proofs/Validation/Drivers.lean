import Sheetwright.Proofs.Collection
import Sheetwright.Proofs.Validation.Agreement
import Sheetwright.Proofs.Validation.Examined
import Sheetwright.Proofs.Validation.Parts
import Sheetwright.Proofs.Validation.Passed
/-!
# Drivers of a validated run

A passed validation found a row for every driver that it saw. In the collection that is run the
driver still refers to a row, if validation saw what the reader keeps: no line end in a record
carries noise, the drivers are legible, and the rows that were found are given by their records.
`validated_drivers_refer` says so up to the line ends inside an identifier; `not_all_refer` shows
that each condition is needed.
-/

namespace Sheetwright

open Text

/-! ## References and identifiers -/

/-- The first field of a row, without the blanks around it. -/
def Text.leadingField (row : List Char) : List Char := trim ((row.splitOn '|').headD [])

theorem Text.leadingField_reflow (row : List Char) :
    leadingField (reflow row) = reflow (leadingField row) := by
  have hhead : ∀ fields : List (List Char),
      (fields.map reflow).headD [] = reflow (fields.headD []) := by
    intro fields
    cases fields <;> rfl
  rw [leadingField, leadingField, splitOn_reflow rfl, hhead, trim_reflow]

namespace Code

variable {key : String} {r : Record} {c : Code}

theorem mem_driverReferences {reference : String} (h : reference ∈ c.driverReferences) :
    ∃ value ∈ c.drivers.values, reference = trimmed value ∧ reference ≠ "" := by
  rw [driverReferences, List.mem_filter, List.mem_map] at h
  rcases h with ⟨⟨value, hvalue, rfl⟩, hne⟩
  exact ⟨value, hvalue, rfl, by simpa using hne⟩

/-- The identifier of a row is its first field, if that is not blank. -/
theorem mem_rowIdentifiers {i : Nat} {value : String} (h : c.rows.get? i = some value)
    (hne : leadingField value.toList ≠ []) :
    String.ofList (leadingField value.toList) ∈ c.rowIdentifiers := by
  have hvalue : value ≠ "" := by
    rintro rfl
    exact hne rfl
  rw [rowIdentifiers, List.mem_filterMap]
  refine ⟨_, Slots.mem_filled.mpr ⟨hvalue, h⟩, ?_⟩
  have hempty : (trim ((value.toList.splitOn '|').headD [])).isEmpty = false := by
    simpa [leadingField] using hne
  simp only [hempty]
  rfl

end Code

namespace Validation

open Record

variable {reference : Reference} {text record : List Char} {r : Record} {key : String} {c : Code}

/-! ## One record -/

/-- A driver reference of a code is a driver that validation finds in the record, if the drivers of
the record are legible as it is validated. -/
theorem exists_driverValue (hrecord : record ∈ texts text) (hseamless : Seamless record)
    (hlegible : driverPattern.Legible (cleaned record)) (hread : Record.read record = .ok r)
    (hcode : Code.ofRecord key r = .ok c) {driver : String}
    (hdriver : driver ∈ c.driverReferences) :
    ∃ value ∈ driverValues (cleaned record), trim value = reflow driver.toList := by
  rcases Code.mem_driverReferences hdriver with ⟨kept, hkept, rfl, hne⟩
  have hfilled : kept ≠ "" := by
    rintro rfl
    exact hne rfl
  rcases Code.exists_of_mem_slots (g := .driver) hcode hkept hfilled with
    ⟨i, datum, -, hdatum, rfl⟩
  have hreflow := get?_reflow r (AttributeName.slot .driver i).text
  rw [hdatum, Option.map_some] at hreflow
  rcases exists_read_cleaned hrecord hseamless hread with ⟨body, -, hbody, hclean⟩
  rw [hbody] at hlegible ⊢
  rcases hlegible.mem_values hclean rfl hreflow with ⟨value, hvalue, hmem⟩
  obtain ⟨s, rfl, hlist⟩ := Datum.exists_of_reflow hvalue
  refine ⟨value, by rwa [driverValues_eq], ?_⟩
  rw [← hlist, trim_reflow, trimmed, String.toList_ofList]
  rfl

/-- A row that validation finds in a record has its identifier among those of the code, if the
record gives its rows. -/
theorem exists_rowIdentifier (hrecord : record ∈ texts text) (hseamless : Seamless record)
    (hrows : GivesRows (cleaned record)) (hread : Record.read record = .ok r)
    (hcode : Code.ofRecord key r = .ok c) {value : List Char}
    (hvalue : value ∈ rowValues (cleaned record)) (hne : leadingField value ≠ []) :
    ∃ identifier ∈ c.rowIdentifiers, reflow identifier.toList = leadingField value := by
  rcases exists_read_cleaned hrecord hseamless hread with ⟨body, hclose, hbody, hclean⟩
  rw [hbody] at hrows hvalue
  rcases hrows.kept hclose hclean hvalue with ⟨i, hindex, hkept⟩
  rw [get?_reflow, Option.map_eq_some_iff] at hkept
  rcases hkept with ⟨datum, hdatum, htext⟩
  obtain ⟨s, rfl, hlist⟩ := Datum.exists_of_reflow htext
  have hslot := Code.get?_slots_of_text hcode hindex hdatum
  have hsame : reflow (leadingField s.toList) = leadingField value := by
    rw [← leadingField_reflow, hlist]
  refine ⟨_, Code.mem_rowIdentifiers hslot ?_, by rw [String.toList_ofList, hsame]⟩
  intro hempty
  rw [hempty, reflow_nil] at hsame
  exact hne hsame.symm

/-! ## Whole runs -/

theorem exists_of_mem_rowIdentifiers {records : List (List Char)} {identifier : List Char}
    (h : identifier ∈ rowIdentifiers records) :
    identifier ≠ [] ∧ ∃ record ∈ records, ∃ value ∈ rowValues record,
      leadingField value = identifier := by
  rw [rowIdentifiers, List.mem_filter, List.mem_map] at h
  obtain ⟨⟨value, hvalue, rfl⟩, hne⟩ := h
  rcases List.mem_flatMap.mp hvalue with ⟨record, hrecord, hmem⟩
  exact ⟨by simpa using hne, record, hrecord, value, hmem, rfl⟩

/-- A record in which a driver is found is checked. -/
theorem cleaned_mem_candidates (hrecord : record ∈ texts text) {value : List Char}
    (hvalue : value ∈ driverValues (cleaned record)) :
    cleaned record ∈ candidates (recordsOfText text) := by
  have hnone : driverValues breakRecord = [] ∧ driverValues (cleaned ['<', '>']) = [] := by
    decide +kernel
  have hfound : driverValues (cleaned record) ≠ [] := List.ne_nil_of_mem hvalue
  refine mem_candidates_of_ne hrecord ⟨?_, fun hbreak => ?_⟩
  · rintro rfl
    exact hfound hnone.2
  · rw [hbreak] at hfound
    exact hfound hnone.1

/-- The type of a checked record is one of the reference, so it is not empty if the reference has no
empty type. -/
theorem baseType_ne_empty (hpassed : (runText reference text).passed = true)
    (hblank : reference.contains "" = false) (hrecord : record ∈ texts text)
    (hseamless : Seamless record) (hchecked : cleaned record ∈ candidates (recordsOfText text))
    (hread : Record.read record = .ok r) : r.baseType ≠ "" := by
  have hempty : reflowed "" = "" := rfl
  have htype := contains_codeType hpassed hchecked
  rcases exists_read_cleaned hrecord hseamless hread with ⟨body, hclose, hbody, hclean⟩
  rw [hbody, codeType_eq hclose hclean, Record.reflow] at htype
  intro hbase
  rw [hbase, hempty, hblank] at htype
  cases htype

/-- Every driver of a validated run refers to a row of the collection, up to line ends, if no record
carries noise at a line end or lacks a base type, the drivers are legible and the rows that are
found are given. -/
theorem validated_drivers_refer {records : List Record}
    (hpassed : (runText reference text).passed = true) (hread : readAll text = .ok records)
    (hblank : reference.contains "" = false) (hseamless : ∀ record ∈ texts text, Seamless record)
    (hlegible : ∀ record ∈ recordsOfText text, driverPattern.Legible record)
    (hrows : ∀ record ∈ recordsOfText text, GivesRows record) :
    ∃ collection, Collection.ofText text = .ok collection ∧
      ∀ c ∈ collection.values, ∀ driver ∈ c.driverReferences,
        ∃ other ∈ collection.values, ∃ identifier ∈ other.rowIdentifiers,
          reflowed identifier = reflowed driver := by
  rcases Collection.exists_ofText hread with ⟨collection, hcollection, hcodes⟩
  refine ⟨collection, hcollection, fun c hc driver hdriver => ?_⟩
  -- validation finds the driver in the record of the code, and a row with its identifier
  rcases exists_of_mem_left hcodes.flip hc with ⟨r, hr, key, hcode⟩
  rcases exists_text hread hr with ⟨hbase, record, hrecord, hrecordRead⟩
  have hne : record ≠ ['<', '>'] := by
    rintro rfl
    cases hrecordRead
    exact hbase rfl
  have hvalidated : cleaned record ∈ recordsOfText text :=
    mem_recordsOfText.mpr ⟨record, hrecord, hne, rfl⟩
  rcases exists_driverValue hrecord (hseamless record hrecord) (hlegible _ hvalidated) hrecordRead
    hcode hdriver with ⟨value, hvalue, hdriverValue⟩
  have hchecked := cleaned_mem_candidates hrecord hvalue
  rcases exists_of_mem_rowIdentifiers (driver_mem_rowIdentifiers hpassed hchecked hvalue) with
    ⟨hfilled, validated, hvalidated', row, hrow, hidentifier⟩
  -- the record of that row is read and has a code in the collection
  have hmem := hvalidated'
  rw [candidates_recordsOfText] at hmem
  rcases mem_recordsOfText.mp (List.mem_filter.mp hmem).1 with ⟨record', hrecord', -, rfl⟩
  rcases exists_read hread hrecord' with ⟨r', hread', hkept⟩
  have hbase' := baseType_ne_empty hpassed hblank hrecord' (hseamless record' hrecord') hvalidated'
    hread'
  rcases exists_of_mem_left hcodes (hkept hbase') with ⟨other, hother, key', hcode'⟩
  rcases exists_rowIdentifier hrecord' (hseamless record' hrecord')
    (hrows _ (List.mem_filter.mp hmem).1) hread' hcode' hrow (hidentifier ▸ hfilled) with
    ⟨identifier, hmemIdentifier, hsame⟩
  refine ⟨other, hother, identifier, hmemIdentifier, ?_⟩
  rw [reflowed, reflowed, hsame, hidentifier, hdriverValue]

theorem validated_drivers_refer_wrapped :
    let reference := Reference.ofText "BR".toList
    let text := ("<BR; row1=\"R 1 | x\"; Row2 = \"R2|y\">\n" ++
      "<BR;\n driver1=\"R\n 1\"; driver3=\" R2\">").toList
    (runText reference text).passed = true ∧ reference.contains "" = false ∧
      (∀ record ∈ texts text, Seamless record) ∧
      (∀ record ∈ recordsOfText text, driverPattern.Legible record) ∧
      (∀ record ∈ recordsOfText text, GivesRows record) ∧
      ∃ records collection, readAll text = .ok records ∧ Collection.ofText text = .ok collection ∧
        collection.values.map Code.driverReferences = [[], ["R\n 1", "R2"]] ∧
        ∀ c ∈ collection.values, ∀ driver ∈ c.driverReferences,
          ∃ other ∈ collection.values, ∃ identifier ∈ other.rowIdentifiers,
            reflowed identifier = reflowed driver := by
  intro reference text
  have hpassed : (runText reference text).passed = true ∧ reference.contains "" = false := by
    decide +kernel
  have hseamless : ∀ record ∈ texts text, Seamless record := by
    decide +kernel
  have hlegible : ∀ record ∈ recordsOfText text, driverPattern.Legible record := by
    decide +kernel
  have hrows : ∀ record ∈ recordsOfText text, GivesRows record := by
    decide +kernel
  have hdrivers : (Collection.ofText text).map (fun c => c.values.map Code.driverReferences) =
      .ok [[], ["R\n 1", "R2"]] := by
    decide +kernel
  cases hread : readAll text with
  | error fault =>
    rw [Collection.ofText, hread] at hdrivers
    cases hdrivers
  | ok records =>
    rcases validated_drivers_refer hpassed.1 hread hpassed.2 hseamless hlegible hrows with
      ⟨collection, hcollection, hrefer⟩
    rw [hcollection, Except.map, Except.ok.injEq] at hdrivers
    exact ⟨hpassed.1, hpassed.2, hseamless, hlegible, hrows, records, collection, rfl, hcollection,
      hdrivers, hrefer⟩

/-! ## Drivers without a row -/

/-- A driver of the collection has no row identifier that reads the same. -/
def Dangles (collection : Collection) (reading : String → String) : Prop :=
  ∃ c ∈ collection.values, ∃ driver ∈ c.driverReferences, ∀ other ∈ collection.values,
    ∀ identifier ∈ other.rowIdentifiers, reading identifier ≠ reading driver

instance (collection : Collection) (reading : String → String) :
    Decidable (Dangles collection reading) :=
  inferInstanceAs (Decidable (∃ c ∈ collection.values, ∃ driver ∈ c.driverReferences, _))

/-- A text passes with some code types and gives a collection in which a driver dangles. -/
def PassesDangling (types : List String) (text : List Char) (reading : String → String) : Prop :=
  (runText (Std.ExtTreeSet.ofList types) text).passed = true ∧
    ∃ collection, Collection.ofText text = .ok collection ∧ Dangles collection reading

instance (types : List String) (text : List Char) (reading : String → String) :
    Decidable (PassesDangling types text reading) :=
  decidable_of_iff ((runText (Std.ExtTreeSet.ofList types) text).passed = true ∧
      ∃ collection ∈ (Collection.ofText text).toOption, Dangles collection reading) <| by
    rw [PassesDangling]
    cases Collection.ofText text <;> simp [Except.toOption]

/-- Records of type `BR` with a driver that has no row: the row is written twice, its index is too
large, another name is read first, its value runs on behind a semicolon, text stands before the
driver, or the quote before it is taken for noise. -/
def danglingTexts : List (List Char) :=
  ["<BR; row1=\"R1|x\"; row1=\"R2|y\"; driver1=\"R1\">", "<BR; row201=\"R1|x\"; driver1=\"R1\">",
    "<BR; sections=\"1\" row1=\"R1|x\"; driver1=\"R1\">", "<BR; row1=\"R1|x;y\"; driver1=\"R1\">",
    "<BR; driver1= x \"R1\">", "<BR; driver1=\n\"R1\">"].map String.toList

/-- A passed validation does not certify the drivers of the collection: rows and drivers are not
read alike, the row may stand in a record without a base type, and a line end is not a space
there. -/
theorem not_all_refer :
    (∀ text ∈ danglingTexts, PassesDangling ["BR"] text reflowed) ∧
      PassesDangling ["", "BR"] "<; row1=\"R1|x\"><BR; driver1=\"R1\">".toList reflowed ∧
      PassesDangling ["BR"] "<BR; row1=\"R\n1|x\"; driver1=\"R 1\">".toList id := by
  decide +kernel

end Validation

end Sheetwright
