import Sheetwright.Proofs.Record.Cutting
import Sheetwright.Proofs.Record.Readable
/-!
# Readings that drop nothing

A reading that notes what it drops reads the same records as one that does not, and it notes nothing
exactly if nothing was dropped (`exists_lossless`): only blanks stand outside the records, and every
record has a base type and fragments that are blank, give an attribute or are a deletion mark.
-/

namespace Sheetwright.Record

open Text

variable {text record fragment : List Char}

/-! ## What counts as kept -/

/-- A fragment of which nothing is dropped: it is blank, it gives an attribute, or it holds the
deletion mark and no name before an equals sign. -/
inductive Accounted (fragment : List Char) : Prop
  | blank (h : allBlank fragment = true)
  | attribute (name : AttributeName) (value : List Char)
      (h : outcome fragment = .ok (.attribute name value))
  | mark (h : marksDeletion fragment = true)
      (hnone : ∀ (part : NamedPart) lead, ¬part.Stands lead fragment)

/-- A record of which nothing is dropped. -/
structure Whole (record : List Char) : Prop where
  baseType : allBlank ((parts record).headD []) = false
  fragments : ∀ fragment ∈ (parts record).drop 1, Accounted fragment

namespace Cutting

/-- What stands outside the records. -/
def outside (c : Cutting) : List Char := c.found.flatMap Prod.fst ++ c.rest

/-- A cutting of which nothing is dropped. -/
structure Lossless (c : Cutting) : Prop where
  outside : allBlank c.outside = true
  records : ∀ record ∈ c.records, Whole record

theorem outside_push (gap record : List Char) (c : Cutting) :
    (c.push gap record).outside = gap ++ c.outside := by
  rw [outside, push, List.flatMap_cons, List.append_assoc, ← outside]

end Cutting

/-! ## Notes on what stands outside -/

theorem strayNotes_of_not_mem (h : '<' ∉ text) :
    strayNotes text = [] ↔ allBlank text = true := by
  rw [strayNotes, segments_of_not_mem h]
  cases hblank : allBlank text <;> simp [hblank]

theorem strayNotes_unterminated {gap body : List Char} (hgap : '<' ∉ gap) (hbody : '>' ∉ body) :
    strayNotes (gap ++ '<' :: body) ≠ [] := by
  rw [strayNotes, segments_unterminated hgap hbody]
  cases hblank : allBlank gap <;> simp [hblank]

theorem strayNotes_append {gap body : List Char} (hgap : '<' ∉ gap) (hbody : '>' ∉ body)
    (rest : List Char) :
    strayNotes (gap ++ '<' :: (body ++ '>' :: rest)) = [] ↔
      allBlank gap = true ∧ strayNotes rest = [] := by
  rw [strayNotes, segments_append hgap hbody]
  cases hblank : allBlank gap <;> simp [hblank, strayNotes]

/-- A text is cut at its records, and there are no notes on what stands outside of them if and only
if that is blank. -/
theorem exists_cutting_strayNotes (text : List Char) :
    ∃ c : Cutting, c.Of text ∧ c.records = texts text ∧
      (strayNotes text = [] ↔ allBlank c.outside = true) := by
  induction text using span_induction with
  | none text hnone =>
    refine ⟨⟨[], text⟩, Cutting.of_open (Cutting.open_of_not_mem hnone),
      (texts_of_not_mem hnone).symm, strayNotes_of_not_mem hnone⟩
  | unterminated gap body hgap hbody =>
    refine ⟨⟨[], gap ++ '<' :: body⟩, Cutting.of_open (Cutting.open_append hgap hbody),
      (texts_unterminated hgap hbody).symm, ?_⟩
    refine iff_of_false (strayNotes_unterminated hgap hbody) fun hblank => ?_
    -- the bracket itself is no blank
    have hbracket := allBlank_iff.mp hblank '<' (by simp [Cutting.outside])
    cases hbracket
  | span gap body rest hgap hbody _ ih =>
    rcases ih with ⟨c, hof, hrecords, hnotes⟩
    refine ⟨c.push gap ('<' :: body ++ ['>']), hof.push hgap hbody, ?_, ?_⟩
    · rw [texts_append hgap hbody, ← hrecords]
      rfl
    · rw [strayNotes_append hgap hbody, hnotes, Cutting.outside_push, allBlank_append,
        Bool.and_eq_true]

/-! ## Notes on a record -/

/-- A name that stands in a text is no blank. -/
theorem namedParts_of_allBlank (h : allBlank fragment = true) : namedParts fragment = [] := by
  refine List.eq_nil_iff_forall_not_mem.mpr fun part hpart => ?_
  rcases mem_namedParts_iff.mp hpart with ⟨lead, hstands⟩
  rcases hstands.eq_append with ⟨blanks, -, rfl⟩
  have hsign := allBlank_iff.mp h '=' (by simp)
  cases hsign

theorem namedParts_eq_nil_iff :
    namedParts fragment = [] ↔ ∀ (part : NamedPart) lead, ¬part.Stands lead fragment := by
  rw [List.eq_nil_iff_forall_not_mem]
  simp only [mem_namedParts_iff, not_exists]

theorem outcome_of_nil (h : namedParts fragment = []) :
    outcome fragment = .ok (if allBlank fragment || marksDeletion fragment then .nothing
      else .dropped .unrecognisedFragment) := by
  rw [outcome, h, marksDeletion_trim]

/-- A fragment with a name gives an attribute, or it is dropped. -/
theorem outcome_ne_nothing (h : namedParts fragment ≠ []) : outcome fragment ≠ .ok .nothing := by
  rw [outcome_eq h]
  rcases firstKnown (namedParts fragment) with fault | _ | ⟨name, rest⟩
  · simp [Except.map]
  · simp [Except.map]
  · simp only [Except.map, Option.map_some, Option.getD_some, ne_eq, Except.ok.injEq, given]
    split
    · simp
    · split <;> simp

/-- A fragment is dropped unless it is accounted for. -/
theorem accounted_iff {gives : Outcome} (h : outcome fragment = .ok gives) :
    Accounted fragment ↔ ∀ reason, gives ≠ .dropped reason := by
  constructor
  · -- blanks and marks hold no name, and without a name nothing but them is kept
    rintro haccounted reason rfl
    cases haccounted with
    | blank hblank =>
      rw [outcome_of_nil (namedParts_of_allBlank hblank), hblank] at h
      cases h
    | «attribute» name value hgives =>
      rw [hgives] at h
      cases h
    | mark hmark hnone =>
      rw [outcome_of_nil (namedParts_eq_nil_iff.mpr hnone), hmark, Bool.or_true] at h
      cases h
  · intro hkept
    cases gives with
    | «attribute» name value => exact .attribute name value h
    | dropped reason => exact absurd rfl (hkept reason)
    | nothing =>
      by_cases hparts : namedParts fragment = []
      · by_cases hblank : allBlank fragment = true
        · exact .blank hblank
        · refine .mark ?_ (namedParts_eq_nil_iff.mp hparts)
          by_contra hmark
          simp [outcome_of_nil hparts, hblank, hmark] at h
      · exact absurd h (outcome_ne_nothing hparts)

/-- There are no notes on the fragments of a record if and only if they are accounted for. -/
theorem fragmentNotes_eq_nil_iff {found : List (List Char × Outcome)}
    (h : outcomes record = .ok found) :
    fragmentNotes record found = [] ↔
      ∀ fragment ∈ (parts record).drop 1, Accounted fragment := by
  rcases outcomes_eq_ok h with ⟨hfragments, houtcome⟩
  rw [fragmentNotes, List.filterMap_eq_nil_iff, hfragments, List.forall_mem_map]
  refine forall₂_congr fun entry hentry => ?_
  rw [accounted_iff (houtcome entry hentry)]
  obtain ⟨fragment, gives⟩ := entry
  cases gives <;> simp

theorem hasBaseType_assemble (record : List Char) (found : List (List Char × Outcome)) :
    hasBaseType (assemble record found) = true ↔ allBlank ((parts record).headD []) = false := by
  rw [hasBaseType_iff, assemble, ne_eq, ← String.toList_eq_nil_iff, String.toList_ofList,
    trim_eq_nil_iff, Bool.not_eq_true]

/-! ## Notes on a text -/

/-- Reading a record adds the notes on its fragments. -/
theorem exists_notes_of_readNoting {r : Record} {log log' : Log}
    (h : readNoting log record = .ok (r, log')) :
    ∃ notes, log' = log ++ notes ∧
      (Whole record ↔ hasBaseType r = true ∧ notes = []) := by
  rw [readNoting] at h
  cases hfound : outcomes record with
  | error fault =>
    rw [hfound] at h
    cases h
  | ok found =>
    rw [hfound] at h
    cases h
    refine ⟨fragmentNotes record found, rfl, ?_⟩
    rw [hasBaseType_assemble, fragmentNotes_eq_nil_iff hfound]
    exact ⟨fun h => ⟨h.baseType, h.fragments⟩, fun h => ⟨h.1, h.2⟩⟩

/-- Reading one record after another adds notes, and none of them if every record is whole. -/
theorem exists_notes {records more : List Record} {log log' : Log} {all : List (List Char)}
    (h : readEachNoting records log all = .ok (more, log')) :
    ∃ notes, log' = log ++ notes ∧ (notes = [] ↔ ∀ record ∈ all, Whole record) := by
  induction all generalizing records log with
  | nil =>
    cases h
    exact ⟨[], (List.append_nil _).symm, by simp⟩
  | cons record all ih =>
    rw [readEachNoting] at h
    cases hnoting : readNoting log record with
    | error fault =>
      rw [hnoting] at h
      cases h
    | ok noted =>
      obtain ⟨r, logged⟩ := noted
      rcases exists_notes_of_readNoting hnoting with ⟨first, rfl, hfirst⟩
      rw [hnoting] at h
      change (if hasBaseType r then readEachNoting (records ++ [r]) (log ++ first) all
        else readEachNoting records (log ++ first ++ [⟨.emptyBaseType, r.rawText, r.rawText⟩])
          all) = .ok (more, log') at h
      rw [List.forall_mem_cons, hfirst]
      by_cases hbase : hasBaseType r = true
      · rw [if_pos hbase] at h
        rcases ih h with ⟨notes, rfl, hnotes⟩
        refine ⟨first ++ notes, List.append_assoc .., ?_⟩
        rw [List.append_eq_nil_iff, hnotes, and_iff_right hbase]
      · -- a record without a base type is noted by itself
        rw [if_neg hbase] at h
        rcases ih h with ⟨notes, rfl, -⟩
        refine ⟨first ++ ⟨.emptyBaseType, r.rawText, r.rawText⟩ :: notes, by simp, ?_⟩
        exact iff_of_false (by simp) fun h => hbase h.1.1

/-- A reading with notes gives the same records as one without, and it notes nothing if and only if
nothing was dropped. -/
theorem exists_lossless {records : List Record} (h : readAll text = .ok records) :
    ∃ (log : Log) (c : Cutting), readAllNoting text = .ok (records, log) ∧ c.Of text ∧
      c.records = texts text ∧ (log = [] ↔ c.Lossless) := by
  rcases exists_cutting_strayNotes text with ⟨c, hof, hrecords, hstray⟩
  have hsame := map_fst_readAllNoting text
  rw [h] at hsame
  cases hnoting : readAllNoting text with
  | error fault =>
    rw [hnoting] at hsame
    cases hsame
  | ok noted =>
    obtain ⟨found, log⟩ := noted
    rw [hnoting] at hsame
    obtain rfl := Except.ok.inj hsame
    rcases exists_notes hnoting with ⟨notes, rfl, hnotes⟩
    refine ⟨_, c, rfl, hof, hrecords, ?_⟩
    rw [List.append_eq_nil_iff, hstray, hnotes, ← hrecords]
    exact ⟨fun h => ⟨h.1, h.2⟩, fun h => ⟨h.outside, h.records⟩⟩

/-- Fragments that are blank, an unknown name before a known one and a mark within other words are
all accounted for. -/
theorem exists_lossless_marked :
    let text := "\t<A<B; label1=\"x<y\";; colour=1 row2=4 \"z\"; not Deleted!; > \n <BR;>".toList
    ∃ (records : List Record) (c : Cutting), readAll text = .ok records ∧
      readAllNoting text = .ok (records, []) ∧ c.Of text ∧ c.records = texts text ∧ c.Lossless ∧
      records.map (fun r => (r.baseType, r.attributes.map fun item => (item.1, item.2.plain))) =
        [("A<B", [("label1", "x<y"), ("row2", "z"), ("delete", "True")]), ("BR", [])] := by
  intro text
  have hread : (readAll text).map (List.map fun r =>
      (r.baseType, r.attributes.map fun item => (item.1, item.2.plain))) =
        .ok [("A<B", [("label1", "x<y"), ("row2", "z"), ("delete", "True")]), ("BR", [])] := by
    decide +kernel
  have hquiet : (readAllNoting text).map Prod.snd = .ok [] := by
    decide +kernel
  cases hrecords : readAll text with
  | error fault =>
    rw [hrecords] at hread
    cases hread
  | ok records =>
    rcases exists_lossless hrecords with ⟨log, c, hnoting, hof, htexts, hlossless⟩
    rw [hnoting] at hquiet
    obtain rfl := Except.ok.inj hquiet
    rw [hrecords] at hread
    exact ⟨records, c, rfl, hnoting, hof, htexts, hlossless.mp rfl, Except.ok.inj hread⟩

end Sheetwright.Record
