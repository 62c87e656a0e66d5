import Sheetwright.Proofs.Collection
import Sheetwright.Proofs.Record.Rendering
/-!
# Texts that can be read

Reading drops whatever it does not understand, so a text is read as records whatever it holds, with
one exception: an indexed name with more digits than a number may have stops the reading. The name
counts only if no name of the vocabulary stands before it in its fragment (`Overlong`). A text is
read, with or without notes, and makes a collection exactly if no record in it has such a fragment:
`reading_stops_iff`.
-/

namespace Sheetwright

open Text

/-! ## Names -/

/-- Only the number of an indexed name can be too long. -/
theorem AttributeName.read_eq_error_iff {letters digits : List Char} {fault : IntegerFault} :
    AttributeName.read letters digits = .error fault ↔
      (∃ g : Group, letters.map Char.toLower = g.name.toList) ∧ digitLimit < digits.length ∧
        fault = .tooLong digits.length := by
  have hgroup : (∃ g : Group, letters.map Char.toLower = g.name.toList) ↔
      ∃ g, Group.all.find? (·.name == String.ofList (letters.map Char.toLower)) = some g := by
    rw [← Option.isSome_iff_exists, List.find?_isSome]
    constructor
    · rintro ⟨g, hg⟩
      refine ⟨g, by cases g <;> decide, ?_⟩
      rw [hg, String.ofList_toList, beq_self_eq_true]
    · rintro ⟨g, -, hg⟩
      refine ⟨g, ?_⟩
      rw [eq_of_beq hg, String.toList_ofList]
  rw [hgroup, AttributeName.read]
  by_cases hdigits : digits.isEmpty = true
  · have hshort : ¬digitLimit < digits.length := by
      rw [List.isEmpty_iff.mp hdigits]
      decide
    rw [if_pos hdigits]
    exact iff_of_false (by simp) fun h => hshort h.2.1
  · rw [if_neg hdigits]
    cases hfind : Group.all.find? (·.name == String.ofList (letters.map Char.toLower)) with
    | none => exact iff_of_false (by simp) (by simp)
    | some g =>
      dsimp only
      rw [readDigits]
      by_cases hlong : digitLimit < digits.length
      · simp [hlong, Except.map, eq_comm]
      · simp [hlong, Except.map]

namespace Record

variable {record fragment : List Char} {text : List Char}

/-! ## Fragments -/

/-- An indexed name with more digits than a number may have. -/
def NamedPart.Overlong (part : NamedPart) : Prop :=
  (∃ g : Group, part.letters.map Char.toLower = g.name.toList) ∧ digitLimit < part.digits.length

/-- The first name in the fragment that is looked up with success, or could be, is overlong. -/
def Overlong (fragment : List Char) : Prop :=
  ∃ before part after, namedParts fragment = before ++ part :: after ∧
    (∀ other ∈ before, AttributeName.read other.letters other.digits = .ok none) ∧ part.Overlong

theorem NamedPart.overlong_iff {part : NamedPart} :
    part.Overlong ↔ ∃ fault, AttributeName.read part.letters part.digits = .error fault := by
  simp only [AttributeName.read_eq_error_iff, NamedPart.Overlong]
  exact ⟨fun h => ⟨_, h.1, h.2, rfl⟩, fun ⟨_, hg, hlong, _⟩ => ⟨hg, hlong⟩⟩

/-- Looking for a known name stops at an overlong one that has only unknown names before it. -/
theorem firstKnown_stops_iff {parts : List NamedPart} :
    (∃ fault, firstKnown parts = .error fault) ↔
      ∃ before part after, parts = before ++ part :: after ∧
        (∀ other ∈ before, AttributeName.read other.letters other.digits = .ok none) ∧
        part.Overlong := by
  constructor
  · rintro ⟨fault, hstops⟩
    rcases (firstKnown_eq_iff (by simp)).mp hstops with ⟨before, part, after, rfl, hbefore, hread⟩
    refine ⟨before, part, after, rfl, hbefore, NamedPart.overlong_iff.mpr ⟨fault, ?_⟩⟩
    cases hpart : AttributeName.read part.letters part.digits with
    | error other =>
      rw [hpart] at hread
      cases hread
      rfl
    | ok name? =>
      rw [hpart] at hread
      cases hread
  · rintro ⟨before, part, after, rfl, hbefore, hpart⟩
    rcases NamedPart.overlong_iff.mp hpart with ⟨fault, hread⟩
    refine ⟨fault, (firstKnown_eq_iff (by simp)).mpr ⟨before, part, after, rfl, hbefore, ?_⟩⟩
    rw [hread]
    rfl

theorem exists_outcome_iff : (∃ gives, outcome fragment = .ok gives) ↔ ¬Overlong fragment := by
  have hstops : (∃ fault, firstKnown (namedParts fragment) = .error fault) ↔ Overlong fragment :=
    firstKnown_stops_iff
  by_cases hparts : namedParts fragment = []
  · refine iff_of_true ?_ ?_
    · rw [outcome, hparts]
      exact ⟨_, rfl⟩
    · simp [← hstops, hparts, firstKnown]
  · rw [outcome_eq hparts, ← hstops]
    cases firstKnown (namedParts fragment) with
    | error fault => exact iff_of_false (by rintro ⟨_, ⟨⟩⟩) (by simp)
    | ok known? => exact iff_of_true ⟨_, rfl⟩ (by simp)

/-- An index with too many digits behind the name of a group. -/
theorem overlong_index (g : Group) {digits : List Char}
    (hdigits : ∀ c ∈ digits, Text.isDigit c = true) (hlong : digitLimit < digits.length)
    (rest : List Char) : Overlong (g.name.toList ++ (digits ++ '=' :: rest)) := by
  have hletters : ∀ c ∈ (AttributeName.slot g 1).letters, c.isLower = true :=
    fun c hc => AttributeName.isLower_of_mem_letters hc
  have hne : g.name.toList ≠ [] := AttributeName.letters_ne_nil (.slot g 1)
  have hpart := namedPart?_append hne (fun c hc => isAlpha_of_isLower (hletters c hc)) hdigits rest
  obtain ⟨letter, letters, hname⟩ := List.exists_cons_of_ne_nil hne
  have hlower : g.name.toList.map Char.toLower = g.name.toList := by
    cases g <;> decide
  refine ⟨[], ⟨g.name.toList, digits, rest⟩, namedPartsFrom false rest, ?_, nofun, ⟨g, hlower⟩,
    hlong⟩
  rw [hname, List.cons_append] at hpart ⊢
  exact namedPartsFrom_of_some hpart

/-! ## Records -/

/-- None of the fragments holds an overlong name that counts. -/
def Readable (record : List Char) : Prop :=
  ∀ fragment ∈ (parts record).drop 1, ¬Overlong fragment

theorem exists_read_iff : (∃ r, read record = .ok r) ↔ Readable record := by
  constructor
  · rintro ⟨r, hread⟩ fragment hfragment
    rcases read_eq_ok hread with ⟨found, hfragments, houtcome, -⟩
    rw [hfragments] at hfragment
    rcases List.mem_map.mp hfragment with ⟨entry, hentry, rfl⟩
    exact exists_outcome_iff.mp ⟨_, houtcome entry hentry⟩
  · exact fun h => exists_read_of_outcome fun fragment hfragment =>
      exists_outcome_iff.mpr (h fragment hfragment)

theorem exists_readAll_iff : (∃ records, readAll text = .ok records) ↔
    ∀ record ∈ texts text, Readable record := by
  simp only [← exists_read_iff]
  constructor
  · rintro ⟨records, hrecords⟩ record hrecord
    rcases exists_read hrecords hrecord with ⟨r, hread, -⟩
    exact ⟨r, hread⟩
  · intro h
    rcases exists_forall₂ h with ⟨all, hall⟩
    exact ⟨_, readAll_eq_ok.mpr ⟨all, hall, rfl⟩⟩

/-! ## The fault -/

theorem tooLong_of_firstKnown {parts : List NamedPart} {fault : IntegerFault}
    (h : firstKnown parts = .error fault) : ∃ n, fault = .tooLong n := by
  induction parts with
  | nil => cases h
  | cons part parts ih =>
    rw [firstKnown] at h
    cases hread : AttributeName.read part.letters part.digits with
    | error other =>
      rw [hread] at h
      cases h
      exact ⟨_, (AttributeName.read_eq_error_iff.mp hread).2.2⟩
    | ok name? =>
      rw [hread] at h
      cases name? with
      | none => exact ih h
      | some name => cases h

theorem tooLong_of_outcome {fault : IntegerFault} (h : outcome fragment = .error fault) :
    ∃ n, fault = .tooLong n := by
  by_cases hparts : namedParts fragment = []
  · rw [outcome, hparts] at h
    cases h
  · rw [outcome_eq hparts] at h
    cases hknown : firstKnown (namedParts fragment) with
    | error other =>
      rw [hknown] at h
      cases h
      exact tooLong_of_firstKnown hknown
    | ok known? =>
      rw [hknown] at h
      cases h

/-- Going over a list stops where an item does. -/
theorem exists_of_mapM_eq_error {α β ε : Type} {f : α → Except ε β} {items : List α} {fault : ε}
    (h : items.mapM f = .error fault) : ∃ item ∈ items, f item = .error fault := by
  induction items with
  | nil => cases h
  | cons item items ih =>
    rw [List.mapM_cons] at h
    cases hitem : f item with
    | error other =>
      rw [hitem] at h
      cases h
      exact ⟨item, List.mem_cons_self, hitem⟩
    | ok value =>
      cases hmore : items.mapM f with
      | error other =>
        rw [hitem, hmore] at h
        cases h
        rcases ih hmore with ⟨later, hlater, hstops⟩
        exact ⟨later, List.mem_cons_of_mem item hlater, hstops⟩
      | ok more =>
        rw [hitem, hmore] at h
        cases h

theorem tooLong_of_read {fault : IntegerFault} (h : read record = .error fault) :
    ∃ n, fault = .tooLong n := by
  rw [read, outcomes] at h
  cases hfound : ((parts record).drop 1).mapM fun fragment =>
      (outcome fragment).map (fragment, ·) with
  | ok found =>
    rw [hfound] at h
    cases h
  | error other =>
    rw [hfound] at h
    cases h
    -- the fault is that of some fragment, and a fragment only fails in its number
    rcases exists_of_mapM_eq_error hfound with ⟨fragment, -, hstops⟩
    cases houtcome : outcome fragment with
    | ok gives =>
      rw [houtcome] at hstops
      cases hstops
    | error other =>
      rw [houtcome] at hstops
      cases hstops
      exact tooLong_of_outcome houtcome

theorem tooLong_of_readAll {fault : IntegerFault} (h : readAll text = .error fault) :
    ∃ n, fault = .tooLong n := by
  rw [readAll] at h
  cases hall : (texts text).mapM read with
  | ok all =>
    rw [hall] at h
    cases h
  | error other =>
    rw [hall] at h
    cases h
    rcases exists_of_mapM_eq_error hall with ⟨record, -, hstops⟩
    exact tooLong_of_read hstops

/-- A text that makes no collection cannot be read. -/
theorem ofText_eq_error {fault : Collection.Fault} (h : Collection.ofText text = .error fault) :
    ∃ cause, readAll text = .error cause ∧ fault = .integer cause := by
  cases hread : readAll text with
  | ok records =>
    rcases Collection.exists_ofText hread with ⟨collection, hcollection, -⟩
    rw [hcollection] at h
    cases h
  | error cause =>
    rw [Collection.ofText, hread] at h
    cases h
    exact ⟨cause, rfl, rfl⟩

/-! ## Notes -/

theorem map_fst_readNoting (log : Log) (record : List Char) :
    (readNoting log record).map Prod.fst = read record := by
  rw [readNoting, read]
  cases outcomes record <;> rfl

theorem map_fst_readEachNoting (records : List Record) (log : Log) (all : List (List Char)) :
    (readEachNoting records log all).map Prod.fst =
      (all.mapM read).map fun more => records ++ more.filter hasBaseType := by
  induction all generalizing records log with
  | nil => simp [readEachNoting, pure, Except.pure, Except.map]
  | cons text all ih =>
    have hnoting := map_fst_readNoting log text
    rw [readEachNoting, List.mapM_cons, ← hnoting]
    cases readNoting log text with
    | error fault => rfl
    | ok noted =>
      obtain ⟨r, log'⟩ := noted
      change Except.map Prod.fst (if hasBaseType r then readEachNoting (records ++ [r]) log' all
        else readEachNoting records (log' ++ [⟨.emptyBaseType, r.rawText, r.rawText⟩]) all) =
          ((all.mapM read).bind fun more => .ok (r :: more)).map _
      by_cases hbase : hasBaseType r = true
      · rw [if_pos hbase, ih]
        cases all.mapM read with
        | error fault => rfl
        | ok more => simp [Except.map, Except.bind, hbase]
      · rw [if_neg hbase, ih]
        cases all.mapM read with
        | error fault => rfl
        | ok more => simp [Except.map, Except.bind, hbase]

/-- Noting what is dropped makes no difference to what is read. -/
theorem map_fst_readAllNoting (text : List Char) :
    (readAllNoting text).map Prod.fst = readAll text := by
  rw [readAllNoting, map_fst_readEachNoting, readAll]
  cases (texts text).mapM read <;> rfl

theorem map_fst_ofTextNoting (text : List Char) :
    (Collection.ofTextNoting text).map Prod.fst = Collection.ofText text := by
  rw [Collection.ofTextNoting, Collection.ofText, ← map_fst_readAllNoting]
  cases readAllNoting text with
  | error fault => rfl
  | ok noted =>
    obtain ⟨records, log⟩ := noted
    change Except.map Prod.fst (((Collection.ofRecords records).mapError Collection.Fault.code).bind
      fun collection => .ok (collection, log)) = (Collection.ofRecords records).mapError .code
    cases Collection.ofRecords records <;> rfl

/-! ## Fragments left out -/

/-- The fragment gives its record something: an attribute or the mark. -/
def Gives (fragment : List Char) : Prop :=
  marksDeletion fragment = true ∨ ∃ name value, outcome fragment = .ok (.attribute name value)

instance : DecidablePred Gives := fun fragment =>
  match h : outcome fragment with
  | .ok (.attribute name value) => .isTrue (.inr ⟨name, value, h⟩)
  | .ok (.dropped _) | .ok .nothing | .error _ =>
    if hmark : marksDeletion fragment = true then .isTrue (.inl hmark)
    else .isFalse fun hgives => by
      rcases hgives with hmarked | ⟨name, value, hattribute⟩
      · exact hmark hmarked
      · rw [h] at hattribute
        cases hattribute

/-- A fragment that gives nothing leaves the attributes as they are. -/
theorem addFragment_of_not_gives {outcome : Outcome} (h : ¬Gives fragment)
    (houtcome : Record.outcome fragment = .ok outcome) (attributes : Entries String Datum) :
    addFragment attributes (fragment, outcome) = attributes := by
  have hmark : marksDeletion fragment ≠ true := fun hmark => h (Or.inl hmark)
  cases outcome with
  | «attribute» name value => exact absurd (Or.inr ⟨name, value, houtcome⟩) h
  | dropped reason => simp [addFragment, hmark]
  | nothing => simp [addFragment, hmark]

theorem foldl_addFragment_filter {found : List (List Char × Outcome)}
    (h : ∀ entry ∈ found, outcome entry.1 = .ok entry.2) (attributes : Entries String Datum) :
    (found.filter fun entry => decide (Gives entry.1)).foldl addFragment attributes =
      found.foldl addFragment attributes := by
  induction found generalizing attributes with
  | nil => rfl
  | cons entry found ih =>
    rw [List.forall_mem_cons] at h
    by_cases hgives : Gives entry.1
    · rw [List.filter_cons_of_pos (by simpa using hgives), List.foldl_cons, List.foldl_cons, ih h.2]
    · rw [List.filter_cons_of_neg (by simpa using hgives), List.foldl_cons,
        addFragment_of_not_gives hgives h.1, ih h.2]

/-- What was found in fragments is known by the fragments alone. -/
theorem eq_of_map_fst {found found' : List (List Char × Outcome)}
    (h : ∀ entry ∈ found, outcome entry.1 = .ok entry.2)
    (h' : ∀ entry ∈ found', outcome entry.1 = .ok entry.2)
    (hfragments : found.map (·.1) = found'.map (·.1)) : found = found' := by
  induction found generalizing found' with
  | nil => exact (List.map_eq_nil_iff.mp hfragments.symm).symm
  | cons entry found ih =>
    rcases List.map_eq_cons_iff.mp hfragments.symm with ⟨entry', more, rfl, hfirst, hmore⟩
    rw [List.forall_mem_cons] at h h'
    have houtcome : outcome entry.1 = .ok entry'.2 := (congrArg outcome hfirst.symm).trans h'.1
    have hsecond : entry.2 = entry'.2 := Except.ok.inj (h.1.symm.trans houtcome)
    rw [ih h.2 h'.2 hmore.symm, Prod.ext hfirst.symm hsecond]

/-- Two record texts have the same base type and the same fragments that give something. -/
def SameGiven (record other : List Char) : Prop :=
  (parts record).head? = (parts other).head? ∧
    ((parts record).drop 1).filter (fun fragment => decide (Gives fragment)) =
      ((parts other).drop 1).filter fun fragment => decide (Gives fragment)

/-- What gives nothing is skipped: without it the record has the same base type and attributes. -/
theorem SameGiven.read_eq {other : List Char} (h : SameGiven record other) {r s : Record}
    (hr : read record = .ok r) (hs : read other = .ok s) :
    s.baseType = r.baseType ∧ s.attributes = r.attributes := by
  rcases read_eq_ok hr with ⟨found, hfound, houtcome, rfl⟩
  rcases read_eq_ok hs with ⟨found', hfound', houtcome', rfl⟩
  obtain ⟨hhead, hfilter⟩ := h
  rw [hfound, hfound', List.filter_map, List.filter_map] at hfilter
  have hgiven := eq_of_map_fst (fun entry he => houtcome entry (List.mem_filter.mp he).1)
    (fun entry he => houtcome' entry (List.mem_filter.mp he).1) hfilter
  refine ⟨?_, ?_⟩
  · rw [assemble, assemble, List.headD_eq_head?_getD, List.headD_eq_head?_getD, hhead]
  · rw [assemble, assemble, ← foldl_addFragment_filter houtcome,
      ← foldl_addFragment_filter houtcome']
    exact congrArg (List.foldl addFragment []) hgiven.symm

/-! ## All of a text -/

/-- A text is read, and makes a collection, exactly if each of its records can be read; the only
fault is a number that is too long. Notes make no difference, to a text as to a record, and what
gives nothing is skipped. -/
theorem reading_stops_iff (text : List Char) :
    ((∃ records, readAll text = .ok records) ↔ ∀ record ∈ texts text, Readable record) ∧
      (readAllNoting text).map Prod.fst = readAll text ∧
      ((∃ c, Collection.ofText text = .ok c) ↔ ∀ record ∈ texts text, Readable record) ∧
      (Collection.ofTextNoting text).map Prod.fst = Collection.ofText text ∧
      (∀ fault, Collection.ofText text = .error fault → ∃ n, fault = .integer (.tooLong n)) ∧
      ∀ record ∈ texts text, ((∃ r, read record = .ok r) ↔ Readable record) ∧
        (∀ log, (readNoting log record).map Prod.fst = read record) ∧
        ∀ r, read record = .ok r → ∀ other, Readable other → SameGiven record other →
          ∃ s, read other = .ok s ∧ s.baseType = r.baseType ∧ s.attributes = r.attributes := by
  refine ⟨exists_readAll_iff, map_fst_readAllNoting text, ?_, map_fst_ofTextNoting text, ?_, ?_⟩
  · rw [← exists_readAll_iff]
    constructor
    · rintro ⟨collection, hcollection⟩
      rcases Collection.forall₂_of_ofText hcollection with ⟨records, hrecords, -⟩
      exact ⟨records, hrecords⟩
    · rintro ⟨records, hrecords⟩
      rcases Collection.exists_ofText hrecords with ⟨collection, hcollection, -⟩
      exact ⟨collection, hcollection⟩
  · intro fault hfault
    rcases ofText_eq_error hfault with ⟨cause, hread, rfl⟩
    rcases tooLong_of_readAll hread with ⟨n, rfl⟩
    exact ⟨n, rfl⟩
  · intro record _
    refine ⟨exists_read_iff, fun log => map_fst_readNoting log record, ?_⟩
    intro r hr other hother hsame
    rcases exists_read_iff.mpr hother with ⟨s, hs⟩
    exact ⟨s, hs, hsame.read_eq hr hs⟩

/-- A row with one more digit than a number may have. -/
def overnumbered : List Char :=
  Group.row.name.toList ++ (List.replicate (digitLimit + 1) '1' ++ '=' :: "\"x\"".toList)

theorem not_mem_overnumbered {c : Char} (hname : c ∉ "row".toList) (hdigit : c ≠ '1')
    (hvalue : c ∉ "=\"x\"".toList) : c ∉ overnumbered := by
  rw [overnumbered, List.mem_append, List.mem_append]
  rintro (hmem | hmem | hmem)
  · exact hname hmem
  · exact hdigit (List.eq_of_mem_replicate hmem)
  · exact hvalue hmem

/-- The record with such a row is not read. -/
theorem not_all_readable : ¬∀ text, ∃ records, readAll text = .ok records := by
  intro hall
  let body := [';'].intercalate ["A".toList, overnumbered]
  have hoverlong : Overlong overnumbered := by
    have hone : isDigit '1' = true := by decide
    refine overlong_index .row (fun c hc => ?_) ?_ _
    · rw [List.eq_of_mem_replicate hc, hone]
    · rw [List.length_replicate]
      exact Nat.lt_succ_self digitLimit
  have hbody : '>' ∉ body := by
    have hrow : '>' ∉ overnumbered := not_mem_overnumbered (by decide) (by decide) (by decide)
    simpa [body, List.intercalate] using hrow
  have htexts : texts ('<' :: body ++ ['>']) = ['<' :: body ++ ['>']] := by
    have happend := texts_append List.not_mem_nil hbody []
    rwa [texts_of_not_mem List.not_mem_nil] at happend
  have hparts : parts ('<' :: body ++ ['>']) = ["A".toList, overnumbered] := by
    have hrow : ';' ∉ overnumbered := not_mem_overnumbered (by decide) (by decide) (by decide)
    have hbase : ';' ∉ "A".toList := by decide
    rw [parts, body_bracketed]
    refine List.splitOn_intercalate ';' (fun part hpart => ?_) (List.cons_ne_nil _ _)
    rcases List.mem_pair.mp hpart with rfl | rfl
    · exact hbase
    · exact hrow
  have hreadable := exists_readAll_iff.mp (hall ('<' :: body ++ ['>'])) _
    (htexts ▸ List.mem_singleton_self _)
  refine hreadable overnumbered ?_ hoverlong
  rw [hparts]
  exact List.mem_singleton_self _

end Record

end Sheetwright
