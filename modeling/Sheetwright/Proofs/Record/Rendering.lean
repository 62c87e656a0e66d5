import Sheetwright.Proofs.Record.Writable
/-!
# Records written and read again

What was read from a text can be written out in canonical form, and that is read as the same records
again: `readAll_render`. Values may hold equals signs, names, opening brackets, line ends and the
deletion mark. None of these is taken for what it reads like, for a fragment is known by the first
name in it, and the name that is written comes first; a value that holds the mark was marked before.
The entries of a record may change their order: the mark is put where the first fragment holds it.
-/

namespace Sheetwright.Record

open Text

variable {r : Record} {name : AttributeName} {value : List Char}

/-! ## Written fragments -/

/-- The fragment that an entry is written as. -/
def written (entry : String × Datum) : List Char := ' ' :: ((renderAttribute entry).getD "").toList

theorem written_mark : written (deleteKey, .bool true) = " Delete".toList := by
  decide

theorem written_value (name : AttributeName) (value : List Char) :
    written (name.text, .text (String.ofList value)) =
      ' ' :: (name.letters ++ (name.digits ++ '=' :: '"' :: (value ++ ['"']))) := by
  have hne : name.text ≠ deleteKey := AttributeName.text_ne_delete name
  have hplain : (Datum.text (String.ofList value)).plain = String.ofList value := rfl
  rw [written, renderAttribute, if_neg hne, Option.getD_some, hplain]
  simp [AttributeName.toList_text]

theorem Entry.renderAttribute_eq {entry : String × Datum} (h : Entry entry) :
    renderAttribute entry = some ((renderAttribute entry).getD "") := by
  cases h with
  | mark => rfl
  | @value name value known plain =>
    have hne : name.text ≠ deleteKey := AttributeName.text_ne_delete name
    rw [renderAttribute, if_neg hne, Option.getD_some]

/-- A written fragment ends neither itself nor its record. -/
theorem Entry.not_mem_written {entry : String × Datum} (h : Entry entry) :
    ';' ∉ written entry ∧ '>' ∉ written entry := by
  cases h with
  | mark =>
    rw [written_mark]
    decide
  | @value name value known plain =>
    have hsemicolon : ';' ∉ name.text.toList := AttributeName.not_mem_text rfl rfl name
    have hbracket : '>' ∉ name.text.toList := AttributeName.not_mem_text rfl rfl name
    rw [AttributeName.toList_text] at hsemicolon hbracket
    rw [written_value, ← List.append_assoc]
    exact ⟨by simpa [plain.semicolon] using hsemicolon, by simpa [plain.bracket] using hbracket⟩

/-- Letters, digits and an equals sign at the beginning of a text are a named part. -/
theorem namedPart?_append {letters digits : List Char} (hne : letters ≠ [])
    (hletters : ∀ c ∈ letters, c.isAlpha = true) (hdigits : ∀ c ∈ digits, Text.isDigit c = true)
    (rest : List Char) :
    namedPart? (letters ++ (digits ++ '=' :: rest)) = some ⟨letters, digits, rest⟩ :=
  namedPart?_eq_some_iff.mpr ⟨hne, hletters, hdigits, by simp, [], allBlank_nil, rfl⟩

/-- The first name in a written value is the one it is written under. -/
theorem outcome_written_value (hknown : name.Known) (hquote : '"' ∉ value) :
    outcome (written (name.text, .text (String.ofList value))) = .ok (.attribute name value) := by
  have hpart : namedPart? (name.letters ++ (name.digits ++ '=' :: '"' :: (value ++ ['"']))) =
      some ⟨name.letters, name.digits, '"' :: (value ++ ['"'])⟩ :=
    namedPart?_append name.letters_ne_nil
      (fun c hc => isAlpha_of_isLower (AttributeName.isLower_of_mem_letters hc))
      (fun c hc => isDigit_of_ascii (AttributeName.isDigit_of_mem_digits hc)) _
  have hblank : allBlank [' '] = true := rfl
  -- the written name is the first named part, so it decides
  have hparts : namedParts (written (name.text, .text (String.ofList value))) =
      ⟨name.letters, name.digits, '"' :: (value ++ ['"'])⟩ ::
        namedPartsFrom false ('"' :: (value ++ ['"'])) := by
    have hrun := namedPartsFrom_run hblank false
      (name.letters ++ (name.digits ++ '=' :: '"' :: (value ++ ['"'])))
    rw [written_value, namedParts]
    refine hrun.trans ?_
    obtain ⟨letter, letters, hletters⟩ := List.exists_cons_of_ne_nil name.letters_ne_nil
    rw [hletters, List.cons_append] at hpart ⊢
    exact namedPartsFrom_of_some hpart
  have hgiven : given name ('"' :: (value ++ ['"'])) = .attribute name value := by
    rw [given, after?, if_pos rfl]
    simp only [cut?_append hquote]
  have hne : namedParts (written (name.text, .text (String.ofList value))) ≠ [] := by
    rw [hparts]
    exact List.cons_ne_nil _ _
  rw [outcome_eq hne, hparts, firstKnown, AttributeName.read_spelling hknown]
  exact congrArg Except.ok hgiven

/-- A written value holds the deletion mark only if the value itself does. -/
theorem marksDeletion_written_value (name : AttributeName) (value : List Char) :
    marksDeletion (written (name.text, .text (String.ofList value))) = marksDeletion value := by
  have hname : 'D' ∉ name.text.toList := AttributeName.not_mem_text rfl rfl name
  have hlead : 'D' ∉ ' ' :: (name.text.toList ++ ['=', '"']) := by simpa using hname
  have hmarker : deleteMarker.toList = 'D' :: "elete".toList := by decide
  have hquote : '"' ∉ 'D' :: "elete".toList := by decide
  have hsplit : written (name.text, .text (String.ofList value)) =
      (' ' :: (name.text.toList ++ ['=', '"'])) ++ (value ++ ['"']) := by
    rw [written_value, AttributeName.toList_text]
    simp
  rw [hsplit, marksDeletion, marksDeletion, hmarker, holds_skip hlead, holds_concat hquote]

/-! ## Written records -/

/-- Parts with a semicolon and a space between them, by semicolons alone. -/
theorem intercalate_space (base : List Char) (fragments : List (List Char)) :
    [';', ' '].intercalate (base :: fragments) =
      [';'].intercalate (base :: fragments.map (' ' :: ·)) := by
  have hspace : ∀ (first : List Char) (more : List (List Char)),
      [';'].intercalate ((' ' :: first) :: more) = ' ' :: [';'].intercalate (first :: more) := by
    intro first more
    cases more <;> simp [List.intercalate_cons_cons]
  induction fragments generalizing base with
  | nil => simp
  | cons next more ih =>
    rw [List.intercalate_cons_cons, ih, List.map_cons, List.intercalate_cons_cons, hspace]
    simp

/-- The parts of a written record are its base type and its written entries. -/
theorem parts_render (h : r.Writable) :
    ∃ body, '>' ∉ body ∧ r.render.toList = '<' :: body ++ ['>'] ∧
      parts ('<' :: body ++ ['>']) = r.baseType.toList :: r.attributes.map written := by
  have hrendered : (r.attributes.filterMap renderAttribute).map String.toList =
      r.attributes.map fun entry => ((renderAttribute entry).getD "").toList := by
    rw [List.filterMap_congr fun entry hentry => (h.entries entry hentry).renderAttribute_eq,
      List.filterMap_eq_map', List.map_map]
    rfl
  have hfragments : ∀ part ∈ r.baseType.toList :: r.attributes.map written,
      ';' ∉ part ∧ '>' ∉ part := by
    refine List.forall_mem_cons.mpr ⟨⟨h.semicolon, h.bracket⟩, List.forall_mem_map.mpr ?_⟩
    exact fun entry hentry => (h.entries entry hentry).not_mem_written
  refine ⟨[';'].intercalate (r.baseType.toList :: r.attributes.map written), ?_, ?_, ?_⟩
  · exact not_mem_intercalate (by decide) fun part hpart => (hfragments part hpart).2
  · have hseparator : "; ".toList = [';', ' '] := by decide
    rw [render, String.toList_append, String.toList_append, String.toList_intercalate,
      List.map_cons, hrendered, hseparator, intercalate_space, List.map_map]
    rfl
  · rw [parts, body_bracketed]
    exact List.splitOn_intercalate ';' (fun part hpart => (hfragments part hpart).1)
      (List.cons_ne_nil _ _)

/-- Where every item has a value, the values can be gathered. -/
theorem exists_forall₂ {α β : Type} {R : α → β → Prop} {items : List α}
    (h : ∀ a ∈ items, ∃ b, R a b) : ∃ values, List.Forall₂ R items values := by
  induction items with
  | nil => exact ⟨[], List.Forall₂.nil⟩
  | cons item items ih =>
    rw [List.forall_mem_cons] at h
    obtain ⟨⟨value, hvalue⟩, hrest⟩ := h
    rcases ih hrest with ⟨values, hvalues⟩
    exact ⟨value :: values, List.Forall₂.cons hvalue hvalues⟩

/-- A record is read if each of its fragments is. -/
theorem exists_read_of_outcome {record : List Char}
    (h : ∀ fragment ∈ (parts record).drop 1, ∃ gives, outcome fragment = .ok gives) :
    ∃ r, read record = .ok r := by
  have hfound : ∀ fragment ∈ (parts record).drop 1, ∃ entry,
      (outcome fragment).map (fragment, ·) = .ok entry := by
    intro fragment hfragment
    rcases h fragment hfragment with ⟨gives, hgives⟩
    exact ⟨(fragment, gives), by rw [hgives]; rfl⟩
  rcases exists_forall₂ hfound with ⟨found, hforall⟩
  have houtcomes : outcomes record = .ok found := mapM_eq_ok.mpr hforall
  exact ⟨assemble record found, by rw [read, houtcomes]; rfl⟩

theorem outcome_written_mark : outcome (written (deleteKey, .bool true)) = .ok .nothing := by
  rw [written_mark]
  decide +kernel

theorem Entry.exists_outcome {entry : String × Datum} (h : Entry entry) :
    ∃ gives, outcome (written entry) = .ok gives := by
  cases h with
  | mark => exact ⟨.nothing, outcome_written_mark⟩
  | @value name value known plain =>
    exact ⟨.attribute name value, outcome_written_value known plain.quote⟩

/-- A written entry gives itself, and nothing else. -/
theorem Entry.eq_of_outcome {entry : String × Datum} (h : Entry entry)
    (hgives : outcome (written entry) = .ok (.attribute name value)) :
    entry = (name.text, .text (String.ofList value)) := by
  cases h with
  | mark =>
    rw [outcome_written_mark] at hgives
    cases hgives
  | @value other kept known plain =>
    rw [outcome_written_value known plain.quote] at hgives
    cases hgives
    rfl

/-- Only the marks and the names are keys, so nothing else is found in writable entries. -/
theorem Writable.get?_other (h : r.Writable) {key : String} (hdelete : key ≠ deleteKey)
    (hname : ∀ name : AttributeName, key ≠ name.text) : r.attributes.get? key = none := by
  refine Entries.get?_eq_none_iff.mpr fun hkey => ?_
  rcases List.mem_map.mp hkey with ⟨entry, hentry, rfl⟩
  rcases (h.entries entry hentry).key with hmark | ⟨name, hvalue⟩
  · exact hdelete hmark
  · exact hname name hvalue

section

variable {again : Record} (h : r.Writable) (hread : read r.render.toList = .ok again)

include h hread

theorem baseType_render : again.baseType = r.baseType := by
  rcases parts_render h with ⟨body, -, hrender, hparts⟩
  rw [hrender] at hread
  rcases read_eq_ok hread with ⟨found, -, -, rfl⟩
  rw [assemble, hparts, List.headD_cons, h.trimmed, String.ofList_toList]

/-- A value that is read again is one that was written, and the other way round. -/
theorem get?_render (name : AttributeName) :
    again.attributes.get? name.text = r.attributes.get? name.text := by
  rcases parts_render h with ⟨body, -, hrender, hparts⟩
  rw [hrender] at hread
  refine Option.ext fun datum => ⟨fun hkept => ?_, fun hkept => ?_⟩
  · rcases exists_of_kept hread hkept with
      ⟨base, before, fragment, after, value, hsplit, hgives, rfl⟩
    rw [hparts, List.cons.injEq] at hsplit
    have hfragment : fragment ∈ r.attributes.map written := hsplit.2 ▸ List.mem_append_cons_self
    rcases List.mem_map.mp hfragment with ⟨entry, hentry, rfl⟩
    rw [(h.entries entry hentry).eq_of_outcome hgives] at hentry
    exact (Entries.mem_iff_get? h.nodup).mp hentry
  · have hentry := Entries.mem_of_get? hkept
    rcases (h.entries _ hentry).exists_value with ⟨value, hknown, hplain, rfl⟩
    rcases List.append_of_mem hentry with ⟨before, after, hsplit⟩
    have hgives := outcome_written_value hknown hplain.quote
    rw [hsplit, List.map_append, List.map_cons] at hparts
    refine kept_of_last hread hparts hgives fun later hlater other hanew => ?_
    -- the name occurs once, so no fragment behind this one gives it
    rcases List.mem_map.mp hlater with ⟨entry, hmem, rfl⟩
    have hlast := (h.entries entry (by simp [hsplit, hmem])).eq_of_outcome hanew
    have hnodup := h.nodup
    rw [hsplit, Entries.keys, List.map_append, List.map_cons] at hnodup
    refine (List.nodup_cons.mp (List.nodup_append.mp hnodup).2.1).1 ?_
    exact List.mem_map.mpr ⟨entry, hmem, by rw [hlast]⟩

/-- All attributes but the mark are read again. -/
theorem get?_render_of_ne (hagain : again.Writable) {key : String} (hkey : key ≠ deleteKey) :
    again.attributes.get? key = r.attributes.get? key := by
  by_cases hname : ∃ name : AttributeName, key = name.text
  · rcases hname with ⟨name, rfl⟩
    exact get?_render h hread name
  · rw [not_exists] at hname
    rw [h.get?_other hkey hname, hagain.get?_other hkey hname]

/-- The mark is read again if it was written, or if a value holds it. -/
theorem get?_delete_render : again.attributes.get? deleteKey =
    if r.attributes.any (marksDeletion ∘ written) then some (.bool true) else none := by
  rcases parts_render h with ⟨body, -, hrender, hparts⟩
  rw [hrender] at hread
  rcases read_eq_ok hread with ⟨found, hfragments, -, rfl⟩
  rw [hparts, List.drop_succ_cons, List.drop_zero] at hfragments
  have hany : found.any (marksDeletion ·.1) = r.attributes.any (marksDeletion ∘ written) := by
    rw [← List.any_map, hfragments, List.any_map]
    rfl
  rw [assemble, get?_delete_foldl, hany]

end

/-! ## The same meaning -/

/-- Two records have the same base type and the same attributes, the deletion mark among them, in
whatever order. -/
structure SameMeaning (r s : Record) : Prop where
  baseType : s.baseType = r.baseType
  attributes : ∀ key, s.attributes.get? key = r.attributes.get? key

theorem exists_read_render (h : r.Writable) : ∃ again, read r.render.toList = .ok again := by
  rcases parts_render h with ⟨body, -, hrender, hparts⟩
  rw [hrender]
  refine exists_read_of_outcome fun fragment hfragment => ?_
  rw [hparts, List.drop_succ_cons, List.drop_zero] at hfragment
  rcases List.mem_map.mp hfragment with ⟨entry, hentry, rfl⟩
  exact (h.entries entry hentry).exists_outcome

theorem texts_render_append (h : r.Writable) (rest : List Char) :
    texts (r.render.toList ++ rest) = r.render.toList :: texts rest := by
  rcases parts_render h with ⟨body, hbody, hrender, -⟩
  have hfirst := texts_append List.not_mem_nil hbody rest
  rw [hrender, ← hfirst]
  simp

theorem texts_flatMap_render {records : List Record} (h : ∀ r ∈ records, r.Writable) :
    texts (records.flatMap fun r => r.render.toList) = records.map fun r => r.render.toList := by
  induction records with
  | nil => exact texts_of_not_mem List.not_mem_nil
  | cons r records ih =>
    rw [List.forall_mem_cons] at h
    rw [List.flatMap_cons, texts_render_append h.1, ih h.2, List.map_cons]

/-- Where a value that holds the mark comes with the mark, the record that is read again has the
same meaning. -/
theorem Writable.sameMeaning (h : r.Writable)
    (hmarked : ∀ (name : AttributeName) value,
      r.attributes.get? name.text = some (.text (String.ofList value)) →
        marksDeletion value = true → r.attributes.get? deleteKey = some (.bool true))
    {again : Record} (hread : read r.render.toList = .ok again) (hagain : again.Writable) :
    SameMeaning r again := by
  refine ⟨baseType_render h hread, fun key => ?_⟩
  -- the deletion key is set by any fragment that marks it, so it is compared apart
  by_cases hdelete : key = deleteKey
  · rw [hdelete, get?_delete_render h hread]
    split
    next hany =>
      rcases List.any_eq_true.mp hany with ⟨entry, hentry, hmarks⟩
      have hkept := (Entries.mem_iff_get? h.nodup).mp hentry
      cases h.entries entry hentry with
      | mark => exact hkept.symm
      | @value name value known plain =>
        rw [Function.comp_apply, marksDeletion_written_value] at hmarks
        exact (hmarked name value hkept hmarks).symm
    next hnone =>
      refine (Entries.get?_eq_none_iff.mpr fun hkey => hnone ?_).symm
      rcases List.mem_map.mp hkey with ⟨⟨key, datum⟩, hentry, rfl⟩
      have hmark := (h.entries _ hentry).eq_mark
      refine List.any_eq_true.mpr ⟨_, hentry, ?_⟩
      rw [hmark, Function.comp_apply, written_mark]
      decide
  · exact get?_render_of_ne h hread hagain hdelete

/-- The records of a text, written one after another, are read as records with the same meaning. -/
theorem readAll_render {text : List Char} {records : List Record}
    (h : readAll text = .ok records) :
    ∃ again, readAll (records.flatMap fun r => r.render.toList) = .ok again ∧
      List.Forall₂ SameMeaning records again := by
  have hwritable : ∀ r ∈ records, r.Writable := by
    intro r hr
    rcases exists_text h hr with ⟨-, record, hrecord, hread⟩
    exact writable_of_read hrecord hread
  have hagain : ∀ r ∈ records, ∃ again, read r.render.toList = .ok again ∧ SameMeaning r again := by
    intro r hr
    rcases exists_text h hr with ⟨-, record, hrecord, hread⟩
    rcases exists_read_render (hwritable r hr) with ⟨again, hrendered⟩
    have hfound : r.render.toList ∈ texts (r.render.toList ++ []) := by
      rw [texts_render_append (hwritable r hr)]
      exact List.mem_cons_self
    refine ⟨again, hrendered, (hwritable r hr).sameMeaning ?_ hrendered
      (writable_of_read hfound hrendered)⟩
    exact fun name value hkept hmarks => marked_of_value hrecord hread hkept hmarks
  rcases exists_forall₂ hagain with ⟨again, hforall⟩
  refine ⟨again, readAll_eq_ok.mpr ⟨again, ?_, ?_⟩, hforall.imp fun r s hrs => hrs.2⟩
  · rw [texts_flatMap_render hwritable, List.forall₂_map_left_iff]
    exact hforall.imp fun r s hrs => hrs.1
  · -- no record loses its base type, so all are kept
    refine (List.filter_eq_self.mpr fun s hs => ?_).symm
    rcases exists_of_mem_left hforall.flip hs with ⟨r, hr, -, hsame⟩
    rw [hasBaseType_iff, hsame.baseType]
    exact (exists_text h hr).1

/-- The mark moves in front of the value that holds it, and nothing else changes. -/
theorem readAll_render_moved :
    let text := ("<A<B\"; label1=\"row2 = <\n\"; ROW01 = \"a\"; row1=\"b=\" x; " ++
      "label1=\"Delete\"> label3=\"c\"; <BR; driver>").toList
    ∃ records again, readAll text = .ok records ∧
      readAll (records.flatMap fun r => r.render.toList) = .ok again ∧
      List.Forall₂ SameMeaning records again ∧
      records.map (fun r => (r.baseType, r.attributes.keys)) =
        [("A<B\"", ["label1", "row1", "delete"]), ("BR", [])] ∧
      again.map (fun r => (r.baseType, r.attributes.keys)) =
        [("A<B\"", ["delete", "label1", "row1"]), ("BR", [])] := by
  intro text
  have hkeys : (readAll text).map (List.map fun r => (r.baseType, r.attributes.keys)) =
        .ok [("A<B\"", ["label1", "row1", "delete"]), ("BR", [])] ∧
      ((readAll text).bind fun records =>
        (readAll (records.flatMap fun r => r.render.toList)).map
          (List.map fun r => (r.baseType, r.attributes.keys))) =
        .ok [("A<B\"", ["delete", "label1", "row1"]), ("BR", [])] := by
    decide +kernel
  cases hrecords : readAll text with
  | error fault =>
    rw [hrecords] at hkeys
    cases hkeys.1
  | ok records =>
    rcases readAll_render hrecords with ⟨again, hagain, hsame⟩
    rw [hrecords, Except.bind, hagain] at hkeys
    exact ⟨records, again, rfl, hagain, hsame, Except.ok.inj hkeys.1, Except.ok.inj hkeys.2⟩

end Sheetwright.Record
