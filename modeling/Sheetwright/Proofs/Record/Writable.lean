import Sheetwright.Proofs.Record.Kept
import Sheetwright.Proofs.Record.Spans
/-!
# Records that can be written

A record can be written and read again if its texts hold nothing that ends what they are written
into: no quote in a value, no semicolon and no closing bracket anywhere (`Writable`). Every record
that was read is of this kind, and it is marked for deletion wherever one of its values holds the
mark, for the mark counts wherever it stands (`marked_of_value`).
-/

namespace Sheetwright.Record

open Text

variable {attributes : Entries String Datum} {outcomes : List (List Char × Outcome)}

/-! ## Entries that can be written -/

/-- A text that ends neither the quotes, nor the fragment, nor the record it is written into. -/
structure Plain (value : List Char) : Prop where
  quote : '"' ∉ value
  semicolon : ';' ∉ value
  bracket : '>' ∉ value

/-- An entry is the deletion mark, or a plain value under a name of the vocabulary. -/
inductive Entry : String × Datum → Prop
  | mark : Entry (deleteKey, .bool true)
  | value {name : AttributeName} {value : List Char} (known : name.Known) (plain : Plain value) :
      Entry (name.text, .text (String.ofList value))

/-- A record whose texts can be read from where they are written. -/
structure Writable (r : Record) : Prop where
  trimmed : trim r.baseType.toList = r.baseType.toList
  semicolon : ';' ∉ r.baseType.toList
  bracket : '>' ∉ r.baseType.toList
  nodup : r.attributes.keys.Nodup
  entries : ∀ entry ∈ r.attributes, Entry entry

/-- Under the name of an attribute stands a plain value. -/
theorem Entry.exists_value {name : AttributeName} {datum : Datum} (h : Entry (name.text, datum)) :
    ∃ value, name.Known ∧ Plain value ∧ datum = .text (String.ofList value) := by
  generalize hentry : (name.text, datum) = entry at h
  cases h with
  | mark => exact absurd (Prod.mk.inj hentry).1 (AttributeName.text_ne_delete name)
  | @value other value known plain =>
    obtain ⟨hname, rfl⟩ := Prod.mk.inj hentry
    obtain rfl := AttributeName.text_injective hname
    exact ⟨value, known, plain, rfl⟩

/-- Under the key of the mark stands the mark. -/
theorem Entry.eq_mark {datum : Datum} (h : Entry (deleteKey, datum)) : datum = .bool true := by
  generalize hentry : (deleteKey, datum) = entry at h
  cases h with
  | mark => exact (Prod.mk.inj hentry).2
  | @value name value known plain =>
    exact absurd (Prod.mk.inj hentry).1.symm (AttributeName.text_ne_delete name)

/-- A key of an entry is the key of the mark or the spelling of a name. -/
theorem Entry.key {entry : String × Datum} (h : Entry entry) :
    entry.1 = deleteKey ∨ ∃ name : AttributeName, entry.1 = name.text := by
  cases h with
  | mark => exact Or.inl rfl
  | @value name value known plain => exact Or.inr ⟨name, rfl⟩

/-! ## Entries that were read -/

/-- What holds of the entries so far, and is kept when the mark or a value that the fragment gives
is put, holds after one more fragment. -/
theorem addFragment_induction {P : Entries String Datum → Prop} {fragment : List Char}
    {outcome : Outcome} (h : P attributes) (hmark : P (attributes.put deleteKey (.bool true)))
    (hvalue : ∀ name value, outcome = .attribute name value → ∀ marked, P marked →
      P (Entries.put name.text (.text (String.ofList value)) marked)) :
    P (addFragment attributes (fragment, outcome)) := by
  have hmarked : P (if marksDeletion fragment then attributes.put deleteKey (.bool true)
      else attributes) := by
    split
    · exact hmark
    · exact h
  rcases outcome with ⟨name, value⟩ | reason | _
  · exact hvalue name value rfl _ hmarked
  · exact hmarked
  · exact hmarked

/-- What holds of the mark and of every value that a fragment gives holds of every entry, and no two
entries have the same key. -/
theorem forall_mem_foldl_addFragment {P : String × Datum → Prop}
    (hmark : P (deleteKey, .bool true))
    (hvalue : ∀ entry ∈ outcomes, ∀ name value, entry.2 = .attribute name value →
      P (name.text, .text (String.ofList value))) :
    (Entries.keys (outcomes.foldl addFragment [])).Nodup ∧
      ∀ entry ∈ outcomes.foldl addFragment [], P entry := by
  induction outcomes using List.reverseRecOn with
  | nil => exact ⟨List.nodup_nil, nofun⟩
  | append_singleton outcomes last ih =>
    rw [List.forall_mem_append, List.forall_mem_singleton] at hvalue
    rw [List.foldl_append, List.foldl_cons, List.foldl_nil]
    rcases ih hvalue.1 with ⟨hnodup, hentries⟩
    refine addFragment_induction (P := fun entries => entries.keys.Nodup ∧
      ∀ entry ∈ entries, P entry) ⟨hnodup, hentries⟩ ?_ ?_
    · exact ⟨Entries.nodup_keys_put hnodup _ _, Entries.forall_mem_put hentries hmark⟩
    · rintro name value hgives marked ⟨hnodup, hentries⟩
      exact ⟨Entries.nodup_keys_put hnodup _ _,
        Entries.forall_mem_put hentries (hvalue.2 name value hgives)⟩

/-- The deletion mark is kept if some fragment holds it. -/
theorem get?_delete_foldl (outcomes : List (List Char × Outcome)) :
    Entries.get? deleteKey (outcomes.foldl addFragment []) =
      if outcomes.any (marksDeletion ·.1) then some (.bool true) else none := by
  induction outcomes using List.reverseRecOn with
  | nil => rfl
  | append_singleton outcomes last ih =>
    obtain ⟨fragment, outcome⟩ := last
    -- one fragment sets the key exactly if it marks the deletion: no name has the key's spelling
    have hmarked : ∀ attributes : Entries String Datum,
        Entries.get? deleteKey (addFragment attributes (fragment, outcome)) =
          if marksDeletion fragment then some (.bool true) else attributes.get? deleteKey := by
      intro attributes
      have hput : Entries.get? deleteKey (if marksDeletion fragment then
          attributes.put deleteKey (.bool true) else attributes) =
          if marksDeletion fragment then some (.bool true) else attributes.get? deleteKey := by
        split
        · exact Entries.get?_put_self _ _ _
        · rfl
      rcases outcome with ⟨name, value⟩ | reason | _
      · have hne : deleteKey ≠ name.text := (AttributeName.text_ne_delete name).symm
        rw [addFragment, Entries.get?_put_of_ne hne, hput]
      · exact hput
      · exact hput
    rw [List.foldl_append, List.foldl_cons, List.foldl_nil, hmarked, ih, List.any_append,
      List.any_cons, List.any_nil, Bool.or_false]
    cases marksDeletion fragment with
    | true => rw [Bool.or_true, if_pos rfl, if_pos rfl]
    | false => rw [Bool.or_false, if_neg Bool.false_ne_true]

theorem isDeleted_of_get? {r : Record} {mark : Bool}
    (h : r.attributes.get? deleteKey = if mark then some (.bool true) else none) :
    r.isDeleted = mark := by
  rw [isDeleted, h]
  cases mark <;> rfl

/-! ## Records that were read -/

/-- What a fragment gives has a name of the vocabulary, and its value is a plain part of the
fragment. -/
theorem plain_of_outcome {fragment value : List Char} {name : AttributeName}
    (hsemicolon : ';' ∉ fragment) (hbracket : '>' ∉ fragment)
    (h : outcome fragment = .ok (.attribute name value)) :
    name.Known ∧ Plain value ∧ value <:+: fragment := by
  rcases exists_of_outcome h with ⟨part, lead, gap, tail, hstands, hread, -, -, hvalue, hrest⟩
  rcases hstands.eq_append with ⟨blanks, -, hsplit⟩
  have hwithin : value <:+: fragment := by
    refine ⟨lead ++ part.letters ++ part.digits ++ blanks ++ '=' :: gap ++ ['"'], '"' :: tail, ?_⟩
    rw [hsplit, hrest]
    simp only [List.append_assoc, List.cons_append, List.nil_append]
  exact ⟨AttributeName.known_of_read hread, ⟨hvalue, fun hc => hsemicolon (hwithin.subset hc),
    fun hc => hbracket (hwithin.subset hc)⟩, hwithin⟩

section

variable {text record : List Char} {r : Record}

theorem not_mem_of_mem_parts {body : List Char} (hbody : '>' ∉ body) {part : List Char}
    (h : part ∈ parts ('<' :: body ++ ['>'])) : ';' ∉ part ∧ '>' ∉ part := by
  rw [parts, body_bracketed] at h
  have hsplit := mem_splitOn h
  exact ⟨hsplit.1, fun hc => hbody (hsplit.2 _ hc)⟩

/-- What was found of a record gives plain values, and none of them holds more than its fragment. -/
theorem plain_of_found {body : List Char} (hbody : '>' ∉ body)
    {found : List (List Char × Outcome)}
    (hfragments : (parts ('<' :: body ++ ['>'])).drop 1 = found.map (·.1))
    (houtcome : ∀ entry ∈ found, outcome entry.1 = .ok entry.2) :
    ∀ entry ∈ found, ∀ name value, entry.2 = .attribute name value →
      name.Known ∧ Plain value ∧ value <:+: entry.1 := by
  intro entry hentry name value hgives
  have hfragment : entry.1 ∈ (parts ('<' :: body ++ ['>'])).drop 1 := by
    rw [hfragments]
    exact List.mem_map_of_mem hentry
  have hparts := not_mem_of_mem_parts hbody (List.mem_of_mem_drop hfragment)
  exact plain_of_outcome hparts.1 hparts.2 (hgives ▸ houtcome entry hentry)

theorem writable_of_read (hrecord : record ∈ texts text) (hread : read record = .ok r) :
    r.Writable := by
  obtain ⟨body, hbody, rfl⟩ := mem_texts hrecord
  rcases read_eq_ok hread with ⟨found, hfragments, houtcome, rfl⟩
  rcases exists_parts_eq ('<' :: body ++ ['>']) with ⟨base, fragments, hparts⟩
  have hbase := not_mem_of_mem_parts hbody (hparts ▸ List.mem_cons_self)
  have hfound := plain_of_found hbody hfragments houtcome
  have hentries := forall_mem_foldl_addFragment (P := Entry) .mark
    fun entry hentry name value hgives =>
      .value (hfound entry hentry name value hgives).1 (hfound entry hentry name value hgives).2.1
  rw [assemble, hparts, List.headD_cons]
  refine ⟨?_, ?_, ?_, hentries.1, hentries.2⟩
  · rw [String.toList_ofList, trim_trim]
  · rw [String.toList_ofList]
    exact fun hc => hbase.1 ((trim_sublist base).subset hc)
  · rw [String.toList_ofList]
    exact fun hc => hbase.2 ((trim_sublist base).subset hc)

/-- Whatever a record is read from, its keys are told apart, and each entry is the mark or a text
under a name of the vocabulary. -/
theorem entry_of_read (hread : read record = .ok r) :
    r.attributes.keys.Nodup ∧ ∀ entry ∈ r.attributes, entry = (deleteKey, .bool true) ∨
      ∃ (name : AttributeName) (value : String), name.Known ∧ entry = (name.text, .text value) := by
  rcases read_eq_ok hread with ⟨found, -, houtcome, rfl⟩
  refine forall_mem_foldl_addFragment (Or.inl rfl) fun entry hentry name value hgives => Or.inr ?_
  rcases exists_of_outcome (hgives ▸ houtcome entry hentry) with ⟨part, -, -, -, -, hname, -⟩
  exact ⟨name, String.ofList value, AttributeName.known_of_read hname, rfl⟩

/-- A record that was read is marked for deletion if one of its values holds the mark. -/
theorem marked_of_value (hrecord : record ∈ texts text) (hread : read record = .ok r)
    {name : AttributeName} {value : List Char}
    (hkept : r.attributes.get? name.text = some (.text (String.ofList value)))
    (hmarks : marksDeletion value = true) : r.attributes.get? deleteKey = some (.bool true) := by
  obtain ⟨body, hbody, rfl⟩ := mem_texts hrecord
  rcases read_eq_ok hread with ⟨found, hfragments, houtcome, rfl⟩
  rcases get?_foldl_addFragment.mp hkept with ⟨before, fragment, kept, after, hsplit, hdatum, -⟩
  have hmem : (fragment, .attribute name kept) ∈ found := hsplit ▸ List.mem_append_cons_self
  have hvalue : value = kept := String.ofList_injective (Datum.text.inj hdatum)
  have hwithin := (plain_of_found hbody hfragments houtcome _ hmem name kept rfl).2.2
  have hany : found.any (marksDeletion ·.1) = true := by
    refine List.any_eq_true.mpr ⟨_, hmem, ?_⟩
    rw [hvalue, marksDeletion, holds_iff_infix] at hmarks
    exact holds_iff_infix.mpr (hmarks.trans hwithin)
  rw [assemble, get?_delete_foldl, if_pos hany]

end

end Sheetwright.Record
