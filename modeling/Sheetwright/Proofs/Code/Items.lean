import Mathlib.Data.List.Flatten
import Mathlib.Data.List.Nodup
import Sheetwright.Proofs.Code
import Sheetwright.Proofs.Record.Writable
/-!
# The attributes that a code lists

A code keeps its attributes in eight texts, four groups of slots and a mark, and it lists them again
under their names. Between a record that was read and this list nothing is lost, added or repeated
(`exists_attributeItems`): both hold the same texts under the same names, but the list leaves out
what is empty and has another spelling for the mark.
-/

namespace Sheetwright

/-- Going over items that keep their keys, some of them left out, leaves a part of the keys. -/
theorem map_filterMap_sublist {α β γ : Type} {f : α → Option β} {key : α → γ} {key' : β → γ}
    (h : ∀ x y, f x = some y → key' y = key x) (items : List α) :
    ((items.filterMap f).map key').Sublist (items.map key) := by
  induction items with
  | nil => exact List.Sublist.slnil
  | cons x items ih =>
    rw [List.map_cons, List.filterMap_cons]
    cases hx : f x with
    | none => exact ih.cons _
    | some y =>
      rw [List.map_cons, h x y hx]
      exact ih.cons_cons _

/-! ## Slots that are filled -/

namespace Slots

variable {size : Nat}

/-- The filled slots stand in the order of their indices. -/
theorem map_fst_filled_sublist (s : Slots size) :
    (s.filled.map Prod.fst).Sublist (List.range' 1 size) := by
  have hindices : (s.values.zipIdx 1).map Prod.snd = List.range' 1 size := by
    rw [List.zipIdx_map_snd, s.length_values]
  rw [← hindices]
  apply map_filterMap_sublist
  rintro ⟨found, index⟩ entry hsome
  by_cases hempty : found.isEmpty = true
  · simp [hempty] at hsome
  · simp only [hempty] at hsome
    cases hsome
    rfl

end Slots

/-! ## The list of a code -/

/-- The names of the indexed attributes, group by group. -/
def Group.names : List AttributeName :=
  Group.all.flatMap fun g => (List.range' 1 g.size).map (AttributeName.slot g)

theorem Group.nodup_names : Group.names.Nodup := by
  refine List.nodup_flatMap.mpr ⟨fun g _ => ?_, ?_⟩
  · exact List.Nodup.map (fun i j h => (AttributeName.slot.inj h).2) List.nodup_range'
  · have hall : Group.all.Nodup := by
      decide
    refine hall.imp fun {g g'} hne name hname hname' => hne ?_
    rcases List.mem_map.mp hname with ⟨i, -, rfl⟩
    rcases List.mem_map.mp hname' with ⟨j, -, hslot⟩
    exact (AttributeName.slot.inj hslot).1.symm

namespace Code

open Record

variable {key : String} {record : List Char} {r : Record} {c : Code}

/-- The text that a code holds for an attribute; empty if it holds none. -/
def value (c : Code) : AttributeName → String
  | .scalar s => c.scalar s
  | .slot g i => ((c.slots g).get? i).getD ""

/-- All names under which a code can list something, in their order. -/
def listable : List String :=
  Scalar.all.map Scalar.name ++ ([deleteMarker] ++ Group.names.map AttributeName.text)

/-- The names of the attributes differ from each other, and from the mark by its capital letter. -/
theorem nodup_listable : listable.Nodup := by
  have hnames : (Scalar.all.map AttributeName.scalar ++ Group.names).Nodup := by
    refine List.Nodup.append (by decide) Group.nodup_names fun name hscalar hslot => ?_
    rcases List.mem_map.mp hscalar with ⟨s, -, rfl⟩
    rcases List.mem_flatMap.mp hslot with ⟨g, -, hslot⟩
    rcases List.mem_map.mp hslot with ⟨i, -, hname⟩
    cases hname
  have hmark : deleteMarker ∉
      (Scalar.all.map AttributeName.scalar ++ Group.names).map AttributeName.text := by
    intro hmem
    rcases List.mem_map.mp hmem with ⟨name, -, htext⟩
    -- the marker has a capital letter, no name of an attribute has one
    have hletter : 'D' ∈ name.text.toList := by
      rw [htext]
      decide
    exact AttributeName.not_mem_text rfl rfl name hletter
  have hkeys := hnames.map AttributeName.text_injective
  rw [List.map_append, List.map_map] at hmark hkeys
  rw [listable, List.singleton_append, List.nodup_middle, List.nodup_cons]
  exact ⟨hmark, hkeys⟩

/-- A code lists its attributes in the order of the vocabulary. -/
theorem map_fst_attributeItems_sublist (c : Code) :
    (c.attributeItems.map Prod.fst).Sublist listable := by
  rw [attributeItems, listable, List.map_append, List.map_append, List.append_assoc]
  -- texts, mark and slots stand in the same order on both sides
  refine List.Sublist.append ?_ (List.Sublist.append ?_ ?_)
  · apply map_filterMap_sublist
    intro s item hsome
    split at hsome
    · cases hsome
    · cases hsome
      rfl
  · cases c.isDeleted with
    | true => exact List.Sublist.refl _
    | false => exact List.nil_sublist _
  · rw [Group.names, List.map_flatMap, List.map_flatMap]
    refine List.Sublist.flatMap_right _ fun g _ => ?_
    have hsub := (c.slots g).map_fst_filled_sublist.map fun i => (AttributeName.slot g i).text
    rw [List.map_map] at hsub
    rw [List.map_map, List.map_map]
    exact hsub

theorem mem_scalarItems {item : String × Datum} :
    (item ∈ Scalar.all.filterMap fun s =>
        if (c.scalar s).isEmpty then none else some (s.name, Datum.text (c.scalar s))) ↔
      ∃ s, c.scalar s ≠ "" ∧ item = (s.name, .text (c.scalar s)) := by
  rw [List.mem_filterMap]
  constructor
  · rintro ⟨s, -, hsome⟩
    split at hsome
    · cases hsome
    · next hempty =>
      cases hsome
      exact ⟨s, by simpa [String.isEmpty_iff] using hempty, rfl⟩
  · rintro ⟨s, hne, rfl⟩
    have hs : s ∈ Scalar.all := by
      cases s <;> decide
    exact ⟨s, hs, by simp [String.isEmpty_iff, hne]⟩

theorem mem_slotItems {item : String × Datum} :
    (item ∈ Group.all.flatMap fun g => (c.filledSlots g).map fun (index, value) =>
        ((AttributeName.slot g index).text, Datum.text value)) ↔
      ∃ g i, (1 ≤ i ∧ i ≤ g.size) ∧ c.value (.slot g i) ≠ "" ∧
        item = ((AttributeName.slot g i).text, .text (c.value (.slot g i))) := by
  rw [List.mem_flatMap]
  constructor
  · rintro ⟨g, -, hitem⟩
    rcases List.mem_map.mp hitem with ⟨⟨i, text⟩, hfilled, rfl⟩
    have hindex := (c.slots g).map_fst_filled_sublist.subset (List.mem_map_of_mem hfilled)
    obtain ⟨hne, hget⟩ := Slots.mem_filled.mp hfilled
    have hvalue : c.value (.slot g i) = text := by
      rw [value, hget]
      rfl
    rw [List.mem_range'_1] at hindex
    refine ⟨g, i, ⟨hindex.1, by omega⟩, hvalue ▸ hne, by rw [hvalue]⟩
  · rintro ⟨g, i, -, hne, rfl⟩
    have hg : g ∈ Group.all := by
      cases g <;> decide
    cases hget : (c.slots g).get? i with
    | none =>
      rw [value, hget] at hne
      exact absurd rfl hne
    | some text =>
      rw [value, hget] at hne ⊢
      exact ⟨g, hg, List.mem_map.mpr ⟨(i, text), Slots.mem_filled.mpr ⟨hne, hget⟩, rfl⟩⟩

/-- A code lists the attributes for which it holds a text, and its mark. -/
theorem mem_attributeItems {item : String × Datum} :
    item ∈ c.attributeItems ↔
      (∃ name : AttributeName, name.Known ∧ c.value name ≠ "" ∧
        item = (name.text, .text (c.value name))) ∨
      (c.isDeleted = true ∧ item = (deleteMarker, .bool true)) := by
  have hmark : item ∈ (if c.isDeleted then [(deleteMarker, Datum.bool true)] else []) ↔
      c.isDeleted = true ∧ item = (deleteMarker, .bool true) := by
    cases c.isDeleted <;> simp
  rw [attributeItems, List.mem_append, List.mem_append, mem_scalarItems, hmark, mem_slotItems]
  constructor
  · rintro ((⟨s, hne, rfl⟩ | hmark) | ⟨g, i, hi, hne, rfl⟩)
    · exact Or.inl ⟨.scalar s, trivial, hne, rfl⟩
    · exact Or.inr hmark
    · exact Or.inl ⟨.slot g i, hi, hne, rfl⟩
  · rintro (⟨s | ⟨g, i⟩, hname, hne, rfl⟩ | hmark)
    · exact Or.inl (Or.inl ⟨s, hne, rfl⟩)
    · exact Or.inr ⟨g, i, hname, hne, rfl⟩
    · exact Or.inl (Or.inr hmark)

/-! ## Codes of records -/

/-- The texts of a code are what its record keeps under their names. -/
theorem value_of_ofRecord (hread : Record.read record = .ok r) (h : ofRecord key r = .ok c)
    {name : AttributeName} (hname : name.Known) :
    c.value name = ((r.attributes.get? name.text).map Datum.plain).getD "" := by
  cases name with
  | scalar s => exact scalar_of_ofRecord hread h s
  | slot g i =>
    cases hdatum : r.attributes.get? (AttributeName.slot g i).text with
    | none =>
      rw [value, (fields_of_ofRecord h).2, get?_slotsOf r hname, hdatum]
      rfl
    | some datum =>
      rcases exists_of_kept hread hdatum with ⟨_, _, _, _, text, -, -, rfl⟩
      rw [value, get?_slots_of_text h hname hdatum]
      rfl

/-- A record that was read is marked for deletion if it keeps the mark. -/
theorem isDeleted_of_read (hread : Record.read record = .ok r) :
    r.isDeleted = r.attributes.has deleteKey := by
  rcases read_eq_ok hread with ⟨found, -, -, rfl⟩
  have hkept : (assemble record found).attributes.get? deleteKey = _ := get?_delete_foldl found
  rw [isDeleted_of_get? hkept, Entries.has, hkept]
  cases found.any (marksDeletion ·.1) <;> rfl

/-- A record that was read is a code under every key that is not empty, and the code lists each
attribute of the record that is not empty once, the mark if the record keeps it, and nothing
else. -/
theorem exists_attributeItems (hread : Record.read record = .ok r) (hkey : key ≠ "") :
    ∃ c, ofRecord key r = .ok c ∧ c.baseType = r.baseType ∧ c.rawText = r.rawText ∧
      (c.attributeItems.map Prod.fst).Nodup ∧
      ∀ item, item ∈ c.attributeItems ↔
        (item ∈ r.attributes ∧ ∃ value, value ≠ "" ∧ item.2 = .text value) ∨
        (r.attributes.has deleteKey = true ∧ item = (deleteMarker, .bool true)) := by
  rcases exists_ofRecord hread hkey with ⟨c, hcode⟩
  refine ⟨c, hcode, (fields_of_ofRecord hcode).1, (rawText_of_ofRecord hcode).1,
    nodup_listable.sublist (map_fst_attributeItems_sublist c), fun item => ?_⟩
  rw [mem_attributeItems, (rawText_of_ofRecord hcode).2, isDeleted_of_read hread]
  refine or_congr_left ?_
  constructor
  · -- what is listed was kept: an attribute that was not kept has no text in the code
    rintro ⟨name, hname, hne, rfl⟩
    cases hdatum : r.attributes.get? name.text with
    | none =>
      rw [value_of_ofRecord hread hcode hname, hdatum] at hne
      exact absurd rfl hne
    | some datum =>
      rcases exists_of_kept hread hdatum with ⟨_, _, _, _, text, -, -, rfl⟩
      have hvalue : c.value name = String.ofList text := by
        rw [value_of_ofRecord hread hcode hname, hdatum]
        rfl
      rw [hvalue] at hne ⊢
      exact ⟨Entries.mem_of_get? hdatum, _, hne, rfl⟩
  · -- what was kept is listed: no text stands under a name outside of the vocabulary
    rintro ⟨hmem, text, hne, htext⟩
    rcases entry_of_read hread with ⟨hnodup, hentries⟩
    rcases hentries item hmem with rfl | ⟨name, kept, hname, rfl⟩
    · cases htext
    · obtain rfl := Datum.text.inj htext
      have hvalue : c.value name = kept := by
        rw [value_of_ofRecord hread hcode hname, (Entries.mem_iff_get? hnodup).mp hmem]
        rfl
      exact ⟨name, hname, hvalue ▸ hne, by rw [hvalue]⟩

/-- An attribute that is given again has its last value, and one that was emptied is not listed. -/
theorem exists_attributeItems_again :
    let record := " < TAB ; row200=\"AS1|\"; label1=\"A\"; Driver=\"x>y\"; label9=\"B\"".toList ++
      "; driver1=\"no; not Deleted; label9=\"\"; label10=\"no\"; LABEL1 = \"C\"; row1=\"D\">".toList
    ∃ r c, Record.read record = .ok r ∧ "TAB 2" ≠ "" ∧ ofRecord "TAB 2" r = .ok c ∧
      (c.attributeItems.map Prod.fst).Nodup ∧
      r.attributes.map (fun item => (item.1, item.2.plain)) =
        [("row200", "AS1|"), ("label1", "C"), ("driver", "x>y"), ("label9", ""),
          ("delete", "True"), ("row1", "D")] ∧
      c.attributeItems.map (fun item => (item.1, item.2.plain)) =
        [("driver", "x>y"), ("Delete", "True"), ("label1", "C"), ("row1", "D"),
          ("row200", "AS1|")] := by
  intro record
  have hread : (Record.read record).map (fun r =>
      (r.attributes.map fun item => (item.1, item.2.plain),
        (ofRecord "TAB 2" r).toOption.map fun c =>
          c.attributeItems.map fun item => (item.1, item.2.plain))) =
      .ok ([("row200", "AS1|"), ("label1", "C"), ("driver", "x>y"), ("label9", ""),
          ("delete", "True"), ("row1", "D")],
        some [("driver", "x>y"), ("Delete", "True"), ("label1", "C"), ("row1", "D"),
          ("row200", "AS1|")]) := by
    decide +kernel
  have hkey : "TAB 2" ≠ "" := by
    decide
  cases hrecord : Record.read record with
  | error fault =>
    rw [hrecord] at hread
    cases hread
  | ok r =>
    rcases exists_attributeItems hrecord hkey with ⟨c, hcode, -, -, hnodup, -⟩
    rw [hrecord] at hread
    obtain ⟨hkept, hlisted⟩ := Prod.mk.inj (Except.ok.inj hread)
    rw [hcode] at hlisted
    exact ⟨r, c, rfl, hkey, hcode, hnodup, hkept, Option.some.inj hlisted⟩

end Code

end Sheetwright
