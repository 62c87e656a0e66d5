import Mathlib.Data.List.Forall2
import Mathlib.Data.List.Nodup
import Mathlib.Data.List.Perm.Subperm
import Sheetwright.Collection
import Sheetwright.Proofs.Code
/-!
# Collections of records

The key that a record gets is the first that is in no use (`firstFree_nextKey`): where the base type
is taken, one number among as many as there are codes is always free. Adding a record therefore puts
its code behind the others and changes none of them, and a collection holds one code for each
record, in the order of the records (`exists_ofText`).
-/

namespace Sheetwright.Collection

open Record

variable {c : Collection} {baseType : String}

/-! ## Keys -/

theorem numbered_injective (baseType : String) : Function.Injective (numbered baseType) := by
  intro m n h
  have hlists := congrArg String.toList h
  rw [numbered, numbered, String.toList_append, String.toList_append, String.toList_ofList,
    String.toList_ofList] at hlists
  exact Text.decimal_injective (List.append_cancel_left hlists)

theorem ne_numbered (baseType : String) (n : Nat) : baseType ≠ numbered baseType n := by
  intro h
  have hlength := congrArg (List.length ∘ String.toList) h
  rcases Text.exists_mem_decimal n with ⟨digit, hdigit⟩
  have hpos := List.length_pos_of_mem hdigit
  simp only [numbered, Function.comp_apply, String.toList_append, String.toList_ofList,
    List.length_append] at hlength
  omega

/-- Where the base type is taken, not all of the first `size` numbers are as well, for their keys
differ from it and from each other. -/
theorem exists_free (h : baseType ∈ c.keys) :
    ∃ n < c.size, c.codes.has (numbered baseType (n + 1)) = false := by
  by_contra hnone
  have htaken : ∀ n < c.size, numbered baseType (n + 1) ∈ c.keys := by
    intro n hn
    by_contra hfree
    exact hnone ⟨n, hn, Entries.has_eq_false_iff.mpr hfree⟩
  have hnumbers : ((List.range c.size).map fun n => numbered baseType (n + 1)).Nodup := by
    refine List.Nodup.map (fun m n h => ?_) List.nodup_range
    exact Nat.succ_injective (numbered_injective baseType h)
  have hnodup :
      (baseType :: (List.range c.size).map fun n => numbered baseType (n + 1)).Nodup := by
    refine List.nodup_cons.mpr ⟨fun hmem => ?_, hnumbers⟩
    rcases List.mem_map.mp hmem with ⟨n, -, hn⟩
    exact ne_numbered baseType (n + 1) hn.symm
  -- so many different keys do not fit among those in use
  have hsubset :
      (baseType :: (List.range c.size).map fun n => numbered baseType (n + 1)) ⊆ c.keys := by
    refine List.cons_subset.mpr ⟨h, fun key hkey => ?_⟩
    rcases List.mem_map.mp hkey with ⟨n, hn, rfl⟩
    exact htaken n (List.mem_range.mp hn)
  have hlength := (List.subperm_of_subset hnodup hsubset).length_le
  simp only [List.length_cons, List.length_map, List.length_range, keys, Entries.keys,
    size] at hlength
  omega

/-- The key is the first that is free: the base type, or else the base type with the smallest number
whose key is in no use. The number is at most the size of the collection. -/
def FirstFree (c : Collection) (baseType key : String) : Prop :=
  (baseType ∉ c.keys ∧ key = baseType) ∨
    (baseType ∈ c.keys ∧ ∃ n, 1 ≤ n ∧ n ≤ c.size ∧ key = numbered baseType n ∧ key ∉ c.keys ∧
      ∀ m, 1 ≤ m → m < n → numbered baseType m ∈ c.keys)

theorem firstFree_nextKey (c : Collection) (baseType : String) :
    c.FirstFree baseType (c.nextKey baseType) := by
  by_cases hbase : baseType ∈ c.keys
  · have hhas : c.codes.has baseType = true := by
      by_contra hfree
      exact Entries.has_eq_false_iff.mp (Bool.eq_false_iff.mpr hfree) hbase
    rw [nextKey, if_pos hhas]
    -- one number up to the size is free, so the search ends, and at the first free one
    rcases exists_free hbase with ⟨free, hsize, hfree⟩
    cases hfind : (List.range (c.size + 1)).find? fun n =>
        !c.codes.has (numbered baseType (n + 1)) with
    | none =>
      have htaken := List.find?_eq_none.mp hfind free (List.mem_range.mpr (by omega))
      simp [hfree] at htaken
    | some first =>
      rw [List.find?_range_eq_some] at hfind
      obtain ⟨hfirst, -, hbefore⟩ := hfind
      have hsmallest : first ≤ free := by
        by_contra hlate
        have htaken := hbefore free (by omega)
        simp [hfree] at htaken
      refine Or.inr ⟨hbase, first + 1, by omega, by omega, rfl, ?_, fun m hm hlt => ?_⟩
      · exact Entries.has_eq_false_iff.mp (by simpa using hfirst)
      · have htaken := hbefore (m - 1) (by omega)
        have hback : m - 1 + 1 = m := by omega
        rw [hback, Bool.not_not] at htaken
        by_contra hfree
        rw [Entries.has_eq_false_iff.mpr hfree] at htaken
        cases htaken
  · rw [nextKey, Entries.has_eq_false_iff.mpr hbase]
    exact Or.inl ⟨hbase, rfl⟩

theorem FirstFree.not_mem {key : String} (h : c.FirstFree baseType key) : key ∉ c.keys := by
  rcases h with ⟨hfree, rfl⟩ | ⟨-, n, -, -, -, hfree, -⟩
  · exact hfree
  · exact hfree

/-- The key of a new record is not in use. -/
theorem has_nextKey (c : Collection) (baseType : String) :
    c.codes.has (c.nextKey baseType) = false :=
  Entries.has_eq_false_iff.mpr (firstFree_nextKey c baseType).not_mem

theorem nextKey_ne_empty (h : baseType ≠ "") : c.nextKey baseType ≠ "" := by
  rw [nextKey]
  split
  · intro hempty
    rw [numbered, String.append_eq_empty_iff] at hempty
    exact h hempty.1
  · exact h

/-! ## Codes -/

/-- Adding a record puts its code behind the others. -/
theorem add_eq (c : Collection) {r : Record} {code : Code}
    (h : Code.ofRecord (c.nextKey r.baseType) r = .ok code) :
    c.add r = .ok (⟨c.codes ++ [(c.nextKey r.baseType, code)]⟩, code) := by
  rw [add, h, ← Entries.put_of_not_has (has_nextKey c r.baseType) code]
  rfl

/-- Records that were read and have a base type are added one after another. -/
theorem exists_foldlM_add {records : List Record}
    (h : ∀ r ∈ records, r.baseType ≠ "" ∧ ∃ record, Record.read record = .ok r) (c : Collection) :
    ∃ codes, records.foldlM (fun c r => (c.add r).map (·.1)) c = .ok ⟨c.codes ++ codes⟩ ∧
      List.Forall₂ (fun r code => ∃ key, Code.ofRecord key r = .ok code) records
        (codes.map (·.2)) := by
  induction records generalizing c with
  | nil => exact ⟨[], by simp [pure, Except.pure], List.Forall₂.nil⟩
  | cons r records ih =>
    obtain ⟨hbase, record, hread⟩ := h r List.mem_cons_self
    rcases Code.exists_ofRecord hread (nextKey_ne_empty (c := c) hbase) with ⟨code, hcode⟩
    rcases ih (fun r' hr' => h r' (List.mem_cons_of_mem r hr'))
      ⟨c.codes ++ [(c.nextKey r.baseType, code)]⟩ with ⟨codes, hcodes, hmatch⟩
    refine ⟨(c.nextKey r.baseType, code) :: codes, ?_, List.Forall₂.cons ⟨_, hcode⟩ hmatch⟩
    rw [List.append_assoc, List.singleton_append] at hcodes
    rw [List.foldlM_cons, add_eq c hcode]
    exact hcodes

/-- A text whose records can be read gives a collection with one code for each of them. -/
theorem exists_ofText {text : List Char} {records : List Record} (h : readAll text = .ok records) :
    ∃ collection, ofText text = .ok collection ∧
      List.Forall₂ (fun r code => ∃ key, Code.ofRecord key r = .ok code) records
        collection.values := by
  have hread : ∀ r ∈ records, r.baseType ≠ "" ∧ ∃ record, Record.read record = .ok r := by
    intro r hr
    rcases exists_text h hr with ⟨hbase, record, -, hrecord⟩
    exact ⟨hbase, record, hrecord⟩
  rcases exists_foldlM_add hread {} with ⟨codes, hcodes, hmatch⟩
  refine ⟨⟨codes⟩, ?_, hmatch⟩
  rw [ofText, h]
  change (ofRecords records).mapError Fault.code = _
  rw [ofRecords, hcodes]
  rfl

/-- The codes of a collection that was made of a text. -/
theorem forall₂_of_ofText {text : List Char} {collection : Collection}
    (h : ofText text = .ok collection) : ∃ records, readAll text = .ok records ∧
      List.Forall₂ (fun r code => ∃ key, Code.ofRecord key r = .ok code) records
        collection.values := by
  cases hread : readAll text with
  | error fault =>
    rw [ofText, hread] at h
    cases h
  | ok records =>
    rcases exists_ofText hread with ⟨other, hother, hcodes⟩
    obtain rfl : other = collection := Except.ok.inj (hother.symm.trans h)
    exact ⟨records, rfl, hcodes⟩

/-- A text gives a collection if something computed from its codes is known, and that tells the code
in each place. -/
theorem exists_of_mapIdx {α : Type} {text : List Char} {f : Collection → Nat → Code → α}
    {known : List α}
    (h : (ofText text).map (fun collection => collection.values.mapIdx (f collection)) =
      .ok known) :
    ∃ collection, ofText text = .ok collection ∧ ∀ i a, known[i]? = some a →
      ∃ c, collection.values[i]? = some c ∧ f collection i c = a := by
  cases hcollection : ofText text with
  | error fault =>
    rw [hcollection] at h
    cases h
  | ok collection =>
    rw [hcollection, Except.map, Except.ok.injEq] at h
    refine ⟨collection, rfl, fun i a ha => ?_⟩
    rw [← h, List.getElem?_mapIdx, Option.map_eq_some_iff] at ha
    exact ha

end Sheetwright.Collection
