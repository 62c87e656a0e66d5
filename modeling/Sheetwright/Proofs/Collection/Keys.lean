import Sheetwright.Proofs.Collection
/-!
# Keys over a history of additions

Records are added one after another to an empty collection, and one that is refused is passed over.
A key that was made with a number can be the base type of a later record, so how often a base type
came before says nothing about its next key; what counts is the set of keys in use. The collection
only ever grows at its end, and so every key is the first free one of its time and stays as it is:
`attempts_keys`.
-/

namespace Sheetwright.Collection

variable {c : Collection} {r : Record}

/-! ## One attempt -/

/-- Adds a record, or leaves the collection as it is if the record is refused. -/
def attempt (r : Record) : StateM Collection (Except (List Field.Error) Code) := fun c =>
  match c.add r with
  | .ok (grown, code) => (.ok code, grown)
  | .error errors => (.error errors, c)

/-- What comes of the attempts to add records to an empty collection, and the collection they
lead to. -/
def attempts (records : List Record) : List (Except (List Field.Error) Code) × Collection :=
  (records.mapM attempt).run {}

theorem attempts_append_singleton (records : List Record) (r : Record) :
    attempts (records ++ [r]) =
      ((attempts records).1 ++ [(attempt r (attempts records).2).1],
        (attempt r (attempts records).2).2) := by
  rw [attempts, List.mapM_append, List.mapM_cons, List.mapM_nil]
  rfl

/-- A record is refused exactly if there is no code of it under its key. -/
theorem add_eq_error_iff {errors : List Field.Error} :
    c.add r = .error errors ↔ Code.ofRecord (c.nextKey r.baseType) r = .error errors := by
  rw [add]
  cases Code.ofRecord (c.nextKey r.baseType) r with
  | error other =>
    change Except.error other = Except.error errors ↔ _
    rw [Except.error.injEq, Except.error.injEq]
  | ok code => constructor <;> intro h <;> cases h

/-- An attempt fails and changes nothing, or puts a code behind the others under a key that is the
first free one. -/
theorem attempt_cases (r : Record) (c : Collection) :
    (∃ errors, Code.ofRecord (c.nextKey r.baseType) r = .error errors ∧
      attempt r c = (.error errors, c)) ∨
    ∃ key code, c.FirstFree r.baseType key ∧ Code.ofRecord key r = .ok code ∧
      attempt r c = (.ok code, ⟨c.codes ++ [(key, code)]⟩) := by
  cases hcode : Code.ofRecord (c.nextKey r.baseType) r with
  | error errors =>
    refine Or.inl ⟨errors, rfl, ?_⟩
    rw [attempt, add_eq_error_iff.mpr hcode]
  | ok code =>
    refine Or.inr ⟨c.nextKey r.baseType, code, firstFree_nextKey c r.baseType, hcode, ?_⟩
    rw [attempt, add_eq c hcode]

/-! ## A history of attempts -/

/-- The collection holds the codes that the attempts have given, under distinct keys. -/
structure Kept (results : List (Except (List Field.Error) Code)) (c : Collection) : Prop where
  values : c.values = results.filterMap Except.toOption
  nodup : c.keys.Nodup
  keys : c.keys = c.values.map Code.key

theorem Kept.attempt {results : List (Except (List Field.Error) Code)} (h : Kept results c)
    (r : Record) : Kept (results ++ [(attempt r c).1]) (attempt r c).2 := by
  rcases attempt_cases r c with ⟨errors, -, hattempt⟩ | ⟨key, code, hfree, hcode, hattempt⟩
  · rw [hattempt]
    refine ⟨?_, h.nodup, h.keys⟩
    rw [h.values, List.filterMap_append]
    simp [Except.toOption]
  · rw [hattempt]
    have hvalues : (Collection.mk (c.codes ++ [(key, code)])).values = c.values ++ [code] := by
      simp [Collection.values]
    have hkeys : (Collection.mk (c.codes ++ [(key, code)])).keys = c.keys ++ [key] := by
      simp [Collection.keys, Entries.keys]
    -- the new key is none of the keys before it, so they stay distinct
    refine ⟨?_, ?_, ?_⟩
    · rw [hvalues, h.values, List.filterMap_append]
      rfl
    · rw [hkeys]
      refine List.nodup_append.mpr ⟨h.nodup, List.nodup_singleton key, ?_⟩
      intro earlier hearlier later hlater heq
      rw [heq, List.mem_singleton.mp hlater] at hearlier
      exact hfree.not_mem hearlier
    · rw [hkeys, hvalues, h.keys, List.map_append, List.map_singleton,
        Code.key_of_ofRecord hcode]

theorem kept_attempts (records : List Record) :
    Kept (attempts records).1 (attempts records).2 := by
  induction records using List.reverseRecOn with
  | nil => exact ⟨rfl, List.nodup_nil, rfl⟩
  | append_singleton records r ih =>
    rw [attempts_append_singleton]
    exact ih.attempt r

theorem length_attempts (records : List Record) :
    (attempts records).1.length = records.length := by
  induction records using List.reverseRecOn with
  | nil => rfl
  | append_singleton records r ih =>
    rw [attempts_append_singleton, List.length_append, List.length_append, ih]
    rfl

/-- Later attempts add to what earlier ones have led to. -/
theorem attempts_front (before after : List Record) :
    (attempts before).1 <+: (attempts (before ++ after)).1 ∧
      (attempts before).2.codes <+: (attempts (before ++ after)).2.codes := by
  induction after using List.reverseRecOn with
  | nil =>
    rw [List.append_nil]
    exact ⟨List.prefix_rfl, List.prefix_rfl⟩
  | append_singleton after r ih =>
    rw [← List.append_assoc, attempts_append_singleton]
    refine ⟨ih.1.trans (List.prefix_append _ _), ih.2.trans ?_⟩
    rcases attempt_cases r (attempts (before ++ after)).2 with
      ⟨errors, -, hattempt⟩ | ⟨key, code, -, -, hattempt⟩
    · simp only [hattempt, List.prefix_rfl]
    · simp only [hattempt, List.prefix_append]

theorem map_add_eq_ok_iff {grown : Collection} : (c.add r).map Prod.fst = .ok grown ↔
    (∃ code, (attempt r c).1 = .ok code) ∧ grown = (attempt r c).2 := by
  rw [attempt]
  cases c.add r with
  | error errors => simp [Except.map]
  | ok added => simp [Except.map, eq_comm]

theorem ofRecords_append_singleton (records : List Record) (r : Record) :
    ofRecords (records ++ [r]) = (ofRecords records).bind fun c => (c.add r).map Prod.fst := by
  rw [ofRecords, ofRecords, List.foldlM_append]
  simp only [List.foldlM_cons, List.foldlM_nil, bind_pure]
  rfl

/-- A collection is made of the records if no attempt fails, and it is the one the attempts lead
to. -/
theorem ofRecords_eq_ok_iff {records : List Record} :
    ofRecords records = .ok c ↔
      (∀ result ∈ (attempts records).1, ∃ code, result = .ok code) ∧ c = (attempts records).2 := by
  induction records using List.reverseRecOn generalizing c with
  | nil =>
    refine ⟨fun h => ⟨nofun, (Except.ok.inj h).symm⟩, ?_⟩
    rintro ⟨-, rfl⟩
    rfl
  | append_singleton records r ih =>
    rw [ofRecords_append_singleton, attempts_append_singleton, List.forall_mem_append,
      List.forall_mem_singleton]
    -- a record is only tried where all before it were added
    cases hrecords : ofRecords records with
    | error errors =>
      refine iff_of_false nofun ?_
      rintro ⟨⟨hall, -⟩, -⟩
      have hmade := ih.mpr ⟨hall, rfl⟩
      rw [hrecords] at hmade
      cases hmade
    | ok made =>
      obtain ⟨hall, rfl⟩ := ih.mp hrecords
      exact map_add_eq_ok_iff.trans
        ⟨fun h => ⟨⟨hall, h.1⟩, h.2⟩, fun h => ⟨h.1.2, h.2⟩⟩

/-- For every list of records: each attempt gives a code or fails; the collection holds the codes
that were given, in order, under keys that differ from each other. An attempt that fails leaves the
collection as it was. One that gives a code puts it at the end under the first free key, and it
stays there as it is. -/
theorem attempts_keys (records : List Record) :
    (attempts records).1.length = records.length ∧
      (attempts records).2.values = (attempts records).1.filterMap Except.toOption ∧
      (attempts records).2.keys.Nodup ∧
      (attempts records).2.keys = (attempts records).2.values.map Code.key ∧
      (∀ c, ofRecords records = .ok c ↔
        (∀ result ∈ (attempts records).1, ∃ code, result = .ok code) ∧
          c = (attempts records).2) ∧
      ∀ before r after, records = before ++ r :: after →
        (attempts before).2.codes <+: (attempts records).2.codes ∧
        ((∃ errors, (attempts records).1[before.length]? = some (.error errors) ∧
            (attempts (before ++ [r])).2 = (attempts before).2) ∨
          ∃ key code, (attempts records).1[before.length]? = some (.ok code) ∧
            (attempts before).2.FirstFree r.baseType key ∧ Code.ofRecord key r = .ok code ∧
            (attempts (before ++ [r])).2.codes = (attempts before).2.codes ++ [(key, code)] ∧
            (attempts before).2.codes ++ [(key, code)] <+: (attempts records).2.codes) := by
  have hkept := kept_attempts records
  refine ⟨length_attempts records, hkept.values, hkept.nodup, hkept.keys,
    fun c => ofRecords_eq_ok_iff, ?_⟩
  rintro before r after rfl
  have hresult : (attempts (before ++ r :: after)).1[before.length]? =
      some (attempt r (attempts before).2).1 := by
    have hfront := (attempts_front (before ++ [r]) after).1
    rw [List.append_assoc, List.singleton_append, attempts_append_singleton] at hfront
    rcases hfront with ⟨more, hmore⟩
    rw [← hmore, ← length_attempts before, List.append_assoc, List.getElem?_append_right le_rfl]
    simp
  have hgrown := (attempts_front (before ++ [r]) after).2
  rw [List.append_assoc, List.singleton_append, attempts_append_singleton] at hgrown
  refine ⟨(attempts_front before (r :: after)).2, ?_⟩
  rcases attempt_cases r (attempts before).2 with
    ⟨errors, -, hattempt⟩ | ⟨key, code, hfree, hcode, hattempt⟩
  · refine Or.inl ⟨errors, ?_, ?_⟩
    · rw [hresult, hattempt]
    · rw [attempts_append_singleton, hattempt]
  · rw [hattempt] at hgrown
    refine Or.inr ⟨key, code, ?_, hfree, hcode, ?_, hgrown⟩
    · rw [hresult, hattempt]
    · rw [attempts_append_singleton, hattempt]

/-- A key made with a number is the base type of a later record. -/
example : (attempts ([ "A", "A", "A1", "A"].map fun base => ⟨base, [], ""⟩)).2.keys =
    ["A", "A1", "A11", "A2"] := by
  decide +kernel

end Sheetwright.Collection
