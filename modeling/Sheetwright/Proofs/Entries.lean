import Sheetwright.Entries
import Mathlib.Data.List.Basic
/-!
# Looking up entries

What is put under a key is found under it, and nothing else changes. A key that is not in use yet is
put at the end.
-/

namespace Sheetwright.Entries

variable {α β : Type} [BEq α] [LawfulBEq α] {key other : α} {value : β} {entries : Entries α β}

/-! ## The first entry -/

theorem get?_cons_self (key : α) (value : β) (entries : Entries α β) :
    Entries.get? key ((key, value) :: entries) = some value := by
  rw [get?, List.lookup_cons, beq_self_eq_true]

theorem get?_cons_of_ne (h : key ≠ other) (value : β) (entries : Entries α β) :
    Entries.get? key ((other, value) :: entries) = entries.get? key := by
  rw [get?, List.lookup_cons, beq_eq_false_iff_ne.mpr h]
  rfl

theorem put_cons_self (key : α) (value old : β) (entries : Entries α β) :
    Entries.put key value ((key, old) :: entries) = (key, value) :: entries :=
  if_pos (beq_self_eq_true key)

theorem put_cons_of_ne (h : other ≠ key) (value old : β) (entries : Entries α β) :
    Entries.put key value ((other, old) :: entries) = (other, old) :: entries.put key value :=
  if_neg (mt beq_iff_eq.mp h)

/-! ## Looking up what was put -/

@[simp] theorem get?_put_self (key : α) (value : β) (entries : Entries α β) :
    (entries.put key value).get? key = some value := by
  induction entries with
  | nil => exact get?_cons_self key value []
  | cons entry entries ih =>
    obtain ⟨k, v⟩ := entry
    by_cases hk : k = key
    · rw [hk, put_cons_self, get?_cons_self]
    · rw [put_cons_of_ne hk, get?_cons_of_ne (Ne.symm hk), ih]

theorem get?_put_of_ne (h : other ≠ key) (value : β) (entries : Entries α β) :
    (entries.put key value).get? other = entries.get? other := by
  induction entries with
  | nil => exact get?_cons_of_ne h value []
  | cons entry entries ih =>
    obtain ⟨k, v⟩ := entry
    by_cases hk : k = key
    · rw [hk, put_cons_self, get?_cons_of_ne h, get?_cons_of_ne h]
    · rw [put_cons_of_ne hk]
      -- the first entry answers, or the question goes on to the others
      by_cases hother : other = k
      · rw [hother, get?_cons_self, get?_cons_self]
      · rw [get?_cons_of_ne hother, get?_cons_of_ne hother, ih]

theorem has_eq_false_iff : entries.has key = false ↔ key ∉ entries.keys := by
  induction entries with
  | nil => simp [has, get?, keys]
  | cons entry entries ih =>
    obtain ⟨k, v⟩ := entry
    by_cases hk : key = k
    · simp [has, get?, keys, hk]
    · have hbeq : (key == k) = false := beq_eq_false_iff_ne.mpr hk
      simp only [has, get?, keys, List.map_cons, List.mem_cons, not_or, List.lookup_cons,
        hbeq] at ih ⊢
      simpa [hk] using ih

/-- A new key is put at the end. -/
theorem put_of_not_has (h : entries.has key = false) (value : β) :
    entries.put key value = entries ++ [(key, value)] := by
  induction entries with
  | nil => rfl
  | cons entry entries ih =>
    obtain ⟨k, v⟩ := entry
    rw [has_eq_false_iff, keys, List.map_cons, List.mem_cons, not_or] at h
    rw [put_cons_of_ne (Ne.symm h.1), ih (has_eq_false_iff.mpr h.2), List.cons_append]

/-! ## Keys that occur once -/

theorem forall_mem_put {P : α × β → Prop} (h : ∀ entry ∈ entries, P entry) (hnew : P (key, value)) :
    ∀ entry ∈ entries.put key value, P entry := by
  induction entries with
  | nil => exact List.forall_mem_singleton.mpr hnew
  | cons entry entries ih =>
    obtain ⟨k, v⟩ := entry
    rw [List.forall_mem_cons] at h
    by_cases hk : k = key
    · rw [hk, put_cons_self]
      exact List.forall_mem_cons.mpr ⟨hnew, h.2⟩
    · rw [put_cons_of_ne hk]
      exact List.forall_mem_cons.mpr ⟨h.1, ih h.2⟩

theorem keys_put_of_mem (h : key ∈ entries.keys) (value : β) :
    (entries.put key value).keys = entries.keys := by
  induction entries with
  | nil => cases h
  | cons entry entries ih =>
    obtain ⟨k, v⟩ := entry
    by_cases hk : k = key
    · simp [put, keys, hk]
    · have hmem : key ∈ Entries.keys entries := by simpa [keys, Ne.symm hk] using h
      rw [put_cons_of_ne hk]
      exact congrArg (k :: ·) (ih hmem)

theorem nodup_keys_put (h : entries.keys.Nodup) (key : α) (value : β) :
    (entries.put key value).keys.Nodup := by
  by_cases hkey : key ∈ entries.keys
  · rwa [keys_put_of_mem hkey]
  · rw [put_of_not_has (has_eq_false_iff.mpr hkey), keys, List.map_append, List.map_singleton]
    refine List.nodup_append.mpr ⟨h, List.nodup_cons.mpr ⟨nofun, List.nodup_nil⟩, ?_⟩
    intro k hk other hother heq
    rw [heq, List.mem_singleton.mp hother] at hk
    exact hkey hk

/-- What is found under a key is entered, and if no key occurs twice what is entered is found. -/
theorem mem_of_get? (h : entries.get? key = some value) : (key, value) ∈ entries := by
  induction entries with
  | nil => cases h
  | cons entry entries ih =>
    obtain ⟨k, v⟩ := entry
    rw [get?, List.lookup_cons] at h
    split at h
    next hk =>
      obtain rfl := eq_of_beq hk
      cases h
      exact List.mem_cons_self
    next => exact List.mem_cons_of_mem _ (ih h)

theorem mem_iff_get? (h : entries.keys.Nodup) :
    (key, value) ∈ entries ↔ entries.get? key = some value := by
  refine ⟨fun hmem => ?_, mem_of_get?⟩
  induction entries with
  | nil => cases hmem
  | cons entry entries ih =>
    obtain ⟨k, v⟩ := entry
    rw [keys, List.map_cons, List.nodup_cons] at h
    rcases List.mem_cons.mp hmem with heq | hmem
    · cases heq
      simp [get?]
    · have hk : key ≠ k := fun heq => h.1 (List.mem_map.mpr ⟨(key, value), hmem, heq⟩)
      rw [get?_cons_of_ne hk]
      exact ih h.2 hmem

theorem get?_eq_none_iff : entries.get? key = none ↔ key ∉ entries.keys := by
  rw [← has_eq_false_iff, has, Option.isSome_eq_false_iff, Option.isNone_iff_eq_none]

/-- Entries that are chosen by their keys keep their values. -/
theorem get?_filter (p : α → Bool) (key : α) (entries : Entries α β) :
    Entries.get? key (entries.filter fun entry => p entry.1) =
      if p key then Entries.get? key entries else none := by
  induction entries with
  | nil => simp [get?]
  | cons entry entries ih =>
    obtain ⟨k, v⟩ := entry
    by_cases hk : key = k
    · subst hk
      by_cases hp : p key = true
      · rw [if_pos hp, get?_cons_self, List.filter_cons_of_pos (by simpa using hp), get?_cons_self]
      · simpa [hp] using ih
    · rw [get?_cons_of_ne hk, ← ih, List.filter_cons]
      split
      · exact get?_cons_of_ne hk v _
      · rfl

/-! ## Pairs put one after another -/

theorem nodup_keys_foldl_put (h : entries.keys.Nodup) (pairs : Entries α β) :
    (pairs.foldl (fun entries (key, value) => entries.put key value) entries).keys.Nodup := by
  induction pairs generalizing entries with
  | nil => exact h
  | cons pair pairs ih => exact ih (nodup_keys_put h pair.1 pair.2)

/-- What was put is found in place of what was there, if nothing was put twice. -/
theorem get?_foldl_put {pairs : Entries α β} (h : pairs.keys.Nodup) (key : α)
    (entries : Entries α β) :
    (pairs.foldl (fun entries (key, value) => entries.put key value) entries).get? key =
      (pairs.get? key).or (entries.get? key) := by
  induction pairs generalizing entries with
  | nil => rfl
  | cons pair pairs ih =>
    obtain ⟨k, v⟩ := pair
    rw [keys, List.map_cons, List.nodup_cons] at h
    rw [List.foldl_cons, ih h.2]
    by_cases hk : key = k
    · subst hk
      have hnone : Entries.get? key pairs = none := get?_eq_none_iff.mpr h.1
      rw [hnone, get?_put_self, get?_cons_self]
      rfl
    · rw [get?_put_of_ne hk, get?_cons_of_ne hk]

end Sheetwright.Entries
