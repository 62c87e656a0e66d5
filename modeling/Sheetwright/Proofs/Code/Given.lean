import Sheetwright.Proofs.Code
import Sheetwright.Proofs.Code.Fields
import Sheetwright.Proofs.Text.Integer
/-!
# Groups that are given

A group of slots is given as nothing, as a list of texts or as a map from indices to texts, where an
index is a number or a text that denotes one. The groups fit exactly when a list is not longer than
the slots and every index of a map is one of them, and then each slot holds the item of its place or
the value of the last entry with its index (`slots_of_given`).

One condition is beyond the indices themselves: a text of too many digits is not read at all, so
zeros in front of an index that is one of the slots can make it unreadable (`not_iff_ranged`).
-/

namespace Sheetwright

variable {size : Nat} {i n : Int} {value : String}

/-! ## Looking up slots -/

namespace Slots

variable {s s' : Slots size}

theorem get?_eq_none_iff : s.get? i = none ↔ ¬(1 ≤ i ∧ i ≤ size) := by
  have hlength := s.length_values
  rw [get?]
  split
  · rw [List.getElem?_eq_none_iff]
    omega
  · exact iff_of_true rfl fun h => by omega

theorem get?_blank (hi : 1 ≤ i ∧ i ≤ size) : (blank : Slots size).get? i = some "" := by
  have hlt : i.toNat - 1 < size := by omega
  rw [get?, if_pos hi.1]
  exact List.getElem?_replicate_of_lt hlt

/-- Replacing the value of a slot replaces no other. -/
theorem get?_set (hn : 1 ≤ n ∧ n ≤ size) :
    (s.set n.toNat value).get? i = if i = n then some value else s.get? i := by
  have hlength := s.length_values
  have hpos : n.toNat ≠ 0 := by omega
  rw [get?, get?, set]
  simp only [hpos, if_false, List.getElem?_set]
  split_ifs <;> first | rfl | omega

theorem exists_ofList_iff {items : List String} :
    (∃ s : Slots size, ofList items = .ok s) ↔ items.length ≤ size := by
  rw [ofList]
  split <;> simp_all

theorem get?_ofList {items : List String} (h : ofList items = .ok s) (hi : 1 ≤ i ∧ i ≤ size) :
    s.get? i = some (items.getD (i.toNat - 1) "") := by
  rw [ofList] at h
  split at h
  next hle =>
    cases h
    rw [get?, if_pos hi.1, List.getElem?_append, List.getD_eq_getElem?_getD]
    split
    next hlt => simp [hlt]
    next hlt =>
      rw [List.getElem?_replicate_of_lt (by omega), List.getElem?_eq_none (by omega)]
      rfl
  next => cases h

end Slots

/-! ## Indices -/

/-- An index of a map: a number, or a text that is read as one. -/
inductive Index where
  | number (n : Int)
  | text (s : String)
  deriving DecidableEq

namespace Index

def datum : Index → Datum
  | number n => .int n
  | text s => .text s

/-- The number an index stands for. -/
def Names : Index → Int → Prop
  | number n, i => n = i
  | text s, i => ∃ digits, Text.Denotes s digits i

/-- An index with no more digits than are read. -/
def Short : Index → Prop
  | number _ => True
  | text s => ∀ digits i, Text.Denotes s digits i → digits.length ≤ Text.digitLimit

variable {index : Index}

theorem Names.unique (h : index.Names i) (h' : index.Names n) : i = n := by
  cases index with
  | number m => exact h.symm.trans h'
  | text s =>
    obtain ⟨digits, hdenotes⟩ := h
    obtain ⟨digits', hdenotes'⟩ := h'
    exact (hdenotes.unique hdenotes').2

theorem readIndex_eq_ok_iff :
    Slots.readIndex index.datum = .ok i ↔ index.Names i ∧ index.Short := by
  cases index with
  | number n => simp [datum, Slots.readIndex, Names, Short]
  | text s =>
    have hread : Slots.readIndex (datum (text s)) = .ok i ↔ Text.readInteger s = .ok i := by
      rw [datum, Slots.readIndex]
      cases Text.readInteger s <;> simp [Except.mapError]
    rw [hread, Text.readInteger_eq_ok_iff]
    constructor
    · rintro ⟨digits, hdenotes, hshort⟩
      refine ⟨⟨digits, hdenotes⟩, fun digits' j hdenotes' => ?_⟩
      rwa [← (hdenotes.unique hdenotes').1]
    · rintro ⟨⟨digits, hdenotes⟩, hshort⟩
      exact ⟨digits, hdenotes, hshort digits i hdenotes⟩

end Index

/-! ## Entries of a map -/

def entryDatum (entry : Index × String) : Datum × Datum := (entry.1.datum, .text entry.2)

/-- An index that is read as one of the slots. -/
def Index.Lies (index : Index) (size : Nat) : Prop :=
  ∃ i : Int, index.Names i ∧ 1 ≤ i ∧ i ≤ size

/-- The value of the last of the entries with an index. -/
def Latest (entries : List (Index × String)) (i : Int) (value : String) : Prop :=
  ∃ before index after, entries = before ++ (index, value) :: after ∧ index.Names i ∧
    ∀ later ∈ after, ¬later.1.Names i

theorem Latest.cons {entries : List (Index × String)} (entry : Index × String)
    (h : Latest entries i value) : Latest (entry :: entries) i value := by
  obtain ⟨before, index, after, rfl, hnames, hafter⟩ := h
  exact ⟨entry :: before, index, after, rfl, hnames, hafter⟩

namespace Slots

variable {s s' : Slots size} {entry : Index × String} {entries : List (Index × String)}

/-- One entry is read: its index is one of the slots, and its value is put there. -/
theorem readEntries_cons_iff {rest : List (Datum × Datum)} :
    readEntries s (entryDatum entry :: rest) = .ok s' ↔
      ∃ n, (entry.1.Names n ∧ entry.1.Short) ∧ (1 ≤ n ∧ n ≤ size) ∧
        readEntries (s.set n.toNat entry.2) rest = .ok s' := by
  rw [entryDatum, readEntries]
  cases hread : readIndex entry.1.datum with
  | error fault =>
    refine iff_of_false nofun ?_
    rintro ⟨n, hn, -⟩
    rw [← Index.readIndex_eq_ok_iff, hread] at hn
    cases hn
  | ok n =>
    have hn := Index.readIndex_eq_ok_iff.mp hread
    change ((s.assign n entry.2).mapError Sum.inr >>= fun s => readEntries s rest) = .ok s' ↔ _
    rw [assign]
    by_cases hin : 1 ≤ n ∧ n ≤ size
    · rw [if_pos hin]
      -- an index names one number at most, so the number that was read is the one meant
      refine ⟨fun h => ⟨n, hn, hin, h⟩, ?_⟩
      rintro ⟨m, hm, -, h⟩
      rwa [hm.1.unique hn.1] at h
    · rw [if_neg hin]
      refine iff_of_false nofun ?_
      rintro ⟨m, hm, hm', -⟩
      rw [hm.1.unique hn.1] at hm'
      exact hin hm'

theorem exists_readEntries_iff (s : Slots size) :
    (∃ s', readEntries s (entries.map entryDatum) = .ok s') ↔
      ∀ entry ∈ entries, entry.1.Lies size ∧ entry.1.Short := by
  induction entries generalizing s with
  | nil => simp [readEntries]
  | cons entry entries ih =>
    rw [List.map_cons, List.forall_mem_cons]
    simp only [readEntries_cons_iff]
    constructor
    · rintro ⟨s', n, ⟨hnames, hshort⟩, hin, hrest⟩
      exact ⟨⟨⟨n, hnames, hin⟩, hshort⟩, (ih _).mp ⟨s', hrest⟩⟩
    · rintro ⟨⟨⟨n, hnames, hin⟩, hshort⟩, hrest⟩
      obtain ⟨s', hs'⟩ := (ih (s.set n.toNat entry.2)).mpr hrest
      exact ⟨s', n, ⟨hnames, hshort⟩, hin, hs'⟩

/-- A slot holds the value of the last entry with its index, or what it held before. -/
theorem get?_readEntries (h : readEntries s (entries.map entryDatum) = .ok s') :
    (∃ value, s'.get? i = some value ∧ Latest entries i value) ∨
      s'.get? i = s.get? i ∧ ∀ entry ∈ entries, ¬entry.1.Names i := by
  induction entries generalizing s with
  | nil =>
    cases h
    exact .inr ⟨rfl, nofun⟩
  | cons entry entries ih =>
    obtain ⟨n, ⟨hnames, -⟩, hin, hrest⟩ := readEntries_cons_iff.mp h
    rcases ih hrest with ⟨value, hvalue, hlatest⟩ | ⟨hvalue, hnone⟩
    · exact .inl ⟨value, hvalue, hlatest.cons entry⟩
    · rw [get?_set hin] at hvalue
      by_cases hi : i = n
      · rw [if_pos hi] at hvalue
        exact .inl ⟨entry.2, hvalue, [], entry.1, entries, rfl, hi ▸ hnames, hnone⟩
      · rw [if_neg hi] at hvalue
        exact .inr ⟨hvalue, List.forall_mem_cons.mpr
          ⟨fun hother => hi (hother.unique hnames), hnone⟩⟩

end Slots

/-! ## Groups -/

/-- What is given as a group. -/
inductive Given where
  | absent
  | null
  | list (items : List String)
  | map (entries : List (Index × String))

namespace Given

def datum? : Given → Option Datum
  | absent => none
  | null => some .null
  | list items => some (.list (items.map .text))
  | map entries => some (.map (entries.map entryDatum))

/-- No list is longer than the slots, and no index is none of them. -/
def Ranged (size : Nat) : Given → Prop
  | list items => items.length ≤ size
  | map entries => ∀ entry ∈ entries, entry.1.Lies size
  | _ => True

/-- No index has more digits than are read. -/
def Short : Given → Prop
  | map entries => ∀ entry ∈ entries, entry.1.Short
  | _ => True

/-- The value that is given for an index, empty when there is none. -/
def Gives : Given → Int → String → Prop
  | list items, i, value => value = items.getD (i.toNat - 1) ""
  | map entries, i, value =>
    Latest entries i value ∨ value = "" ∧ ∀ entry ∈ entries, ¬entry.1.Names i
  | _, _, value => value = ""

end Given

/-- Slots that hold what is given. -/
structure Slots.Holds (s : Slots size) (given : Given) : Prop where
  length : s.values.length = size
  inside : ∀ i : Int, 1 ≤ i ∧ i ≤ size → ∃ value, s.get? i = some value ∧ given.Gives i value
  outside : ∀ i : Int, s.get? i = none ↔ ¬(1 ≤ i ∧ i ≤ size)

namespace Code

variable {given : Given}

theorem fits_list_iff {items : List String} {s : Slots size} :
    Fits (Given.list items).datum? s ↔ Slots.ofList items = .ok s := by
  have hitems : (items.map Datum.text).map Slots.valueText = items := by
    rw [List.map_map]
    exact List.map_id _
  rw [Given.datum?, Fits, Slots.ofDatum, hitems]
  cases (Slots.ofList items : Except Slots.Refusal (Slots size)) <;> simp [Except.mapError]

theorem exists_fits_iff :
    (∃ s : Slots size, Fits given.datum? s) ↔ given.Ranged size ∧ given.Short := by
  cases given with
  | absent => exact iff_of_true ⟨_, rfl⟩ ⟨trivial, trivial⟩
  | null => exact iff_of_true ⟨_, rfl⟩ ⟨trivial, trivial⟩
  | list items =>
    simp only [fits_list_iff, Slots.exists_ofList_iff]
    exact (and_iff_left trivial).symm
  | map entries => exact (Slots.exists_readEntries_iff _).trans forall₂_and

theorem holds_of_fits {s : Slots size} (h : Fits given.datum? s) : s.Holds given := by
  refine ⟨s.length_values, fun i hi => ?_, fun i => Slots.get?_eq_none_iff⟩
  cases given with
  | absent =>
    cases h
    exact ⟨"", Slots.get?_blank hi, rfl⟩
  | null =>
    cases h
    exact ⟨"", Slots.get?_blank hi, rfl⟩
  | list items => exact ⟨_, Slots.get?_ofList (fits_list_iff.mp h) hi, rfl⟩
  | map entries =>
    rcases Slots.get?_readEntries h (i := i) with ⟨value, hvalue, hlatest⟩ | ⟨hvalue, hnone⟩
    · exact ⟨value, hvalue, .inl hlatest⟩
    · exact ⟨"", hvalue.trans (Slots.get?_blank hi), .inr ⟨rfl, hnone⟩⟩

/-- A code is made from arguments exactly when it is made from them without their groups, every list
is short enough, every index is one of the slots, and none has too many digits. Then the slots of
every group hold what is given for it. -/
theorem slots_of_given {a : Entries String Datum} {given : Group → Given}
    (hgiven : ∀ g, a.get? g.field = (given g).datum?) :
    ((∃ c, ofArguments a = .ok c) ↔
      (∃ c, ofArguments (withoutGroups a) = .ok c) ∧
        ∀ g, (given g).Ranged g.size ∧ (given g).Short) ∧
    ∀ c, ofArguments a = .ok c → ∀ g, (c.slots g).Holds (given g) := by
  refine ⟨?_, fun c hc g => holds_of_fits ?_⟩
  · rw [exists_ofArguments_iff]
    simp only [hgiven, exists_fits_iff]
  · rw [← hgiven]
    exact (ofArguments_eq_ok_iff.mp hc).slots g

/-- One slot given under two spellings, a list that is shorter than the slots, and no values. -/
theorem slots_of_given_spelled :
    let labels := [(Index.text "\t+0_1 ", "first"), (.number 9, "last"), (.number 1, "again")]
    let given : Group → Given
      | .label => .map labels
      | .fincode => .absent
      | .driver => .null
      | .row => .list ["Revenue|x"]
    let a : Entries String Datum :=
      [("labels", .map (labels.map entryDatum)), ("key", .text "K"), ("drivers", .null),
       ("base_type", .text "T"), ("rows", .list [.text "Revenue|x"])]
    (∀ g, a.get? g.field = (given g).datum?) ∧
      (∀ g, (given g).Ranged g.size ∧ (given g).Short) ∧
      ∃ c, ofArguments a = .ok c ∧ (∀ g, (c.slots g).Holds (given g)) ∧
        c.labels.values = ["again", "", "", "", "", "", "", "", "last"] := by
  intro labels given a
  have hgiven : ∀ g, a.get? g.field = (given g).datum? := by
    intro g
    cases g <;> rfl
  obtain ⟨c, hc⟩ : ∃ c, ofArguments a = .ok c := ⟨_, rfl⟩
  have hlabels : (ofArguments a).map (fun c => c.labels.values) =
      .ok ["again", "", "", "", "", "", "", "", "last"] := by
    decide +kernel
  rw [hc] at hlabels
  obtain ⟨hiff, hholds⟩ := slots_of_given hgiven
  exact ⟨hgiven, (hiff.mp ⟨c, hc⟩).2, c, hc, hholds c hc, Except.ok.inj hlabels⟩

/-- That the indices are among the slots is not enough: with zeros in front, an index that is one of
them can have more digits than are read. -/
theorem not_iff_ranged :
    ¬∀ (a : Entries String Datum) (given : Group → Given),
      (∀ g, a.get? g.field = (given g).datum?) →
      ((∃ c, ofArguments a = .ok c) ↔
        (∃ c, ofArguments (withoutGroups a) = .ok c) ∧ ∀ g, (given g).Ranged g.size) := by
  intro hall
  let digits := List.replicate Text.digitLimit '0' ++ ['1']
  let labels := [(Index.text (String.ofList digits), "x")]
  let given : Group → Given
    | .label => .map labels
    | _ => .absent
  let a : Entries String Datum :=
    [("key", .text "K"), ("base_type", .text "T"), ("labels", .map (labels.map entryDatum))]
  have hdenotes : Text.Denotes (String.ofList digits) digits 1 :=
    Text.denotes_zeros Text.digitLimit (List.cons_ne_nil _ _)
      (List.forall_mem_singleton.mpr (by decide))
  have hgiven : ∀ g, a.get? g.field = (given g).datum? := by
    intro g
    cases g <;> rfl
  have hranged : ∀ g, (given g).Ranged g.size := by
    intro g
    cases g with
    | label => exact List.forall_mem_singleton.mpr ⟨1, ⟨digits, hdenotes⟩, by decide⟩
    | _ => trivial
  obtain ⟨c, hc⟩ := (hall a given hgiven).mpr ⟨⟨_, rfl⟩, hranged⟩
  have hfits := (ofArguments_eq_ok_iff.mp hc).slots .label
  rw [hgiven] at hfits
  have hshort := (exists_fits_iff.mp ⟨_, hfits⟩).2 _ List.mem_cons_self digits 1 hdenotes
  have hlong : digits.length = Text.digitLimit + 1 := by
    simp [digits]
  omega

end Code

end Sheetwright
