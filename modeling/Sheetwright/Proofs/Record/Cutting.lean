import Sheetwright.Proofs.Record.Kept
import Sheetwright.Proofs.Record.Spans
/-!
# Texts cut at their records

A text is cut into its records, the gaps in front of them and a rest: no gap opens a bracket, a
record is closed by the first closing bracket in it, and the first bracket that the rest opens is
never closed. There is one such cutting of every text, and its records are what is found
(`existsUnique_cutting`). So the records say where they begin and end by themselves: with other gaps
around them, and without those that were dropped, the same ones are read (`readAll_among`).
-/

namespace Sheetwright.Record

open Text

/-! ## Cuttings -/

/-- The records of a text, each behind the gap in front of it, and what follows the last one. -/
structure Cutting where
  found : List (List Char × List Char)
  rest : List Char
  deriving DecidableEq

namespace Cutting

def records (c : Cutting) : List (List Char) := c.found.map Prod.snd

/-- The text that was cut. -/
def text (c : Cutting) : List Char :=
  (c.found.flatMap fun (gap, record) => gap ++ record) ++ c.rest

/-- The cutting with one more record in front. -/
def push (gap record : List Char) (c : Cutting) : Cutting := ⟨(gap, record) :: c.found, c.rest⟩

theorem text_push (gap record : List Char) (c : Cutting) :
    (c.push gap record).text = gap ++ (record ++ c.text) := by
  simp [push, text]

/-- A pair of brackets with no closing bracket between them. -/
def Bracketed (record : List Char) : Prop := ∃ body, '>' ∉ body ∧ record = '<' :: body ++ ['>']

/-- The first bracket that is opened, if any, is not closed. -/
def Open (rest : List Char) : Prop :=
  ∀ gap body, '<' ∉ gap → rest = gap ++ '<' :: body → '>' ∉ body

/-- The cutting is made at the records of the text. -/
structure Of (text : List Char) (c : Cutting) : Prop where
  text_eq : c.text = text
  gap : ∀ part ∈ c.found, '<' ∉ part.1
  record : ∀ part ∈ c.found, Bracketed part.2
  rest : Open c.rest

/-! ## One cutting of every text -/

variable {c : Cutting} {gap body rest text : List Char}

theorem open_of_not_mem (h : '<' ∉ text) : Open text := by
  rintro gap body - rfl
  simp at h

/-- The first opening bracket of a text is the only one with none in front of it. -/
theorem open_append (hgap : '<' ∉ gap) (hbody : '>' ∉ body) : Open (gap ++ '<' :: body) := by
  intro other more hother heq
  obtain ⟨rfl, rfl⟩ := append_cons_inj hgap hother heq
  exact hbody

/-- The first record of a cutting, and the cutting of what is left. -/
theorem Of.first {record : List Char} (h : (c.push gap record).Of text) :
    '<' ∉ gap ∧ c.Of c.text ∧ ∃ body, '>' ∉ body ∧ record = '<' :: body ++ ['>'] ∧
      text = gap ++ '<' :: (body ++ '>' :: c.text) := by
  have hgaps := List.forall_mem_cons.mp h.gap
  have hrecords := List.forall_mem_cons.mp h.record
  obtain ⟨body, hbody, rfl⟩ := hrecords.1
  refine ⟨hgaps.1, ⟨rfl, hgaps.2, hrecords.2, h.rest⟩, body, hbody, rfl, ?_⟩
  rw [← h.text_eq, text_push]
  simp

/-- A text whose first bracket is not closed has no records. -/
theorem Of.eq_of_open (h : c.Of text) (hopen : Open text) : c = ⟨[], text⟩ := by
  rcases c with ⟨_ | ⟨⟨gap, record⟩, found⟩, rest⟩
  · rw [← h.text_eq]
    rfl
  · rcases Of.first (c := ⟨found, rest⟩) h with ⟨hgap, -, body, -, -, htext⟩
    have hclosed := hopen gap _ hgap htext
    simp at hclosed

/-- A cutting of a text begins with the first record of the text. -/
theorem Of.eq_push (h : c.Of (gap ++ '<' :: (body ++ '>' :: rest))) (hgap : '<' ∉ gap)
    (hbody : '>' ∉ body) :
    ∃ more : Cutting, more.Of rest ∧ c = more.push gap ('<' :: body ++ ['>']) := by
  rcases c with ⟨_ | ⟨⟨other, record⟩, found⟩, last⟩
  · have hopen := h.rest gap (body ++ '>' :: rest) hgap h.text_eq
    simp at hopen
  · rcases Of.first (c := ⟨found, last⟩) h with ⟨hother, hmore, inner, hinner, rfl, htext⟩
    obtain ⟨rfl, hback⟩ := append_cons_inj hgap hother htext
    obtain ⟨rfl, rfl⟩ := append_cons_inj hbody hinner hback
    exact ⟨⟨found, last⟩, hmore, rfl⟩

theorem Of.push (h : c.Of rest) (hgap : '<' ∉ gap) (hbody : '>' ∉ body) :
    (c.push gap ('<' :: body ++ ['>'])).Of (gap ++ '<' :: (body ++ '>' :: rest)) where
  text_eq := by
    rw [text_push, h.text_eq]
    simp
  gap := List.forall_mem_cons.mpr ⟨hgap, h.gap⟩
  record := List.forall_mem_cons.mpr ⟨⟨body, hbody, rfl⟩, h.record⟩
  rest := h.rest

theorem of_open (hopen : Open text) : Of text ⟨[], text⟩ :=
  ⟨rfl, List.forall_mem_nil _, List.forall_mem_nil _, hopen⟩

end Cutting

open Cutting

/-- A text has one cutting, and its records are the spans of the text. To run the spans together, to
cut them again and to leave out the blank pieces loses, merges and moves none of them. -/
theorem existsUnique_cutting (text : List Char) :
    ∃ c : Cutting, c.Of text ∧ (∀ other : Cutting, other.Of text → other = c) ∧
      spans text = c.records ∧ recut (spans text) = spans text ∧ texts text = c.records := by
  have hrecut : recut (spans text) = spans text := texts_eq_spans text
  suffices h : ∃ c : Cutting, c.Of text ∧ (∀ other : Cutting, other.Of text → other = c) ∧
      spans text = c.records by
    rcases h with ⟨c, hof, hunique, hspans⟩
    exact ⟨c, hof, hunique, hspans, hrecut, hrecut.trans hspans⟩
  clear hrecut
  induction text using span_induction with
  | none text hnone =>
    have hopen := open_of_not_mem hnone
    exact ⟨⟨[], text⟩, of_open hopen, fun other hother => hother.eq_of_open hopen,
      spans_of_not_mem hnone⟩
  | unterminated gap body hgap hbody =>
    have hopen := open_append hgap hbody
    exact ⟨⟨[], gap ++ '<' :: body⟩, of_open hopen, fun other hother => hother.eq_of_open hopen,
      spans_unterminated hgap hbody⟩
  | span gap body rest hgap hbody _ ih =>
    rcases ih with ⟨c, hof, hunique, hspans⟩
    refine ⟨c.push gap ('<' :: body ++ ['>']), hof.push hgap hbody, fun other hother => ?_, ?_⟩
    · rcases hother.eq_push hgap hbody with ⟨more, hmore, rfl⟩
      rw [hunique more hmore]
    · rw [spans_append hgap hbody, hspans]
      rfl

/-! ## Other gaps -/

/-- Record texts, each with a gap behind it. -/
def spaced (records gaps : List (List Char)) : List Char :=
  (List.zipWith (· ++ ·) records gaps).flatten

theorem spaced_replicate (records : List (List Char)) :
    spaced records (List.replicate records.length []) = records.flatten := by
  induction records with
  | nil => rfl
  | cons record records ih =>
    rw [spaced, List.length_cons, List.replicate_succ, List.zipWith_cons_cons, List.flatten_cons,
      List.append_nil, ← spaced, ih, List.flatten_cons]

/-- The records are found wherever they stand. -/
theorem texts_spaced {records gaps : List (List Char)} (hrecords : ∀ r ∈ records, Bracketed r)
    (hgaps : ∀ gap ∈ gaps, '<' ∉ gap) (hlength : gaps.length = records.length) :
    texts (spaced records gaps) = records := by
  induction records generalizing gaps with
  | nil => exact texts_of_not_mem List.not_mem_nil
  | cons record records ih =>
    obtain ⟨gap, gaps, rfl⟩ := List.exists_cons_of_length_eq_add_one hlength
    rw [List.forall_mem_cons] at hrecords hgaps
    obtain ⟨body, hbody, rfl⟩ := hrecords.1
    have hspaced : spaced (('<' :: body ++ ['>']) :: records) (gap :: gaps) =
        [] ++ '<' :: (body ++ '>' :: (gap ++ spaced records gaps)) := by
      simp [spaced]
    rw [hspaced, texts_append List.not_mem_nil hbody, texts_skip hgaps.1,
      ih hrecords.2 hgaps.2 (Nat.succ.inj hlength)]

/-- A record that was read is read again from its own text. -/
theorem read_rawText {r : Record} (hrecord : Bracketed record) (hread : read record = .ok r) :
    r.rawText.toList = record := by
  rcases read_eq_ok hread with ⟨found, -, -, rfl⟩
  obtain ⟨body, -, rfl⟩ := hrecord
  rw [assemble, String.toList_ofList, trim_bounded rfl rfl]

/-- The records of a text are read again from their texts, whatever else stands around these as long
as it opens no bracket, and also if nothing does. -/
theorem readAll_among {text : List Char} {records : List Record} (h : readAll text = .ok records) :
    (∀ lead gaps, '<' ∉ lead → (∀ gap ∈ gaps, '<' ∉ gap) → gaps.length = records.length →
      readAll (lead ++ spaced (records.map fun r => r.rawText.toList) gaps) = .ok records) ∧
    readAll (records.flatMap fun r => r.rawText.toList) = .ok records := by
  have hown : ∀ r ∈ records, Bracketed r.rawText.toList ∧ read r.rawText.toList = .ok r := by
    intro r hr
    rcases exists_text h hr with ⟨-, record, hrecord, hread⟩
    rw [read_rawText (mem_texts hrecord) hread]
    exact ⟨mem_texts hrecord, hread⟩
  have hbracketed : ∀ record ∈ records.map fun r => r.rawText.toList, Bracketed record :=
    List.forall_mem_map.mpr fun r hr => (hown r hr).1
  have hfound : ∀ {found}, texts found = (records.map fun r => r.rawText.toList) →
      readAll found = .ok records := by
    intro found htexts
    refine readAll_eq_ok.mpr ⟨records, ?_, ?_⟩
    · rw [htexts, List.forall₂_map_left_iff, List.forall₂_same]
      exact fun r hr => (hown r hr).2
    · -- none of them is without a base type
      refine (List.filter_eq_self.mpr fun r hr => ?_).symm
      exact hasBaseType_iff.mpr (exists_text h hr).1
  refine ⟨fun lead gaps hlead hgaps hlength => hfound ?_, hfound ?_⟩
  · rw [texts_skip hlead, texts_spaced hbracketed hgaps (by rw [hlength, List.length_map])]
  · have hnone := spaced_replicate (records.map fun r => r.rawText.toList)
    have hgaps : ∀ gap ∈ List.replicate (records.map fun r => r.rawText.toList).length
        ([] : List Char), '<' ∉ gap := by simp
    rw [List.flatMap_def, ← hnone, texts_spaced hbracketed hgaps List.length_replicate]

/-- A record without a base type and an opening bracket are left out, and the brackets and quotes
that close other things come in. -/
theorem readAll_among_quoted :
    let text :=
      "\"> <A<B; label1=\"x<y\"> junk > <> <BR; Delete; row201=\"q\"> < ; row1=\"z\"> <".toList
    let lead := "'\">".toList
    let gaps := [",\n; row1=\"".toList, "Delete>>".toList]
    ∃ records, readAll text = .ok records ∧ '<' ∉ lead ∧ (∀ gap ∈ gaps, '<' ∉ gap) ∧
      gaps.length = records.length ∧
      readAll (lead ++ spaced (records.map fun r => r.rawText.toList) gaps) = .ok records ∧
      records.map (fun r => (r.baseType, r.attributes.keys, r.rawText)) =
        [("A<B", ["label1"], "<A<B; label1=\"x<y\">"),
         ("BR", ["delete"], "<BR; Delete; row201=\"q\">")] := by
  intro text lead gaps
  have hread : (readAll text).map
      (List.map fun r => (r.baseType, r.attributes.keys, r.rawText)) =
        .ok [("A<B", ["label1"], "<A<B; label1=\"x<y\">"),
          ("BR", ["delete"], "<BR; Delete; row201=\"q\">")] := by
    decide +kernel
  cases hrecords : readAll text with
  | error fault =>
    rw [hrecords] at hread
    cases hread
  | ok records =>
    rw [hrecords] at hread
    have hmap := Except.ok.inj hread
    have hlead : '<' ∉ lead := by decide
    have hgaps : ∀ gap ∈ gaps, '<' ∉ gap := by decide
    have hlength : gaps.length = records.length := by
      have hcount := congrArg List.length hmap
      rw [List.length_map] at hcount
      rw [hcount]
      rfl
    exact ⟨records, rfl, hlead, hgaps, hlength,
      (readAll_among hrecords).1 lead gaps hlead hgaps hlength, hmap⟩

end Sheetwright.Record
