import Sheetwright.Proofs.Collection
import Sheetwright.Proofs.Run.Parts
import Sheetwright.Proofs.Validation.Agreement
import Sheetwright.Proofs.Validation.Examined
import Sheetwright.Proofs.Validation.Passed
/-!
# Labels of a validated run

A passed validation saw no label twice. The tabs of the collection have no label twice either, if
every tab is plainly labelled (`PlainlyLabelled`): its label is found where it is kept, written once
and without blanks around it. Validation compares labels as they are written and a run takes them
without the blanks, so the last condition cannot be left out.
-/

namespace Sheetwright

open Text

/-! ## Labels -/

/-- The first label of a code without the blanks around it. -/
def Code.tabLabel (c : Code) : String := trimmed ((c.labels.get? 1).getD "")

theorem Run.tabName_of_label {layout : Layout} {index : Nat} {c : Code} (h : c.tabLabel ≠ "") :
    tabName layout index c = c.tabLabel := by
  have hfilled : c.tabLabel.isEmpty = false := by simpa using h
  rw [Code.tabLabel] at hfilled
  rw [tabName, hfilled, if_neg Bool.false_ne_true, Code.tabLabel]

theorem Run.tabName_of_no_label {layout : Layout} {index : Nat} {c : Code} (h : c.tabLabel = "") :
    tabName layout index c = layout.tabPrefix ++ toString index := by
  rw [Code.tabLabel] at h
  rw [tabName, h]
  rfl

/-- A record of a tab has a label that is not blank. -/
def Record.HasLabel (r : Record) (label : String) : Prop :=
  r.baseType = Validation.tabType ∧ label ≠ "" ∧
    ∃ value, r.attributes.get? (AttributeName.slot .label 1).text = some (.text value) ∧
      trimmed value = label

theorem Code.hasLabel_of_ofRecord {record : List Char} {r : Record} {key : String} {c : Code}
    (hread : Record.read record = .ok r) (hcode : ofRecord key r = .ok c) (htab : Run.IsTab c)
    (hlabel : c.tabLabel ≠ "") : r.HasLabel c.tabLabel := by
  refine ⟨(fields_of_ofRecord hcode).1.symm.trans htab, hlabel, ?_⟩
  rw [tabLabel] at hlabel ⊢
  cases hget : c.labels.get? 1 with
  | none =>
    rw [hget] at hlabel
    exact absurd rfl hlabel
  | some value =>
    rw [hget, Option.getD_some] at hlabel
    have hne : value ≠ "" := by
      rintro rfl
      exact hlabel rfl
    rcases exists_of_get?_slots (g := .label) (i := 1) hcode (by decide) hget hne with
      ⟨datum, hdatum, hplain⟩
    rcases Record.exists_of_kept hread hdatum with ⟨_, _, _, _, kept, -, -, rfl⟩
    exact ⟨String.ofList kept, hdatum, congrArg trimmed hplain⟩

namespace Validation

open Record

variable {reference : Reference} {text record : List Char} {r : Record} {label : String}

/-! ## Labels that were seen -/

/-- No two records in turn have the same label, and none has a label that was seen before. -/
theorem pairwise_labelOf? {seen records : List (List Char)}
    (h : recordFindings reference seen records = []) :
    records.Pairwise (fun a b => ∀ l, labelOf? a = some l → labelOf? b ≠ some l) ∧
      ∀ record ∈ records, ∀ l, labelOf? record = some l → l ∉ seen := by
  induction records generalizing seen with
  | nil => exact ⟨List.Pairwise.nil, nofun⟩
  | cons record records ih =>
    rw [recordFindings] at h
    simp only [List.append_eq_nil_iff] at h
    obtain ⟨⟨⟨-, hlabel⟩, -⟩, hrest⟩ := h
    rcases ih hrest with ⟨hpairwise, hunseen⟩
    refine ⟨List.pairwise_cons.mpr ⟨fun other hother l hl hl' => ?_, hpairwise⟩, ?_⟩
    · exact hunseen other hother l hl' (by simp [hl])
    · intro other hother l hl hseen
      rcases List.mem_cons.mp hother with rfl | hother
      · -- the label of the record itself was looked up among those before it
        rw [labelOf?] at hl
        split at hl
        next htype =>
          rw [labelFindings, if_pos htype, hl] at hlabel
          simp [hseen] at hlabel
        next => cases hl
      · exact hunseen other hother l hl (List.mem_append_left _ hseen)

/-! ## Labels that are kept -/

/-- The label of a tab is found where it is kept, written once and without blanks around it. -/
structure PlainlyLabelled (record : List Char) : Prop where
  legible : labelPattern.Legible record
  one : OneLabel record
  trimmed : ∀ label ∈ labelValues record, trim label = label

instance (record : List Char) : Decidable (PlainlyLabelled record) :=
  decidable_of_iff (labelPattern.Legible record ∧ OneLabel record ∧
      ∀ label ∈ labelValues record, trim label = label)
    ⟨fun h => ⟨h.1, h.2.1, h.2.2⟩, fun h => ⟨h.legible, h.one, h.trimmed⟩⟩

/-- Validation checks a legible tab by the label that its code has, blanks around it included. -/
theorem exists_labelOf?_of_hasLabel (hrecord : record ∈ texts text) (hseamless : Seamless record)
    (hlabelled : codeType (cleaned record) = tabType →
      labelPattern.Legible (cleaned record) ∧ OneLabel (cleaned record))
    (hread : Record.read record = .ok r) (h : r.HasLabel label) :
    codeType (cleaned record) = tabType ∧ ∃ found ∈ labelValues (cleaned record),
      labelOf? (cleaned record) = some found ∧ Text.reflow label.toList = trim found := by
  obtain ⟨hbase, -, value, hvalue, rfl⟩ := h
  have hkept := get?_reflow r (AttributeName.slot .label 1).text
  rcases exists_read_cleaned hrecord hseamless hread with ⟨body, hclose, hbody, hclean⟩
  rw [hvalue, Option.map_some] at hkept
  rw [hbody] at hlabelled ⊢
  have htype : codeType ('<' :: body ++ ['>']) = tabType := by
    rw [codeType_eq hclose hclean, Record.reflow, hbase]
    rfl
  rcases tabLabel?_of_kept (hlabelled htype).1 (hlabelled htype).2 hclean hkept with
    ⟨found, hmem, hfound, htab⟩
  obtain ⟨s, hs, hlist⟩ := Datum.exists_of_reflow hfound
  cases hs
  refine ⟨htype, found, hmem, ?_, ?_⟩
  · rw [labelOf?, if_pos htype, htab]
  · rw [Text.trimmed, String.toList_ofList, ← trim_reflow, hlist]

/-- Validation checks a plainly labelled tab by the label of its code, read on one line. -/
theorem labelOf?_of_hasLabel (hrecord : record ∈ texts text) (hseamless : Seamless record)
    (hplain : codeType (cleaned record) = tabType → PlainlyLabelled (cleaned record))
    (hread : Record.read record = .ok r) (h : r.HasLabel label) :
    codeType (cleaned record) = tabType ∧
      labelOf? (cleaned record) = some (Text.reflow label.toList) ∧
      Text.reflow label.toList ∈ labelValues (cleaned record) := by
  rcases exists_labelOf?_of_hasLabel hrecord hseamless
    (fun htype => ⟨(hplain htype).legible, (hplain htype).one⟩) hread h with
    ⟨htype, found, hmem, hfound, hlabel⟩
  -- without blanks around it, the label that is checked is the one that a run uses
  rw [hlabel, (hplain htype).trimmed found hmem]
  exact ⟨htype, hfound, hmem⟩

/-- A tab is neither an empty pair of brackets nor a bare break, so it is checked. -/
theorem ne_of_codeType (h : codeType (cleaned record) = tabType) :
    record ≠ ['<', '>'] ∧ cleaned record ≠ breakRecord := by
  have hother : codeType (cleaned ['<', '>']) ≠ tabType ∧ codeType breakRecord ≠ tabType := by
    decide +kernel
  constructor
  · rintro rfl
    exact hother.1 h
  · intro hbreak
    rw [hbreak] at h
    exact hother.2 h

/-! ## Labels of the collection -/

theorem pairwise_of_forall₂ {α β : Type} {R : α → α → Prop} {R' : β → β → Prop}
    {S : α → β → Prop} {items : List α} {values : List β} (h : List.Forall₂ S items values)
    (hitems : items.Pairwise R)
    (hstep : ∀ a ∈ items, ∀ b ∈ items, ∀ x y, S a x → S b y → R a b → R' x y) :
    values.Pairwise R' := by
  induction h with
  | nil => exact List.Pairwise.nil
  | @cons a x items values hax hrest ih =>
    rw [List.pairwise_cons] at hitems
    refine List.pairwise_cons.mpr ⟨fun y hy => ?_, ih hitems.2 fun b hb c hc =>
      hstep b (List.mem_cons_of_mem a hb) c (List.mem_cons_of_mem a hc)⟩
    rcases exists_of_mem_left hrest.flip hy with ⟨b, hb, hby⟩
    exact hstep a List.mem_cons_self b (List.mem_cons_of_mem a hb) x y hax hby (hitems.1 b hb)

/-- The label of a tab in the collection is one that some record of the text has. -/
theorem exists_hasLabel {collection : Collection}
    (hcollection : Collection.ofText text = .ok collection) {c : Code}
    (hc : c ∈ collection.values) (htab : Run.IsTab c) (hlabel : c.tabLabel ≠ "") :
    ∃ record ∈ texts text, ∃ r, Record.read record = .ok r ∧ r.HasLabel c.tabLabel := by
  rcases Collection.forall₂_of_ofText hcollection with ⟨records, hreadAll, hcodes⟩
  rcases exists_of_mem_left hcodes.flip hc with ⟨r, hr, key, hcode⟩
  rcases exists_text hreadAll hr with ⟨-, record, hrecord, hread⟩
  exact ⟨record, hrecord, r, hread, Code.hasLabel_of_ofRecord hread hcode htab hlabel⟩

section

variable {collection : Collection} (hcollection : Collection.ofText text = .ok collection)
  (hseamless : ∀ record ∈ texts text, Seamless record)
  (hplain : ∀ record ∈ recordsOfText text, codeType record = tabType → PlainlyLabelled record)

include hseamless hplain

theorem labelOf?_of_mem_texts (hrecord : record ∈ texts text) (hread : Record.read record = .ok r)
    (h : r.HasLabel label) :
    codeType (cleaned record) = tabType ∧
      labelOf? (cleaned record) = some (Text.reflow label.toList) ∧
      Text.reflow label.toList ∈ labelValues (cleaned record) := by
  refine labelOf?_of_hasLabel hrecord (hseamless record hrecord) (fun htype => ?_) hread h
  have hmem := mem_recordsOfText.mpr ⟨record, hrecord, (ne_of_codeType htype).1, rfl⟩
  exact hplain _ hmem htype

include hcollection

/-- The tabs of a validated run have different labels, as far as they have any. -/
theorem pairwise_tabLabel (hpassed : (runText reference text).passed = true) :
    collection.values.Pairwise fun c d => Run.IsTab c → Run.IsTab d → c.tabLabel ≠ "" →
      c.tabLabel ≠ d.tabLabel := by
  rcases Collection.forall₂_of_ofText hcollection with ⟨records, hreadAll, hcodes⟩
  rcases readAll_eq_ok.mp hreadAll with ⟨all, hall, rfl⟩
  have hfindings := findings_eq_nil hpassed
  simp only [findings, List.append_eq_nil_iff] at hfindings
  have hchecked := (pairwise_labelOf? hfindings.1.2).1
  rw [candidates_recordsOfText, recordsOfText_eq, List.pairwise_filter, List.pairwise_map,
    List.pairwise_filter] at hchecked
  -- what holds of the texts in turn is carried over to the records, and from them to the codes
  have hrecords : all.Pairwise fun r s => ∀ label, r.HasLabel label → ¬s.HasLabel label := by
    refine pairwise_of_forall₂ hall hchecked ?_
    intro a ha b hb r s hr hs hdiffer label hrlabel hslabel
    rcases labelOf?_of_mem_texts hseamless hplain ha hr hrlabel with ⟨hta, hla, -⟩
    rcases labelOf?_of_mem_texts hseamless hplain hb hs hslabel with ⟨htb, hlb, -⟩
    have hna := ne_of_codeType hta
    have hnb := ne_of_codeType htb
    exact hdiffer (by simpa using hna.1) (by simpa using hnb.1) (by simpa using hna.2)
      (by simpa using hnb.2) _ hla hlb
  refine pairwise_of_forall₂ hcodes (hrecords.filter _) ?_
  rintro r hr s hs c d ⟨key, hc⟩ ⟨key', hd⟩ hdiffer htab htab' hlabel hsame
  rcases exists_text hreadAll hr with ⟨-, a, -, hread⟩
  rcases exists_text hreadAll hs with ⟨-, b, -, hread'⟩
  refine hdiffer c.tabLabel (Code.hasLabel_of_ofRecord hread hc htab hlabel) ?_
  rw [hsame] at hlabel ⊢
  exact Code.hasLabel_of_ofRecord hread' hd htab' hlabel

/-- The label of a tab in the collection is, on one line, one that validation finds. -/
theorem exists_labelValue {c : Code} (hc : c ∈ collection.values) (htab : Run.IsTab c)
    (hlabel : c.tabLabel ≠ "") :
    ∃ record ∈ recordsOfText text, codeType record = tabType ∧
      Text.reflow c.tabLabel.toList ∈ labelValues record := by
  rcases exists_hasLabel hcollection hc htab hlabel with ⟨record, hrecord, r, hread, hkept⟩
  rcases labelOf?_of_mem_texts hseamless hplain hrecord hread hkept with ⟨htype, -, hmem⟩
  exact ⟨_, mem_recordsOfText.mpr ⟨record, hrecord, (ne_of_codeType htype).1, rfl⟩, htype, hmem⟩

end

end Validation

end Sheetwright
