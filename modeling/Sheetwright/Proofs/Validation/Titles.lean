import Sheetwright.Proofs.Run.Refused
import Sheetwright.Proofs.Run.Target
import Sheetwright.Proofs.Validation.Counts
import Sheetwright.Proofs.Validation.Labels
/-!
# Titles of a validated run

Validation asks for labels of up to thirty characters without any of `& , " : ;`. A run refuses the
title of the template and every title with one of `\ * ? : / [ ]`, which is another set. So after a
passed validation a run reports exactly those tabs whose titles it refuses, and of the characters
that a title must not hold only the colon is ruled out for labels: `validated_tab_error_iff`. A run
also refuses a tab for which the numbers behind a title are exhausted.
-/

namespace Sheetwright.Validation

open Grid Record Text Run Workbook

variable {reference : Reference} {text record label : List Char} {collection : Collection}
  {layout : Layout} {index : Nat} {c : Code}

/-! ## The title of a tab -/

theorem tabName_ne_empty (layout : Layout) (index : Nat) (c : Code) :
    tabName layout index c ≠ "" := by
  by_cases hlabel : c.tabLabel = ""
  · rw [tabName_of_no_label hlabel]
    intro hempty
    have hlist := congrArg String.toList hempty
    rw [String.toList_append, Nat.toString_eq_repr, Nat.toList_repr] at hlist
    exact Nat.toDigits_ne_nil (List.append_eq_nil_iff.mp hlist).2
  · rw [tabName_of_label hlabel]
    exact hlabel

theorem comma_not_mem_position (hbefore : ',' ∉ layout.tabPrefix.toList) (index : Nat) :
    ',' ∉ (layout.tabPrefix ++ toString index).toList := by
  rw [String.toList_append, List.mem_append, not_or, Nat.toString_eq_repr, Nat.toList_repr]
  refine ⟨hbefore, fun hdigit => ?_⟩
  have hcomma := Text.isDigit_of_mem_toDigits hdigit
  rw [Text.isDigit_comma] at hcomma
  cases hcomma

/-! ## Labels that passed -/

/-- The label of a record of a tab that is legible for the scan and written once. -/
def LegiblyLabelled (record : List Char) : Prop := labelPattern.Legible record ∧ OneLabel record

instance (record : List Char) : Decidable (LegiblyLabelled record) :=
  inferInstanceAs (Decidable (_ ∧ _))

/-- A label that validation has checked holds no character that it forbids. -/
theorem legal_of_labelOf? (hpassed : (runText reference text).passed = true)
    (hrecord : record ∈ texts text) (hfound : labelOf? (cleaned record) = some label) :
    ∀ ch ∈ label, ch ∉ "&,\":;".toList := by
  have htype : codeType (cleaned record) = tabType := by
    rw [labelOf?] at hfound
    split at hfound
    next htype => exact htype
    next => cases hfound
  rw [labelOf?, if_pos htype] at hfound
  have hchecked := mem_candidates_of_ne hrecord (ne_of_codeType htype)
  refine (sound_of_runText hpassed).legal label (List.mem_filterMap.mpr ⟨_, ?_, hfound⟩)
  exact List.mem_filter.mpr ⟨hchecked, decide_eq_true htype⟩

section

variable (hpassed : (runText reference text).passed = true)
  (hcollection : Collection.ofText text = .ok collection)
  (hseamless : ∀ record ∈ texts text, Seamless record)
  (hlabelled : ∀ record ∈ recordsOfText text, codeType record = tabType → LegiblyLabelled record)

include hpassed hcollection hseamless hlabelled

/-- The label of a tab in the collection holds no character that validation forbids. -/
theorem legal_tabLabel (hc : c ∈ collection.values) (htab : IsTab c) (hlabel : c.tabLabel ≠ "") :
    ∀ ch ∈ c.tabLabel.toList, ch ∉ "&,\":;".toList := by
  rcases exists_hasLabel hcollection hc htab hlabel with ⟨record, hrecord, r, hread, hkept⟩
  rcases exists_labelOf?_of_hasLabel hrecord (hseamless record hrecord) (fun htype =>
      hlabelled _ (mem_recordsOfText.mpr ⟨record, hrecord, (ne_of_codeType htype).1, rfl⟩) htype)
    hread hkept with ⟨-, found, -, hfound, hreflow⟩
  intro ch hch hillegal
  have hsolid : isBlank ch = false := by
    have hall : "&,\":;".toList.all (fun ch => !isBlank ch) = true := by decide
    simpa using List.all_eq_true.mp hall ch hillegal
  -- blanks aside, the label has the characters of the one that was checked
  have hmem : ch ∈ found := by
    refine (trim_sublist found).subset ?_
    rw [← hreflow, mem_reflow hsolid]
    exact hch
  exact legal_of_labelOf? hpassed hrecord hfound ch hmem hillegal

theorem comma_not_mem_tabName (hbefore : ',' ∉ layout.tabPrefix.toList)
    (hc : c ∈ collection.values) (htab : IsTab c) : ',' ∉ (tabName layout index c).toList := by
  by_cases hlabel : c.tabLabel = ""
  · rw [tabName_of_no_label hlabel]
    exact comma_not_mem_position hbefore index
  · rw [tabName_of_label hlabel]
    intro hcomma
    exact legal_tabLabel hpassed hcollection hseamless hlabelled hc htab hlabel ',' hcomma
      (by decide)

end

/-- A run of a text that passed reports a tab as an error exactly if its title is that of the
template, if it holds a character that titles must not hold, or if numbers are exhausted in the
workbook that the codes before it leave behind. The title of a tab with a label holds none of the
characters that validation forbids. -/
theorem validated_tab_error_iff {ρ : Type} {commit : Session.Action ρ Unit} {s : Session ρ}
    (hpassed : (runText reference text).passed = true)
    (hcollection : Collection.ofText text = .ok collection)
    (hseamless : ∀ record ∈ texts text, Seamless record)
    (hlabelled : ∀ record ∈ recordsOfText text, codeType record = tabType → LegiblyLabelled record)
    (hbefore : ',' ∉ layout.tabPrefix.toList) (hcommit : Harmless commit)
    (hsucceed : CommitsSucceed (Session.document commit) layout collection.values s)
    (hfit : Title.fault? layout.templateSheet = none)
    (htemplate : s.workbook.Kept Sheet.Separable layout.templateSheet)
    (hunrepeated : s.workbook.Unrepeated) :
    let run := execute (Session.document commit) layout collection.values s
    ∀ i c, collection.values[i]? = some c → IsTab c →
      ((∃ e ∈ run.1.errors, e.index = i) ↔ tabName layout i c = layout.templateSheet ∨
          (∃ ch ∈ (tabName layout i c).toList, ch ∈ ['\\', '*', '?', ':', '/', '[', ']']) ∨
          Numberless layout (tabName layout i c)
            (upTo (Session.document commit) layout collection.values s i).2.workbook) ∧
        (c.tabLabel ≠ "" → ∀ ch ∈ (tabName layout i c).toList, ch ∉ "&,\":;".toList) := by
  intro run i c hc htab
  have hmem : c ∈ collection.values := List.mem_of_getElem? hc
  refine ⟨?_, fun hlabel => ?_⟩
  · have hcomma : ',' ∉ (tabName layout i c).toList :=
      comma_not_mem_tabName hpassed hcollection hseamless hlabelled hbefore hmem htab
    have herror := exists_tab_error_iff hcommit hsucceed hfit htemplate hunrepeated hc htab
      (tabName_ne_empty layout i c) hcomma
    exact herror.trans or_assoc
  · rw [tabName_of_label hlabel]
    exact legal_tabLabel hpassed hcollection hseamless hlabelled hmem htab hlabel

/-- Two cells in the first row that is cleared in a copy. -/
def joined : Range := ⟨9, 6, 9, 7, by decide, by decide⟩

/-- A workbook whose template has merged cells that are cleared in every copy. -/
def lined : Session Unit :=
  let template : Sheet := { title := "Codes", merged := [joined] }
  ⟨⟨[template.allocateBlock [9] [6, 7], { title := "A" }]⟩, ()⟩

theorem validated_tab_error_iff_slash :
    let text := "<TAB; label1=\"A\"><TAB; label1=\"A/B\"><TAB; label1=\"\">".toList
    (runText (Reference.ofText "TAB".toList) text).passed = true ∧
      ∃ collection, Collection.ofText text = .ok collection ∧
        let errors :=
          (execute (Session.document (pure ())) {} collection.values lined).1.errors
        (∃ e ∈ errors, e.index = 1) ∧ ¬(∃ e ∈ errors, e.index = 0) ∧
          ¬∃ e ∈ errors, e.index = 2 := by
  intro text
  have hvalidated : (runText (Reference.ofText "TAB".toList) text).passed = true ∧
      (∀ record ∈ texts text, Seamless record) ∧
      (∀ record ∈ recordsOfText text, codeType record = tabType → LegiblyLabelled record) := by
    decide +kernel
  have hcodes : (Collection.ofText text).map (fun collection =>
      collection.values.mapIdx fun i c => (c.baseType, tabName {} i c,
        decide (Numberless {} (tabName {} i c) (upTo (Session.document (pure ())) {}
          collection.values lined i).2.workbook))) =
        .ok [("TAB", "A", false), ("TAB", "A/B", false), ("TAB", "Tab_2", false)] := by
    decide +kernel
  obtain ⟨hpassed, hseamless, hlabelled⟩ := hvalidated
  obtain ⟨collection, hcollection, hcode⟩ := Collection.exists_of_mapIdx hcodes
  have hcommit : Harmless (pure () : Session.Action Unit Unit) := fun _ => rfl
  have hunfailing : Unfailing (pure () : Session.Action Unit Unit) := fun _ => rfl
  have hsucceed := hunfailing.commitsSucceed {} collection.values lined
  have htemplate : lined.workbook.Kept Sheet.Separable "Codes" := by
    refine ⟨0, _, ⟨rfl, rfl, nofun⟩, ?_⟩
    decide +kernel
  have hunrepeated : lined.workbook.Unrepeated := by
    decide +kernel
  have herrors := validated_tab_error_iff hpassed hcollection hseamless hlabelled (by decide)
    hcommit hsucceed (by decide) htemplate hunrepeated
  have hmade {i : Nat} {c : Code} (hc : collection.values[i]? = some c) (htab : IsTab c)
      (hgood : ¬Unfit {} (tabName {} i c))
      (hnumbers : ¬Numberless {} (tabName {} i c)
        (upTo (Session.document (pure ())) {} collection.values lined i).2.workbook) :
      ¬∃ e ∈ (execute (Session.document (pure ())) {} collection.values lined).1.errors,
        e.index = i := by
    rw [(herrors i c hc htab).1, ← or_assoc]
    exact not_or.mpr ⟨hgood, hnumbers⟩
  refine ⟨hpassed, collection, hcollection, ?_, ?_, ?_⟩
  · rcases hcode 1 ("TAB", "A/B", false) rfl with ⟨c, hc, hsame⟩
    simp only [Prod.mk.injEq] at hsame
    rcases hsame with ⟨htab, hname, -⟩
    rw [(herrors 1 c hc htab).1, hname]
    exact Or.inr (Or.inl ⟨'/', by decide, by decide⟩)
  · rcases hcode 0 ("TAB", "A", false) rfl with ⟨c, hc, hsame⟩
    simp only [Prod.mk.injEq, decide_eq_false_iff_not] at hsame
    rcases hsame with ⟨htab, hname, hnumbers⟩
    exact hmade hc htab (by rw [hname]; decide) hnumbers
  · rcases hcode 2 ("TAB", "Tab_2", false) rfl with ⟨c, hc, hsame⟩
    simp only [Prod.mk.injEq, decide_eq_false_iff_not] at hsame
    rcases hsame with ⟨htab, hname, hnumbers⟩
    exact hmade hc htab (by rw [hname]; decide) hnumbers

/-! ## Tabs that are refused -/

/-- A text passes and its run reports an error for a tab. -/
def PassesRefusing (layout : Layout) (b : Workbook) (text : List Char) : Prop :=
  (runText (Reference.ofText "TAB".toList) text).passed = true ∧
    ∃ collection, Collection.ofText text = .ok collection ∧
      ∃ e ∈ (execute (Session.document (pure () : Session.Action Unit Unit)) layout
        collection.values ⟨b, ()⟩).1.errors, e.codeType = tabType

instance (layout : Layout) (b : Workbook) (text : List Char) :
    Decidable (PassesRefusing layout b text) :=
  decidable_of_iff ((runText (Reference.ofText "TAB".toList) text).passed = true ∧
      ∃ collection ∈ (Collection.ofText text).toOption,
        ∃ e ∈ (execute (Session.document (pure () : Session.Action Unit Unit)) layout
          collection.values ⟨b, ()⟩).1.errors, e.codeType = tabType) <| by
    rw [PassesRefusing]
    cases Collection.ofText text <;> simp [Except.toOption]

/-- Texts whose label is not read as it is checked: another one is written behind it, or behind it
in capitals, or a quote at a line end is taken for noise. -/
def misreadTexts : List (List Char) :=
  ["<TAB; label1=\"A\"; label1=\"B:C\">",
    "<TAB; label1=\"A\"; LABEL1=\"B:C\">",
    "<TAB; label1=\n\"B:C\"; sections=\"label1=\"D\"\">"].map String.toList

/-- Workbooks in which even a plain tab is refused: a title is given twice, or a covered cell of the
template is not there. -/
def refusingWorkbooks : List Workbook :=
  [⟨[{ title := "Codes" }, { title := "A" }, { title := "A" }]⟩,
    ⟨[({ title := "Codes", merged := [joined] } : Sheet).allocate joined.anchor]⟩]

/-- Tabs without labels at positions 1 and 11. -/
def farTabs : List Char :=
  ("<BR><TAB; label1=\"\"><BR><BR><BR><BR><BR><BR><BR><BR><BR>" ++ "<TAB; label1=\" \">").toList

/-- A workbook in which the title `1A,1` gets the number 1 although `1A,11` is in use: the search
finds the title across the comma between the second and the third one, and begins anew behind it. -/
def misnumbered : Workbook := ⟨["Codes", "X1A", "1A,11", "1a,1"].map fun title => { title }⟩

/-- A title with one digit more behind it than a number may have. -/
def longTitle : String := "a" ++ String.ofList (List.replicate (digitLimit + 1) '1')

/-- A workbook in which the title `a` is taken, and too long a number is behind it. -/
def exhausted : Workbook := ⟨["Codes", "A", longTitle].map fun title => { title }⟩

theorem length_longTitle : longTitle.length = 1 + (digitLimit + 1) := by
  have hdigits : (String.ofList (List.replicate (digitLimit + 1) '1')).length = digitLimit + 1 := by
    rw [String.length_ofList, List.length_replicate]
  rw [longTitle, String.length_append, hdigits]
  rfl

/-- A short title is another one, which its length shows without reading all the digits. -/
theorem ne_longTitle {title : String} (hshort : title.length ≤ digitLimit) : title ≠ longTitle := by
  rintro rfl
  rw [length_longTitle] at hshort
  omega

theorem titles_exhausted : exhausted.titles = ["Codes", "A", longTitle] := rfl

theorem unrepeated_exhausted : exhausted.Unrepeated := by
  have hcodes : "Codes" ≠ longTitle := ne_longTitle (by decide)
  have htaken : "A" ≠ longTitle := ne_longTitle (by decide)
  refine unrepeated_of_nodup ?_
  rw [titles_exhausted]
  simp [hcodes, htaken]

theorem numberless_exhausted : Numberless {} "a" exhausted := by
  have hcopy : "a" ≠ exhausted.copyTitle "Codes" := by
    intro heq
    have hlength := exhausted.length_lt_copyTitle "Codes"
    rw [← heq] at hlength
    revert hlength
    decide
  have hfree : "a" ∉ exhausted.titles := by
    have hne : "a" ≠ longTitle := ne_longTitle (by decide)
    rw [titles_exhausted]
    simp [hne]
  have htaken : exhausted.titles.any (Title.same "a") = true := by
    rw [titles_exhausted]
    have hsame : Title.same "a" "A" = true := by
      decide +kernel
    simp [hsame]
  have hlong : digitLimit < (List.replicate (digitLimit + 1) '1').length := by
    rw [List.length_replicate]
    exact Nat.lt_succ_self _
  refine numberless_of_long (by decide) (by decide) hfree hcopy htaken (fun c hc => ?_) hlong ?_
  · rw [List.eq_of_mem_replicate hc]
    decide
  · rw [titles_exhausted]
    exact .tail _ (.tail _ (.head _))

theorem passesRefusing_exhausted : PassesRefusing {} exhausted "<TAB; label1=\"a\">".toList := by
  have hpassed : (runText (Reference.ofText "TAB".toList) "<TAB; label1=\"a\">".toList).passed =
      true := by
    decide +kernel
  have hcodes : (Collection.ofText "<TAB; label1=\"a\">".toList).map (fun collection =>
      collection.values.mapIdx fun i c => (c.baseType, tabName {} i c)) = .ok [("TAB", "a")] := by
    decide +kernel
  obtain ⟨collection, hcollection, hcode⟩ := Collection.exists_of_mapIdx hcodes
  rcases hcode 0 ("TAB", "a") rfl with ⟨c, hc, hsame⟩
  obtain ⟨htab, hname⟩ := Prod.mk.inj hsame
  have hcommit : Harmless (pure () : Session.Action Unit Unit) := fun _ => rfl
  have hunfailing : Unfailing (pure () : Session.Action Unit Unit) := fun _ => rfl
  have htemplate : exhausted.Kept Sheet.Separable "Codes" := by
    refine ⟨0, _, ⟨rfl, rfl, nofun⟩, ?_⟩
    decide +kernel
  have herror := exists_tab_error_iff hcommit
    (hunfailing.commitsSucceed {} collection.values ⟨exhausted, ()⟩) (by decide) htemplate
    unrepeated_exhausted hc htab (by rw [hname]; decide) (by rw [hname]; decide)
  rcases herror.mpr (Or.inr (hname ▸ numberless_exhausted)) with ⟨e, he, hindex⟩
  refine ⟨hpassed, collection, hcollection, e, he, ?_⟩
  -- the one code there is is the tab, so the error is that of the tab
  rw [errors_execute] at he
  rcases (mem_errors_iff _ _ _ _).mp he with ⟨j, d, failure, hd, -, rfl⟩
  obtain rfl : j = 0 := hindex
  obtain rfl : c = d := Option.some.inj (hc.symm.trans hd)
  exact htab

/-- A passed validation does not keep a tab from being refused. The numbers behind its title may be
exhausted, its label may be the title of the template or hold a character that titles must not hold;
and a plain title may be refused where one of the conditions on text, layout and workbook is not
met. -/
theorem not_tabs_accepted :
    PassesRefusing {} exhausted "<TAB; label1=\"a\">".toList ∧
      PassesRefusing {} sole.workbook "<TAB; label1=\"A/B\">".toList ∧
      PassesRefusing {} sole.workbook "<TAB; label1=\"Codes\">".toList ∧
      (∀ text ∈ misreadTexts, PassesRefusing {} sole.workbook text) ∧
      (∀ b ∈ refusingWorkbooks, PassesRefusing {} b "<TAB; label1=\"A\">".toList) ∧
      PassesRefusing { templateSheet := "A/B" } ⟨[{ title := "A/B" }]⟩
        "<TAB; label1=\"A\">".toList ∧
      PassesRefusing { tabPrefix := "1A," } misnumbered farTabs := by
  refine ⟨passesRefusing_exhausted, ?_⟩
  decide +kernel

end Sheetwright.Validation
