import Sheetwright.Proofs.Run.Distinct
import Sheetwright.Proofs.Run.Target
import Sheetwright.Proofs.Validation.Labels
/-!
# Tabs of a validated run

No two tabs of a validated run have the same title, if they are plainly labelled and no label reads
like the title that a tab without a label gets for its position. Then no tab is reported twice, and
none replaces a sheet that the run has made before: `validated_tabs_apart`. Where a label has blanks
around it, is written twice or reads like such a title, validation passes all the same and a sheet
is lost: `not_tabs_apart`.
-/

namespace Sheetwright.Validation

open Record Text Run

variable {reference : Reference} {text : List Char} {collection : Collection} {layout : Layout}

/-- The title of a tab without a label differs for every position. -/
theorem position_injective (layout : Layout) :
    Function.Injective fun i : Nat => layout.tabPrefix ++ toString i := by
  intro i j h
  have hlists := congrArg String.toList h
  rw [String.toList_append, String.toList_append] at hlists
  have hdigits := List.append_cancel_left hlists
  rw [Nat.toString_eq_ofList_toDigits, Nat.toString_eq_ofList_toDigits, String.toList_ofList,
    String.toList_ofList] at hdigits
  exact decimal_injective hdigits

/-- No label of a record reads like the title of a tab without a label at one of the first
positions. -/
def NoPosition (layout : Layout) (count : Nat) (record : List Char) : Prop :=
  ∀ label ∈ labelValues record, ∀ i < count,
    String.ofList label ≠ reflowed (layout.tabPrefix ++ toString i)

instance (layout : Layout) (count : Nat) (record : List Char) :
    Decidable (NoPosition layout count record) :=
  inferInstanceAs (Decidable (∀ label ∈ labelValues record, ∀ i < count, _))

theorem tabsApart (hpassed : (runText reference text).passed = true)
    (hcollection : Collection.ofText text = .ok collection)
    (hseamless : ∀ record ∈ texts text, Seamless record)
    (hplain : ∀ record ∈ recordsOfText text, codeType record = tabType → PlainlyLabelled record)
    (hposition : ∀ record ∈ recordsOfText text, codeType record = tabType →
      NoPosition layout collection.values.length record) :
    TabsApart layout collection.values := by
  have hdiffer := pairwise_tabLabel hcollection hseamless hplain hpassed
  rw [List.pairwise_iff_getElem] at hdiffer
  -- a label does not read like the title for a position
  have hlabelled : ∀ c ∈ collection.values, IsTab c → c.tabLabel ≠ "" →
      ∀ i < collection.values.length, c.tabLabel ≠ layout.tabPrefix ++ toString i := by
    intro c hc htab hlabel i hi hsame
    rcases exists_labelValue hcollection hseamless hplain hc htab hlabel with
      ⟨record, hrecord, htype, hmem⟩
    refine hposition record hrecord htype _ hmem i hi ?_
    rw [← hsame, reflowed]
  intro i j c d hi hj htab htab' hname
  have hci := List.getElem?_eq_some_iff.mp hi
  have hdj := List.getElem?_eq_some_iff.mp hj
  by_cases hc : c.tabLabel = ""
  · rw [tabName_of_no_label hc] at hname
    by_cases hd : d.tabLabel = ""
    · rw [tabName_of_no_label hd] at hname
      exact position_injective layout hname
    · rw [tabName_of_label hd] at hname
      exact absurd hname.symm (hlabelled d (List.mem_of_getElem? hj) htab' hd i hci.1)
  · rw [tabName_of_label hc] at hname
    by_cases hd : d.tabLabel = ""
    · rw [tabName_of_no_label hd] at hname
      exact absurd hname (hlabelled c (List.mem_of_getElem? hi) htab hc j hdj.1)
    · rw [tabName_of_label hd] at hname
      obtain ⟨hil, rfl⟩ := hci
      obtain ⟨hjl, rfl⟩ := hdj
      rcases Nat.lt_trichotomy i j with hlt | rfl | hlt
      · exact absurd hname (hdiffer i j hil hjl hlt htab htab' hc)
      · rfl
      · exact absurd hname.symm (hdiffer j i hjl hil hlt htab' htab hd)

/-- A validated run reports no tab twice, and no tab replaces the sheet of a tab that was made
before it, if the tabs are plainly labelled and no label reads like the title for a position. -/
theorem validated_tabs_apart {ρ : Type} (commit : Session.Action ρ Unit) (s : Session ρ)
    (hpassed : (runText reference text).passed = true)
    (hcollection : Collection.ofText text = .ok collection)
    (hseamless : ∀ record ∈ texts text, Seamless record)
    (hplain : ∀ record ∈ recordsOfText text, codeType record = tabType → PlainlyLabelled record)
    (hposition : ∀ record ∈ recordsOfText text, codeType record = tabType →
      NoPosition layout collection.values.length record) :
    let doc := Session.document commit
    let reached := upTo doc layout collection.values s
    (execute doc layout collection.values s).1.createdTargets.Nodup ∧
      (Faithful commit → ∀ i j c d name t, i < j → collection.values[i]? = some c →
        collection.values[j]? = some d → IsTab d →
        verdict doc layout (reached i).1 i c (reached i).2 = .ok (.tab name) →
        Workbook.Distinct layout.templateSheet name →
        (reached j).2.workbook.titled? name = some t →
          (reached (j + 1)).2.workbook.titled? name = some t) := by
  have hapart : TabsApart layout collection.values :=
    tabsApart hpassed hcollection hseamless hplain hposition
  refine ⟨hapart.nodup_createdTargets _ s, ?_⟩
  intro hcommit i j c d name t hlt hc hd hdt hmade hdistinct ht
  rcases (verdict_eq_tab_iff _ _).mp hmade with ⟨hct, rfl, hmake, -⟩
  have hrun := (tabRun_makeTab layout commit (tabName layout i c)
    (upTo (Session.document commit) layout collection.values s i).2).1
  rw [hmake] at hrun
  have hne := hrun.of_made.1
  exact hapart.titled?_upTo_succ hcommit (Nat.ne_of_lt hlt) hc hd hct hdt hne.symm hdistinct ht

theorem validated_tabs_apart_unlabelled :
    let reference := Reference.ofText "TAB".toList
    let text := "<TAB;\n Label1=\"A\">, <BR>\n<TAB; label1=\"\"><TAB; label1=\"B\">".toList
    let doc := Session.document (pure () : Session.Action Unit Unit)
    (runText reference text).passed = true ∧ (∀ record ∈ texts text, Seamless record) ∧
      (∀ record ∈ recordsOfText text, codeType record = tabType → PlainlyLabelled record) ∧
      (∀ record ∈ recordsOfText text, codeType record = tabType → NoPosition {} 4 record) ∧
      ∃ collection t, Collection.ofText text = .ok collection ∧ collection.values.length = 4 ∧
        (execute doc {} collection.values sole).1.createdTargets = ["A", "Tab_2", "B"] ∧
        (execute doc {} collection.values sole).1.createdTargets.Nodup ∧
        (upTo doc {} collection.values sole 2).2.workbook.titled? "A" = some t ∧
        (upTo doc {} collection.values sole 3).2.workbook.titled? "A" = some t := by
  intro reference text doc
  have hvalidated : (runText reference text).passed = true ∧
      (∀ record ∈ texts text, Seamless record) ∧
      (∀ record ∈ recordsOfText text, codeType record = tabType → PlainlyLabelled record) ∧
      (∀ record ∈ recordsOfText text, codeType record = tabType → NoPosition {} 4 record) := by
    decide +kernel
  have hrun : (Collection.ofText text).map (fun collection =>
      (collection.values.map (·.baseType), (execute doc {} collection.values sole).1.createdTargets,
        (collection.values.head?.bind fun c => (verdict doc {} {} 0 c sole).toOption),
        ((upTo doc {} collection.values sole 2).2.workbook.titled? "A").isSome)) =
      .ok (["TAB", "BR", "TAB", "TAB"], ["A", "Tab_2", "B"], some (.tab "A"), true) := by
    decide +kernel
  obtain ⟨hpassed, hseamless, hplain, hposition⟩ := hvalidated
  refine ⟨hpassed, hseamless, hplain, hposition, ?_⟩
  cases hcollection : Collection.ofText text with
  | error fault =>
    rw [hcollection] at hrun
    cases hrun
  | ok collection =>
    rw [hcollection, Except.map, Except.ok.injEq] at hrun
    simp only [Prod.mk.injEq] at hrun
    obtain ⟨htypes, hcreated, hfirst, hfound⟩ := hrun
    rcases Option.isSome_iff_exists.mp hfound with ⟨t, ht⟩
    have hlength : collection.values.length = 4 := by simpa using congrArg List.length htypes
    have hapart := validated_tabs_apart (pure ()) sole hpassed hcollection hseamless hplain
      (by rwa [hlength])
    have hcode : ∀ j : Nat, ["TAB", "BR", "TAB", "TAB"][j]? = some "TAB" →
        ∃ c, collection.values[j]? = some c ∧ IsTab c := by
      intro j hj
      rw [← htypes, List.getElem?_map, Option.map_eq_some_iff] at hj
      exact hj
    rcases hcode 0 rfl with ⟨c, hc, -⟩
    rcases hcode 2 rfl with ⟨d, hd, hdt⟩
    rw [List.head?_eq_getElem?, hc, Option.bind_some] at hfirst
    have hmade : verdict doc {} {} 0 c sole = .ok (.tab "A") := by
      cases hverdict : verdict doc {} {} 0 c sole with
      | error failure =>
        rw [hverdict] at hfirst
        cases hfirst
      | ok outcome =>
        rw [hverdict] at hfirst
        exact congrArg Except.ok (Option.some.inj hfirst)
    have hfaithful : Faithful (pure () : Session.Action Unit Unit) := fun _ => ⟨rfl, fun _ _ h => h⟩
    have hdistinct : Workbook.Distinct "Codes" "A" := Or.inl (by decide)
    exact ⟨collection, t, rfl, hlength, hcreated, hapart.1, ht,
      hapart.2 hfaithful 0 2 c d "A" t (by decide) hc hd hdt hmade hdistinct ht⟩

/-! ## Tabs that are replaced -/

/-- A text passes and its run makes some tab twice. -/
def PassesReplacing (layout : Layout) (text : List Char) : Prop :=
  (runText (Reference.ofText "TAB".toList) text).passed = true ∧
    ∃ collection, Collection.ofText text = .ok collection ∧
      ¬(execute (Session.document (pure () : Session.Action Unit Unit)) layout collection.values
        sole).1.createdTargets.Nodup

instance (layout : Layout) (text : List Char) : Decidable (PassesReplacing layout text) :=
  decidable_of_iff ((runText (Reference.ofText "TAB".toList) text).passed = true ∧
      ∃ collection ∈ (Collection.ofText text).toOption,
        ¬(execute (Session.document (pure () : Session.Action Unit Unit)) layout collection.values
          sole).1.createdTargets.Nodup) <| by
    rw [PassesReplacing]
    cases Collection.ofText text <;> simp [Except.toOption]

/-- Texts with a tab that is not plainly labelled: there are blanks around the label, another label
is written behind it, or behind it in capitals. -/
def replacingTexts : List (List Char) :=
  ["<TAB; label1=\"A\"><TAB; label1=\"A \">",
    "<TAB; label1=\"A\"; label1=\"B\"><TAB; label1=\"B\">",
    "<TAB; label1=\"A\"><TAB; label1=\"B\"; LABEL1=\"A\">"].map String.toList

/-- A passed validation does not keep tabs apart: labels are not read as a run reads them, a label
may read like the title for a position, and a quote at a line end is taken for noise. -/
theorem not_tabs_apart :
    (∀ text ∈ replacingTexts, PassesReplacing {} text) ∧
      PassesReplacing {} "<TAB; label1=\"Tab_1\"><TAB; label1=\"\">".toList ∧
      PassesReplacing {} "<TAB; label1=\"A\"><TAB; label1=\"B\"; label1=\n\"A\">".toList := by
  decide +kernel

end Sheetwright.Validation
