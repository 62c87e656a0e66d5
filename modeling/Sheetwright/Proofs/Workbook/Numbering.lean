import Sheetwright.Proofs.Text.Word
import Sheetwright.Proofs.Workbook.Sheets
/-!
# Numbers behind titles

A title that is in use gets a number: one more than the greatest number that follows the title
anywhere in the list of titles, which is searched as one text with commas between the titles. If the
title itself holds no comma, no occurrence of it reaches over a comma, so the search comes to the
beginning of every title of the list and no number is overlooked. The numbered title is then in use
nowhere: `numbered_not_mem`.
-/

namespace Sheetwright

open Grid

/-! ## Words before a comma -/

namespace Text

/-- A word without a comma that begins a text ends before the first comma of the text. -/
theorem afterWord?_comma {word pre text rest : List Char} (hword : ',' ∉ word)
    (h : afterWord? word (pre ++ ',' :: text) = some rest) :
    ∃ mid, mid.length ≤ pre.length ∧ rest = mid ++ ',' :: text := by
  have hcomma : ∀ w ∈ word, caseless ',' ≠ caseless w := by
    intro w hw hsame
    exact hword (eq_comma_of_caseless hsame.symm ▸ hw)
  rw [afterWord?_append_cons hcomma, Option.map_eq_some_iff] at h
  rcases h with ⟨mid, hmid, rfl⟩
  have hlength := afterWord?_length hmid
  exact ⟨mid, by omega, rfl⟩

end Text

/-! ## Searching the list of titles -/

namespace Title

variable {first : Char} {word digits : List Char}

theorem digitsAfter_cons_of_ne {c : Char} (text : List Char)
    (h : Text.caseless first ≠ Text.caseless c) :
    digitsAfter first word (c :: text) = digitsAfter first word text := by
  rw [digitsAfter, if_neg h]

/-- A search that has come to a comma comes to what stands behind it. -/
theorem mem_digitsAfter_skipComma (hfirst : first ≠ ',') {text : List Char}
    (h : digits ∈ digitsAfter first word text) :
    digits ∈ digitsAfter first word (skipComma (',' :: text)) ∧
      digits ∈ digitsAfter first word (',' :: text) := by
  refine ⟨h, ?_⟩
  rw [digitsAfter_cons_of_ne]
  · exact h
  · exact fun hsame => hfirst (Text.eq_comma_of_caseless hsame)

/-- What is found behind a comma is found, whatever stands before the comma: no occurrence of a
title without a comma reaches over it. -/
theorem mem_digitsAfter_comma (hfirst : first ≠ ',') (hword : ',' ∉ word) {text : List Char}
    (h : digits ∈ digitsAfter first word text) (pre : List Char) :
    digits ∈ digitsAfter first word (pre ++ ',' :: text) := by
  -- the search may go on far behind the first character, hence strong induction on the length
  induction hn : pre.length using Nat.strongRecOn generalizing pre with
  | ind n ih =>
    subst hn
    cases pre with
    | nil => exact (mem_digitsAfter_skipComma hfirst h).2
    | cons c pre =>
      rw [List.cons_append, digitsAfter]
      split
      · split
        next rest hrest =>
          rcases Text.afterWord?_comma hword hrest with ⟨mid, hmid, rfl⟩
          refine List.mem_cons_of_mem _ ?_
          have hlength := (List.dropWhile_sublist (p := Text.isDigit) (l := mid)).length_le
          rw [Text.dropWhile_append_stop Text.isDigit_comma]
          -- what is left begins with the comma asked for, with one before it, or with neither
          rcases hmore : mid.dropWhile Text.isDigit with _ | ⟨d, more⟩
          · exact h
          · rw [hmore, List.length_cons] at hlength
            by_cases hd : d = ','
            · subst hd
              exact ih more.length (by simp only [List.length_cons]; omega) more rfl
            · have hskip : skipComma (d :: more ++ ',' :: text) = d :: more ++ ',' :: text := by
                rw [List.cons_append, skipComma]
                intro rest' hrest'
                exact hd (List.cons.inj hrest').1
              rw [hskip]
              exact ih (d :: more).length (by simp only [List.length_cons]; omega) (d :: more) rfl
        next => exact ih pre.length (by simp) pre rfl
      · exact ih pre.length (by simp) pre rfl

/-- A title with a number behind it, at the beginning of the text. -/
theorem mem_digitsAfter_self (first : Char) (word : List Char) {tail : List Char}
    (hdigits : ∀ c ∈ digits, Text.isDigit c = true) (htail : tail.takeWhile Text.isDigit = []) :
    digits ∈ digitsAfter first word (first :: (word ++ (digits ++ tail))) := by
  have htake : (digits ++ tail).takeWhile Text.isDigit = digits := by
    rw [List.takeWhile_append_of_pos hdigits, htail, List.append_nil]
  rw [digitsAfter, if_pos rfl]
  split
  next rest hrest =>
    obtain rfl : digits ++ tail = rest :=
      Option.some.inj ((Text.afterWord?_append word _).symm.trans hrest)
    rw [htake]
    exact List.mem_cons_self
  next hnone =>
    rw [Text.afterWord?_append] at hnone
    cases hnone

/-- The search comes to the beginning of every title of the list. -/
theorem mem_digitsAfter_titles (hfirst : first ≠ ',') (hword : ',' ∉ word)
    (hdigits : ∀ c ∈ digits, Text.isDigit c = true) {titles : List (List Char)}
    (h : first :: (word ++ digits) ∈ titles) :
    digits ∈ digitsAfter first word ([','].intercalate titles) := by
  induction titles with
  | nil => cases h
  | cons title titles ih =>
    rcases List.mem_cons.mp h with rfl | hmem
    -- the last title ends the text, any other one is ended by a comma
    · cases titles with
      | nil =>
        have hself := mem_digitsAfter_self first word hdigits List.takeWhile_nil
        simpa using hself
      | cons next titles =>
        have htail : (',' :: [','].intercalate (next :: titles)).takeWhile Text.isDigit = [] := by
          rw [List.takeWhile_cons_of_neg]
          simp [Text.isDigit_comma]
        have hself := mem_digitsAfter_self first word hdigits htail
        rw [List.intercalate_cons_cons]
        simpa using hself
    · cases titles with
      | nil => cases hmem
      | cons next titles =>
        rw [List.intercalate_cons_cons, List.append_assoc, List.singleton_append]
        exact mem_digitsAfter_comma hfirst hword (ih hmem) title

/-- Every title that is a taken one with digits behind it has these digits found. -/
theorem mem_digitsBehind {wanted : String} (hwanted : wanted ≠ "") (hcomma : ',' ∉ wanted.toList)
    {titles : List String} (htaken : titles.any (same wanted) = true)
    (hdigits : ∀ c ∈ digits, Text.isDigit c = true)
    (h : wanted ++ String.ofList digits ∈ titles) : digits ∈ digitsBehind titles wanted := by
  rw [digitsBehind, if_pos htaken]
  split
  next hempty => exact absurd (String.toList_eq_nil_iff.mp hempty) hwanted
  next first word htitle =>
    rw [htitle, List.mem_cons, not_or] at hcomma
    rw [String.toList_intercalate]
    refine mem_digitsAfter_titles (Ne.symm hcomma.1) hcomma.2 hdigits ?_
    have hlist := List.mem_map_of_mem (f := String.toList) h
    rwa [String.toList_append, htitle, String.toList_ofList] at hlist

/-- A title without a comma gets a number that no sheet has behind it yet. -/
theorem numbered_not_mem {wanted : String} (hwanted : wanted ≠ "") (hcomma : ',' ∉ wanted.toList)
    (titles : List String) : numbered titles wanted ∉ titles := by
  intro hmem
  rw [numbered] at hmem
  split at hmem
  next hempty =>
    -- the title is in use as it is, so the search finds at least one occurrence
    have htaken : titles.any (same wanted) = true :=
      List.any_eq_true.mpr ⟨wanted, hmem, beq_self_eq_true _⟩
    have hself := mem_digitsBehind hwanted hcomma htaken (List.forall_mem_nil _) (by
      rwa [String.ofList_nil, String.append_empty])
    rw [List.isEmpty_iff.mp hempty] at hself
    cases hself
  next hfound =>
    have htaken : titles.any (same wanted) = true := by
      by_contra hnone
      rw [digitsBehind, if_neg hnone] at hfound
      exact hfound rfl
    have hself := mem_digitsBehind hwanted hcomma htaken
      (fun _ hc => Text.isDigit_of_mem_toDigits hc) hmem
    -- the number that was chosen is one of those found, yet greater than all of them
    have hle := greatest_le_iff.mp (Nat.le_refl _) _ hself
    rw [Text.numeral_toDigits] at hle
    exact Nat.not_succ_le_self _ hle

/-- A title that differs only in case from that of the one sheet there is gets a number. -/
theorem numbered_ne_of_same {title wanted : String} (hwanted : wanted ≠ "")
    (hplain : ∀ c ∈ Text.lower title.toList, c.toNat < 128) (h : same wanted title = true) :
    numbered [title] wanted ≠ wanted := by
  have hmap := Text.map_caseless_of_lower hplain (beq_iff_eq.mp h)
  have hany : [title].any (same wanted) = true := by
    rw [List.any_cons, h, Bool.true_or]
  have hjoined : (",".intercalate [title]).toList = title.toList := by
    simp
  rw [ne_eq, numbered_eq_self_iff, digitsBehind, if_pos hany, hjoined]
  split
  next hempty => exact absurd (String.toList_eq_nil_iff.mp hempty) hwanted
  next first word hlist =>
    rw [hlist] at hmap
    cases htitle : title.toList with
    | nil =>
      rw [htitle] at hmap
      cases hmap
    | cons c text =>
      rw [htitle, List.map_cons, List.map_cons, List.cons.injEq] at hmap
      have hafter := Text.afterWord?_of_map_caseless hmap.2 []
      rw [List.append_nil] at hafter
      -- the title counts among the numbered ones, so a number is added
      rw [digitsAfter, if_pos hmap.1]
      split
      next => exact List.cons_ne_nil _ _
      next hnone =>
        rw [hafter] at hnone
        cases hnone

end Title

/-! ## Copies -/

namespace Workbook

variable {b : Workbook} {title name : String}

/-- The provisional title of a copy is in use nowhere if the title of the copied sheet holds no
comma. -/
theorem copyTitle_not_mem (h : ',' ∉ title.toList) (b : Workbook) :
    b.copyTitle title ∉ b.titles := by
  refine Title.numbered_not_mem ?_ ?_ b.titles
  · exact fun hempty => by simpa [hempty] using append_ne_empty title
  · rw [String.toList_append, List.mem_append, not_or]
    exact ⟨h, by decide⟩

/-- A sheet of a title cannot be taken for a provisional copy of another one: either every copy has
a title of its own, or the title does not begin like that of a copy. -/
def Distinct (title name : String) : Prop :=
  ',' ∉ title.toList ∨ ¬(title ++ " Copy").toList <+: name.toList

theorem Distinct.copyTitle_ne (h : Distinct title name) (hmem : name ∈ b.titles) :
    b.copyTitle title ≠ name := by
  rintro rfl
  rcases h with hcomma | hprefix
  · exact copyTitle_not_mem hcomma b hmem
  · rcases Title.exists_numbered_eq b.titles (title ++ " Copy") with ⟨number, hnumber⟩
    refine hprefix ?_
    have hlist := congrArg String.toList hnumber
    rw [String.toList_append] at hlist
    exact ⟨number.toList, hlist.symm⟩

end Workbook

end Sheetwright
