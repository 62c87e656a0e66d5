import Mathlib.Data.List.Forall2
import Mathlib.Data.List.Induction
import Sheetwright.Proofs.Attribute
import Sheetwright.Proofs.Entries
import Sheetwright.Proofs.Record.Reflowed
/-!
# What a record keeps

An attribute of a record was given by a fragment, the last one that gives it. That fragment holds
the name of the attribute behind no letter and no digit, blanks, an equals sign and, somewhere
behind it, the value between quotes. Names do not overlap, so the names that are found in a fragment
are all that stand there (`mem_namedParts_iff`), whatever the search has passed over.
-/

namespace Sheetwright.Record

open Text

/-! ## Where a name stands -/

/-- A named part stands in a text behind `lead`. -/
structure NamedPart.Stands (part : NamedPart) (lead text : List Char) : Prop where
  letters_ne_nil : part.letters ≠ []
  letters : ∀ c ∈ part.letters, c.isAlpha = true
  digits : ∀ c ∈ part.digits, Text.isDigit c = true
  apart : ∀ c, lead.getLast? = some c → c.isAlphanum = false
  eq_append : ∃ blanks, allBlank blanks = true ∧
    text = lead ++ (part.letters ++ (part.digits ++ (blanks ++ '=' :: part.rest)))

theorem stands_of_namedPart? {text : List Char} {part : NamedPart}
    (h : namedPart? text = some part) : part.Stands [] text := by
  rw [namedPart?] at h
  split at h
  next letter letters rest hletters hrest =>
    rcases allBlank_or_exists ((text.dropWhile Char.isAlpha).dropWhile Text.isDigit) with
      hrun | ⟨blanks, x, more, hblanks, hx, hsplit⟩
    · rw [trimStart_of_allBlank hrun] at hrest
      cases hrest
    · rw [hsplit, trimStart_append hblanks, trimStart_cons hx, List.cons.injEq] at hrest
      obtain ⟨rfl, rfl⟩ := hrest
      cases h
      refine ⟨by simp [hletters], ?_, ?_, by simp, blanks, hblanks, ?_⟩
      · exact fun c hc => List.mem_takeWhile_imp hc
      · exact fun c hc => List.mem_takeWhile_imp hc
      · rw [List.nil_append, ← hsplit, List.takeWhile_append_dropWhile,
          List.takeWhile_append_dropWhile]
  next => cases h

/-- A named part is read at the beginning of a text exactly if it stands there. -/
theorem namedPart?_eq_some_iff {text : List Char} {part : NamedPart} :
    namedPart? text = some part ↔ part.Stands [] text := by
  refine ⟨stands_of_namedPart?, fun h => ?_⟩
  rcases h.eq_append with ⟨blanks, hblanks, rfl⟩
  obtain ⟨letters, digits, rest⟩ := part
  obtain ⟨letter, letters, rfl⟩ := List.exists_cons_of_ne_nil h.letters_ne_nil
  -- the digits end at a blank or at the sign, and the letters there or at the first digit
  have hsign : ∀ c, (blanks ++ '=' :: rest).head? = some c →
      Text.isDigit c = false ∧ c.isAlpha = false := by
    intro c hc
    cases blanks with
    | nil =>
      obtain rfl : '=' = c := by simpa using hc
      exact ⟨by decide, rfl⟩
    | cons d blanks =>
      obtain rfl : d = c := by simpa using hc
      have hd := allBlank_iff.mp hblanks d List.mem_cons_self
      have halpha : d.isAlpha = false := by
        by_contra h
        simp [isBlank_eq_false_of_isAlpha (by simpa using h)] at hd
      refine ⟨?_, halpha⟩
      by_contra h
      simp [isBlank_eq_false_of_isDigit (by simpa using h)] at hd
  have hdigits : ∀ c, (digits ++ (blanks ++ '=' :: rest)).head? = some c → c.isAlpha = false := by
    intro c hc
    cases digits with
    | nil => exact (hsign c hc).2
    | cons d digits =>
      obtain rfl : d = c := by simpa using hc
      have hd : Text.isDigit d = true := h.digits d List.mem_cons_self
      by_contra halpha
      simp [isDigit_of_isAlpha (by simpa using halpha)] at hd
  rw [namedPart?, List.nil_append, takeWhile_append_head h.letters hdigits,
    dropWhile_append_head h.letters hdigits,
    takeWhile_append_head h.digits fun c hc => (hsign c hc).1,
    dropWhile_append_head h.digits fun c hc => (hsign c hc).1, trimStart_append hblanks,
    trimStart_cons rfl]
  rfl

/-- A part that stands behind a text stands behind whatever is put in front of it, if that ends in
no letter or digit where the text is empty. -/
theorem NamedPart.Stands.append {part : NamedPart} {lead text : List Char}
    (h : part.Stands lead text) (front : List Char)
    (hfront : lead = [] → ∀ c, front.getLast? = some c → c.isAlphanum = false) :
    part.Stands (front ++ lead) (front ++ text) := by
  refine ⟨h.letters_ne_nil, h.letters, h.digits, fun c hc => ?_, ?_⟩
  · rw [List.getLast?_append] at hc
    cases hlast : lead.getLast? with
    | none =>
      rw [hlast, Option.none_or] at hc
      exact hfront (List.getLast?_eq_none_iff.mp hlast) c hc
    | some d =>
      rw [hlast, Option.some_or, Option.some.injEq] at hc
      exact h.apart c (hc ▸ hlast)
  · rcases h.eq_append with ⟨blanks, hblanks, rfl⟩
    exact ⟨blanks, hblanks, by simp⟩

theorem stands_of_mem {glued : Bool} {text : List Char} {part : NamedPart}
    (h : part ∈ namedPartsFrom glued text) :
    ∃ lead, part.Stands lead text ∧ (lead = [] → glued = false) := by
  induction hn : text.length using Nat.strongRecOn generalizing glued text with
  | ind n ih =>
    cases text with
    | nil => simp [namedPartsFrom] at h
    | cons c rest =>
      rw [List.length_cons] at hn
      by_cases hnone : glued = true ∨ namedPart? (c :: rest) = none
      · rw [namedPartsFrom_of_none hnone] at h
        rcases ih rest.length (by omega) h rfl with ⟨lead, hstands, hglued⟩
        -- a part right behind this character is only found if it does not glue
        refine ⟨c :: lead, hstands.append [c] ?_, by simp⟩
        intro hlead d hd
        obtain rfl : c = d := by simpa using hd
        exact hglued hlead
      · rw [not_or, Bool.not_eq_true] at hnone
        rcases Option.ne_none_iff_exists'.mp hnone.2 with ⟨first, hsome⟩
        rw [hnone.1, namedPartsFrom_of_some hsome, List.mem_cons] at h
        rcases h with rfl | h
        · exact ⟨[], stands_of_namedPart? hsome, fun _ => hnone.1⟩
        · have hlength := namedPart?_length hsome
          rw [List.length_cons] at hlength
          rcases ih first.rest.length (by omega) h rfl with ⟨lead, hstands, -⟩
          rcases (stands_of_namedPart? hsome).eq_append with ⟨blanks, -, hsplit⟩
          have hfront : c :: rest =
              (first.letters ++ (first.digits ++ (blanks ++ ['=']))) ++ first.rest := by
            simpa using hsplit
          refine ⟨first.letters ++ (first.digits ++ (blanks ++ ['='])) ++ lead, ?_, by simp⟩
          rw [hfront]
          refine hstands.append _ fun _ d hd => ?_
          -- the part before it ends in an equals sign, which glues nothing
          have hlast : (first.letters ++ (first.digits ++ (blanks ++ ['=']))).getLast? =
              some '=' := by
            simp
          obtain rfl : '=' = d := by simpa [hlast] using hd
          rfl

/-- A part that stands behind a longer text stands behind its end. -/
theorem NamedPart.Stands.of_append {part : NamedPart} {front lead text : List Char}
    (h : part.Stands (front ++ lead) (front ++ text)) : part.Stands lead text := by
  refine ⟨h.letters_ne_nil, h.letters, h.digits, fun c hc => h.apart c ?_, ?_⟩
  · rw [List.getLast?_append, hc]
    rfl
  · rcases h.eq_append with ⟨blanks, hblanks, htext⟩
    rw [List.append_assoc] at htext
    exact ⟨blanks, hblanks, List.append_cancel_left htext⟩

/-- No name begins within another one: there it is glued to the letters before it. -/
theorem NamedPart.Stands.not_within {first part : NamedPart} {lead text blanks more : List Char}
    {x : Char} (h : part.Stands lead text) (hlead : lead ≠ []) (hx : x.isAlpha = true)
    (hfirst : first.Stands [] text) (hblanks : allBlank blanks = true) :
    first.letters ++ (first.digits ++ (blanks ++ ['='])) ≠ lead ++ x :: more := by
  intro hsplit
  rcases List.append_eq_append_iff.mp hsplit with ⟨late, -, hlate⟩ | ⟨early, hearly, -⟩
  · -- behind the letters only digits, blanks and the sign follow
    have hmem : x ∈ first.digits ++ (blanks ++ ['=']) := hlate ▸ List.mem_append_cons_self
    rw [List.mem_append, List.mem_append, List.mem_singleton] at hmem
    rcases hmem with hdigit | hblank | rfl
    · have hno := hfirst.digits x hdigit
      rw [isDigit_of_isAlpha hx] at hno
      cases hno
    · have hno := allBlank_iff.mp hblanks x hblank
      rw [isBlank_eq_false_of_isAlpha hx] at hno
      cases hno
    · cases hx
  · obtain ⟨c, hc⟩ := Option.ne_none_iff_exists'.mp (mt List.getLast?_eq_none_iff.mp hlead)
    have halpha : c.isAlpha = true := by
      apply hfirst.letters
      rw [hearly]
      exact List.mem_append_left _ (List.mem_of_getLast? hc)
    have hno := h.apart c hc
    rw [isAlphanum_of_isAlpha halpha] at hno
    cases hno

/-- Of two names in a text the second one stands behind the first. -/
theorem NamedPart.Stands.behind {first part : NamedPart} {lead text : List Char}
    (hfirst : first.Stands [] text) (h : part.Stands lead text) (hlead : lead ≠ []) :
    ∃ late, part.Stands late first.rest ∧ late.length < lead.length := by
  rcases hfirst.eq_append with ⟨blanks, hblanks, htext⟩
  rcases h.eq_append with ⟨between, -, hpart⟩
  obtain ⟨x, letters, hx⟩ := List.exists_cons_of_ne_nil h.letters_ne_nil
  have htext : text = first.letters ++ (first.digits ++ (blanks ++ ['='])) ++ first.rest := by
    simpa using htext
  -- no name begins within another one, so the first one ends within the lead
  have hbefore : first.letters ++ (first.digits ++ (blanks ++ ['='])) <+: lead := by
    rcases List.prefix_or_prefix_of_prefix ⟨_, htext.symm⟩ ⟨_, hpart.symm⟩ with
      hbefore | ⟨_ | ⟨y, more⟩, hwithin⟩
    · exact hbefore
    · exact ⟨[], by rw [List.append_nil, ← hwithin, List.append_nil]⟩
    · have hy : y = x := by
        rw [htext, ← hwithin, List.append_assoc, List.append_cancel_left_eq, hx] at hpart
        exact (List.cons.inj hpart).1
      have halpha : y.isAlpha = true := by
        apply h.letters
        rw [hy, hx]
        exact List.mem_cons_self
      exact absurd hwithin.symm (h.not_within hlead halpha hfirst hblanks)
  rcases hbefore with ⟨late, rfl⟩
  rw [htext] at h
  refine ⟨late, h.of_append, ?_⟩
  simp only [List.length_append, List.length_singleton]
  omega

/-- A name that stands in a text is found there. -/
theorem NamedPart.Stands.mem_namedPartsFrom {part : NamedPart} {glued : Bool}
    {lead text : List Char} (h : part.Stands lead text) (hglued : lead = [] → glued = false) :
    part ∈ namedPartsFrom glued text := by
  induction hn : lead.length using Nat.strongRecOn generalizing glued lead text with
  | ind n ih =>
    cases lead with
    | nil =>
      have hpart := namedPart?_eq_some_iff.mpr h
      cases text with
      | nil => cases hpart
      | cons c text =>
        rw [hglued rfl, namedPartsFrom_of_some hpart]
        exact List.mem_cons_self
    | cons c lead =>
      rw [List.length_cons] at hn
      rcases h.eq_append with ⟨blanks, hblanks, rfl⟩
      by_cases hnone : glued = true ∨ namedPart? (c :: (lead ++ (part.letters ++
          (part.digits ++ (blanks ++ '=' :: part.rest))))) = none
      · -- no name begins at this character, and the one that is sought stands behind it
        rw [List.cons_append, namedPartsFrom_of_none hnone]
        refine ih lead.length (by omega) (@NamedPart.Stands.of_append part [c] lead _ h) ?_ rfl
        intro hlead
        exact h.apart c (by rw [hlead]; rfl)
      · rw [not_or, Bool.not_eq_true] at hnone
        rcases Option.ne_none_iff_exists'.mp hnone.2 with ⟨first, hsome⟩
        rw [List.cons_append, hnone.1, namedPartsFrom_of_some hsome]
        apply List.mem_cons_of_mem
        -- the part found first ends before the other one begins
        rcases (stands_of_namedPart? hsome).behind h (List.cons_ne_nil c lead) with
          ⟨late, hstands, hshorter⟩
        rw [List.length_cons] at hshorter
        exact ih late.length (by omega) hstands (fun _ => rfl) rfl

/-- The names that are found in a fragment are those that stand in it. -/
theorem mem_namedParts_iff {fragment : List Char} {part : NamedPart} :
    part ∈ namedParts fragment ↔ ∃ lead, part.Stands lead fragment := by
  constructor
  · intro hpart
    rcases stands_of_mem hpart with ⟨lead, hstands, -⟩
    exact ⟨lead, hstands⟩
  · rintro ⟨lead, hstands⟩
    exact hstands.mem_namedPartsFrom fun _ => rfl

/-! ## What a fragment gives -/

/-- The search for a known name ends at the first part whose name is not just unknown. -/
theorem firstKnown_eq_iff {parts : List NamedPart}
    {found : Except IntegerFault (Option (AttributeName × List Char))} (h : found ≠ .ok none) :
    firstKnown parts = found ↔ ∃ before part after, parts = before ++ part :: after ∧
      (∀ other ∈ before, AttributeName.read other.letters other.digits = .ok none) ∧
      (AttributeName.read part.letters part.digits).map (Option.map (·, part.rest)) = found := by
  induction parts with
  | nil => exact iff_of_false (fun hfound => h hfound.symm) (by simp)
  | cons part parts ih =>
    -- an unknown name is passed over, any other one decides
    by_cases hread : AttributeName.read part.letters part.digits = .ok none
    · have hfirst : firstKnown (part :: parts) = firstKnown parts := by
        rw [firstKnown, hread]
        rfl
      rw [hfirst, ih]
      constructor
      · rintro ⟨before, last, after, rfl, hbefore, hlast⟩
        exact ⟨part :: before, last, after, rfl, List.forall_mem_cons.mpr ⟨hread, hbefore⟩, hlast⟩
      · rintro ⟨_ | ⟨first, before⟩, last, after, hsplit, hbefore, hlast⟩
        · obtain ⟨rfl, -⟩ := List.cons.inj hsplit
          rw [hread] at hlast
          exact absurd hlast.symm h
        · obtain ⟨-, rfl⟩ := List.cons.inj hsplit
          exact ⟨before, last, after, rfl, (List.forall_mem_cons.mp hbefore).2, hlast⟩
    · have hfirst : firstKnown (part :: parts) =
          (AttributeName.read part.letters part.digits).map (Option.map (·, part.rest)) := by
        rw [firstKnown]
        rcases hname : AttributeName.read part.letters part.digits with fault | _ | name
        · rfl
        · exact absurd hname hread
        · rfl
      rw [hfirst]
      constructor
      · exact fun hfound => ⟨[], part, parts, rfl, List.forall_mem_nil _, hfound⟩
      · rintro ⟨_ | ⟨first, before⟩, last, after, hsplit, hbefore, hlast⟩
        · obtain ⟨rfl, -⟩ := List.cons.inj hsplit
          exact hlast
        · obtain ⟨rfl, -⟩ := List.cons.inj hsplit
          exact absurd (hbefore part List.mem_cons_self) hread

theorem map_read_eq_some_iff {part : NamedPart} {name : AttributeName} {rest : List Char} :
    (AttributeName.read part.letters part.digits).map (Option.map (·, part.rest)) =
        .ok (some (name, rest)) ↔
      AttributeName.read part.letters part.digits = .ok (some name) ∧ part.rest = rest := by
  rcases AttributeName.read part.letters part.digits with fault | _ | other
  · simp [Except.map]
  · simp [Except.map]
  · simp [Except.map]

/-- The first known name of a fragment is a name that stands there, behind unknown ones only. -/
theorem firstKnown_namedParts_iff {fragment rest : List Char} {name : AttributeName} :
    firstKnown (namedParts fragment) = .ok (some (name, rest)) ↔
      ∃ before part after lead, namedParts fragment = before ++ part :: after ∧
        (∀ other ∈ before, AttributeName.read other.letters other.digits = .ok none) ∧
        AttributeName.read part.letters part.digits = .ok (some name) ∧
        part.Stands lead fragment ∧ part.rest = rest := by
  rw [firstKnown_eq_iff (by simp)]
  constructor
  · rintro ⟨before, part, after, hsplit, hbefore, hread⟩
    obtain ⟨hread, hrest⟩ := map_read_eq_some_iff.mp hread
    have hmem : part ∈ namedParts fragment := hsplit ▸ List.mem_append_cons_self
    rcases mem_namedParts_iff.mp hmem with ⟨lead, hstands⟩
    exact ⟨before, part, after, lead, hsplit, hbefore, hread, hstands, hrest⟩
  · rintro ⟨before, part, after, lead, hsplit, hbefore, hread, -, hrest⟩
    exact ⟨before, part, after, hsplit, hbefore, map_read_eq_some_iff.mpr ⟨hread, hrest⟩⟩

/-- A known name has a value if two quotes stand behind it: the text between the first two. -/
theorem given_eq_attribute_iff {name other : AttributeName} {rest value : List Char} :
    given name rest = .attribute other value ↔
      other = name ∧ ∃ gap tail, '"' ∉ gap ∧ '"' ∉ value ∧
        rest = gap ++ '"' :: (value ++ '"' :: tail) := by
  rw [given, after?_eq_cut?]
  constructor
  · intro h
    cases hgap : cut? '"' rest with
    | none =>
      rw [hgap] at h
      cases h
    | some pair =>
      obtain ⟨gap, quoted⟩ := pair
      rw [hgap] at h
      cases hvalue : cut? '"' quoted with
      | none => simp [hvalue] at h
      | some pair =>
        obtain ⟨found, tail⟩ := pair
        simp only [Option.map_some, hvalue] at h
        cases h
        obtain ⟨rfl, hopening⟩ := cut?_eq_some.mp hgap
        obtain ⟨rfl, hclosing⟩ := cut?_eq_some.mp hvalue
        exact ⟨rfl, gap, tail, hopening, hclosing, rfl⟩
  · rintro ⟨rfl, gap, tail, hopening, hclosing, rfl⟩
    simp only [cut?_append hopening, Option.map_some, cut?_append hclosing]

/-- A fragment gives an attribute if it holds a known name and two quotes stand behind the first of
them; the value is the text between these. -/
theorem outcome_eq_attribute_iff {fragment value : List Char} {name : AttributeName} :
    outcome fragment = .ok (.attribute name value) ↔
      ∃ gap tail, '"' ∉ gap ∧ '"' ∉ value ∧ firstKnown (namedParts fragment) =
        .ok (some (name, gap ++ '"' :: (value ++ '"' :: tail))) := by
  by_cases hparts : namedParts fragment = []
  · rw [outcome, hparts]
    refine iff_of_false ?_ (by simp [firstKnown])
    simp only [Except.ok.injEq]
    split <;> simp
  · rw [outcome_eq hparts]
    rcases firstKnown (namedParts fragment) with fault | _ | ⟨known, rest⟩
    · simp [Except.map]
    · simp [Except.map]
    · simp only [Except.map, Option.map_some, Option.getD_some, Except.ok.injEq,
        given_eq_attribute_iff, Option.some.injEq, Prod.mk.injEq]
      constructor
      · rintro ⟨rfl, gap, tail, hgap, hvalue, rfl⟩
        exact ⟨gap, tail, hgap, hvalue, rfl, rfl⟩
      · rintro ⟨gap, tail, hgap, hvalue, rfl, rfl⟩
        exact ⟨rfl, gap, tail, hgap, hvalue, rfl⟩

/-- A fragment that gives an attribute holds its name, and the value is what stands between the next
two quotes. -/
theorem exists_of_outcome {fragment value : List Char} {name : AttributeName}
    (h : outcome fragment = .ok (.attribute name value)) :
    ∃ (part : NamedPart) (lead gap tail : List Char), part.Stands lead fragment ∧
      AttributeName.read part.letters part.digits = .ok (some name) ∧
      firstKnown (namedParts fragment) = .ok (some (name, part.rest)) ∧
      '"' ∉ gap ∧ '"' ∉ value ∧ part.rest = gap ++ '"' :: (value ++ '"' :: tail) := by
  rcases outcome_eq_attribute_iff.mp h with ⟨gap, tail, hgap, hvalue, hknown⟩
  rcases firstKnown_namedParts_iff.mp hknown with
    ⟨before, part, after, lead, -, -, hread, hstands, hrest⟩
  exact ⟨part, lead, gap, tail, hstands, hread, hrest ▸ hknown, hgap, hvalue, hrest⟩

/-! ## What a record keeps of its fragments -/

theorem get?_addFragment_self (name : AttributeName) (attributes : Entries String Datum)
    (fragment value : List Char) :
    Entries.get? name.text (addFragment attributes (fragment, .attribute name value)) =
      some (.text (String.ofList value)) :=
  Entries.get?_put_self _ _ _

theorem get?_addFragment_of_ne {name : AttributeName} {outcome : Outcome}
    (h : ∀ value, outcome ≠ .attribute name value) (attributes : Entries String Datum)
    (fragment : List Char) :
    Entries.get? name.text (addFragment attributes (fragment, outcome)) =
      attributes.get? name.text := by
  have hdelete : name.text ≠ deleteKey := AttributeName.text_ne_delete name
  have hmarked : Entries.get? name.text (if marksDeletion fragment then
      Entries.put deleteKey (Datum.bool true) attributes else attributes) =
      attributes.get? name.text := by
    split
    · exact Entries.get?_put_of_ne hdelete _ _
    · rfl
  rcases outcome with ⟨other, value⟩ | reason | _
  · have htext : name.text ≠ other.text := by
      intro heq
      exact h value (by rw [AttributeName.text_injective heq])
    rw [addFragment, Entries.get?_put_of_ne htext, hmarked]
  · exact hmarked
  · exact hmarked

/-- Where an item stands in a list with one more item at its end. -/
theorem append_singleton_eq_append_cons {α : Type} {items before after : List α} {last x : α} :
    items ++ [last] = before ++ x :: after ↔
      (after = [] ∧ items = before ∧ last = x) ∨
        ∃ more, after = more ++ [last] ∧ items = before ++ x :: more := by
  rcases List.eq_nil_or_concat' after with rfl | ⟨more, other, rfl⟩
  · rw [List.append_singleton_inj]
    simp
  · rw [← List.cons_append, ← List.append_assoc, List.append_singleton_inj]
    constructor
    · rintro ⟨rfl, rfl⟩
      exact Or.inr ⟨more, rfl, rfl⟩
    · rintro (⟨hnil, -⟩ | ⟨more', hmore, rfl⟩)
      · simp at hnil
      · obtain ⟨rfl, rfl⟩ := List.append_singleton_inj.mp hmore
        exact ⟨rfl, rfl⟩

/-- A record has an attribute if and only if a fragment gives it and no later one gives it anew. -/
theorem get?_foldl_addFragment {name : AttributeName} {datum : Datum}
    {outcomes : List (List Char × Outcome)} :
    Entries.get? name.text (outcomes.foldl addFragment []) = some datum ↔
      ∃ before fragment value after,
        outcomes = before ++ (fragment, .attribute name value) :: after ∧
        datum = .text (String.ofList value) ∧
        ∀ entry ∈ after, ∀ other, entry.2 ≠ .attribute name other := by
  induction outcomes using List.reverseRecOn with
  | nil => simp [Entries.get?]
  | append_singleton outcomes entry ih =>
    obtain ⟨fragment, outcome⟩ := entry
    rw [List.foldl_append, List.foldl_cons, List.foldl_nil]
    by_cases hgives : ∃ value, outcome = .attribute name value
    · -- the last fragment decides
      rcases hgives with ⟨value, rfl⟩
      rw [get?_addFragment_self, Option.some.injEq]
      constructor
      · intro h
        exact ⟨outcomes, fragment, value, [], rfl, h.symm, by simp⟩
      · rintro ⟨before, f, v, after, hsplit, rfl, hlater⟩
        rcases append_singleton_eq_append_cons.mp hsplit with ⟨-, -, hlast⟩ | ⟨more, rfl, -⟩
        · cases hlast
          rfl
        · exact absurd rfl (hlater (fragment, .attribute name value) (by simp) value)
    · -- the last fragment changes nothing
      rw [get?_addFragment_of_ne fun value h => hgives ⟨value, h⟩, ih]
      constructor
      · rintro ⟨before, f, v, after, rfl, rfl, hlater⟩
        refine ⟨before, f, v, after ++ [(fragment, outcome)], by simp, rfl, ?_⟩
        refine List.forall_mem_append.mpr ⟨hlater, List.forall_mem_singleton.mpr ?_⟩
        exact fun other h => hgives ⟨other, h⟩
      · rintro ⟨before, f, v, after, hsplit, rfl, hlater⟩
        rcases append_singleton_eq_append_cons.mp hsplit with ⟨-, -, hlast⟩ | ⟨more, rfl, hitems⟩
        · exact absurd ⟨v, (Prod.mk.inj hlast).2⟩ hgives
        · exact ⟨before, f, v, more, hitems, rfl, (List.forall_mem_append.mp hlater).1⟩

/-- Going over a list gives a result for each item. -/
theorem mapM_eq_ok {α β ε : Type} {f : α → Except ε β} {items : List α} {found : List β} :
    items.mapM f = .ok found ↔
      List.Forall₂ (fun item value => f item = .ok value) items found := by
  induction items generalizing found with
  | nil => cases found <;> simp [pure, Except.pure]
  | cons item items ih =>
    rw [List.mapM_cons]
    cases hitem : f item with
    | error fault => cases found <;> simp [bind, Except.bind, hitem]
    | ok value =>
      cases hmore : items.mapM f with
      | error fault => cases found <;> simp [bind, Except.bind, ← ih, hmore, hitem]
      | ok more => cases found <;> simp [bind, Except.bind, pure, Except.pure, ← ih, hmore, hitem]

theorem exists_parts_eq (record : List Char) :
    ∃ base fragments, parts record = base :: fragments := by
  cases hparts : parts record with
  | nil => exact absurd hparts (List.splitOn_ne_nil _ _)
  | cons base fragments => exact ⟨base, fragments, rfl⟩

theorem outcomes_eq_ok {record : List Char} {found : List (List Char × Outcome)}
    (h : outcomes record = .ok found) :
    (parts record).drop 1 = found.map (·.1) ∧ ∀ entry ∈ found, outcome entry.1 = .ok entry.2 := by
  have hfound := mapM_eq_ok.mp h
  clear h
  generalize (parts record).drop 1 = fragments at hfound ⊢
  induction hfound with
  | nil => exact ⟨rfl, nofun⟩
  | @cons fragment entry fragments found hentry _ ih =>
    cases hgives : outcome fragment with
    | error fault =>
      rw [hgives] at hentry
      cases hentry
    | ok result =>
      rw [hgives] at hentry
      cases hentry
      refine ⟨congrArg (fragment :: ·) ih.1, fun entry hmem => ?_⟩
      rcases List.mem_cons.mp hmem with rfl | hmem
      · exact hgives
      · exact ih.2 entry hmem

/-- What was read of a record is assembled from what its fragments give. -/
theorem read_eq_ok {record : List Char} {r : Record} (h : read record = .ok r) :
    ∃ found, (parts record).drop 1 = found.map (·.1) ∧
      (∀ entry ∈ found, outcome entry.1 = .ok entry.2) ∧ r = assemble record found := by
  rw [read] at h
  cases hfound : outcomes record with
  | error fault =>
    rw [hfound] at h
    cases h
  | ok found =>
    rw [hfound] at h
    cases h
    have hpairs := outcomes_eq_ok hfound
    exact ⟨found, hpairs.1, hpairs.2, rfl⟩

/-- An attribute of a record was given by a fragment, and its value is a text. -/
theorem exists_of_kept {record : List Char} {r : Record} (h : read record = .ok r)
    {name : AttributeName} {datum : Datum} (hkept : r.attributes.get? name.text = some datum) :
    ∃ base before fragment after value,
      parts record = base :: (before ++ fragment :: after) ∧
      outcome fragment = .ok (.attribute name value) ∧
      datum = .text (String.ofList value) := by
  rcases read_eq_ok h with ⟨found, hfragments, houtcome, rfl⟩
  rcases get?_foldl_addFragment.mp hkept with ⟨before, fragment, value, after, rfl, rfl, -⟩
  rcases exists_parts_eq record with ⟨base, fragments, hparts⟩
  rw [hparts, List.drop_succ_cons, List.drop_zero, List.map_append, List.map_cons] at hfragments
  exact ⟨base, before.map (·.1), fragment, after.map (·.1), value, by rw [hparts, hfragments],
    houtcome (fragment, .attribute name value) (by simp), rfl⟩

/-- An attribute that a fragment gives is kept if no later fragment gives it anew. -/
theorem kept_of_last {record : List Char} {r : Record} (h : read record = .ok r)
    {base fragment value : List Char} {before after : List (List Char)} {name : AttributeName}
    (hparts : parts record = base :: (before ++ fragment :: after))
    (hgives : outcome fragment = .ok (.attribute name value))
    (hlater : ∀ later ∈ after, ∀ other, outcome later ≠ .ok (.attribute name other)) :
    r.attributes.get? name.text = some (.text (String.ofList value)) := by
  rcases read_eq_ok h with ⟨found, hfragments, houtcome, rfl⟩
  rw [hparts, List.drop_succ_cons, List.drop_zero] at hfragments
  rcases List.map_eq_append_iff.mp hfragments.symm with ⟨front, back, rfl, -, hback⟩
  rcases List.map_eq_cons_iff.mp hback with ⟨entry, more, rfl, rfl, hmore⟩
  have hentry := houtcome entry (by simp)
  rw [hgives, Except.ok.injEq] at hentry
  refine get?_foldl_addFragment.mpr ⟨front, entry.1, value, more, ?_, rfl, ?_⟩
  · rw [hentry]
  · intro e he other heq
    have hout := houtcome e (by simp [he])
    rw [heq] at hout
    exact hlater e.1 (by rw [← hmore]; exact List.mem_map_of_mem he) other hout

/-! ## All records of a text -/

theorem exists_of_mem_left {α β : Type} {R : α → β → Prop} {items : List α} {values : List β}
    (h : List.Forall₂ R items values) {item : α} (hitem : item ∈ items) :
    ∃ value ∈ values, R item value := by
  induction h with
  | nil => cases hitem
  | @cons first value items values hfirst _ ih =>
    rcases List.mem_cons.mp hitem with rfl | hitem
    · exact ⟨value, List.mem_cons_self, hfirst⟩
    · rcases ih hitem with ⟨other, hother, hrelated⟩
      exact ⟨other, List.mem_cons_of_mem _ hother, hrelated⟩

theorem readAll_eq_ok {text : List Char} {records : List Record} :
    readAll text = .ok records ↔
      ∃ all, List.Forall₂ (fun record r => read record = .ok r) (texts text) all ∧
        records = all.filter hasBaseType := by
  rw [readAll]
  cases hall : (texts text).mapM read with
  | error fault =>
    constructor
    · intro h
      cases h
    · rintro ⟨all, h, -⟩
      rw [mapM_eq_ok.mpr h] at hall
      cases hall
  | ok all =>
    constructor
    · intro h
      cases h
      exact ⟨all, mapM_eq_ok.mp hall, rfl⟩
    · rintro ⟨other, h, rfl⟩
      rw [mapM_eq_ok.mpr h, Except.ok.injEq] at hall
      rw [hall]
      rfl

theorem hasBaseType_iff {r : Record} : hasBaseType r = true ↔ r.baseType ≠ "" := by
  simp [hasBaseType]

/-- Where all records of a text are read each of them is, and is kept if it has a base type. -/
theorem exists_read {text : List Char} {records : List Record} (h : readAll text = .ok records)
    {record : List Char} (hrecord : record ∈ texts text) :
    ∃ r, read record = .ok r ∧ (r.baseType ≠ "" → r ∈ records) := by
  rcases readAll_eq_ok.mp h with ⟨all, hall, rfl⟩
  rcases exists_of_mem_left hall hrecord with ⟨r, hr, hread⟩
  exact ⟨r, hread, fun hbase => List.mem_filter.mpr ⟨hr, hasBaseType_iff.mpr hbase⟩⟩

theorem exists_text {text : List Char} {records : List Record} (h : readAll text = .ok records)
    {r : Record} (hr : r ∈ records) :
    r.baseType ≠ "" ∧ ∃ record ∈ texts text, read record = .ok r := by
  rcases readAll_eq_ok.mp h with ⟨all, hall, rfl⟩
  obtain ⟨hmem, hbase⟩ := List.mem_filter.mp hr
  exact ⟨hasBaseType_iff.mp hbase, exists_of_mem_left hall.flip hmem⟩

end Sheetwright.Record
