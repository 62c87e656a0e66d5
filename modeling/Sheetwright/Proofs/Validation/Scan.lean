import Sheetwright.Proofs.Text.Anchor
import Sheetwright.Proofs.Text.Word
import Sheetwright.Validation.Value
/-!
# Scanning for quoted values

Validation looks for row values, for driver values and for the label of a tab. These are three uses
of one scan: it goes over a text from left to right, and where what stands before the next quote is
what it looks for (`Scanner.opens`), and no letter stands in front of it (`Scanner.glues`), it takes
the text up to the following quote as a value and goes on behind it.

The scan does not know which quotes belong together, so a value that it finds may run over a name.
Behind a text in which it ends outside of every value and behind no letter (`Scanner.isFree`) it
finds every value that is written as it asks: `Scanner.mem_valuesFrom`.
-/

namespace Sheetwright.Validation

open Text

/-! ## Scanners -/

/-- What a scan looks for before a quote, and which characters in front of it hide it. -/
structure Scanner where
  opens : List Char → Bool
  glues : Char → Bool
  opens_nil : opens [] = false
  glues_quote : glues '"' = false

namespace Scanner

variable (s : Scanner) {lead value after : List Char}

/-- The value that begins at the beginning of a text, and what stands behind it. -/
def valueAt? (text : List Char) : Option (List Char × List Char) :=
  (cut? '"' text).bind fun (lead, quoted) => if s.opens lead then cut? '"' quoted else none

theorem valueAt?_append (hlead : '"' ∉ lead) (quoted : List Char) :
    s.valueAt? (lead ++ '"' :: quoted) = if s.opens lead then cut? '"' quoted else none := by
  rw [valueAt?, cut?_append hlead, Option.bind_some]

theorem valueAt?_of_not_mem (h : '"' ∉ lead) : s.valueAt? lead = none := by
  rw [valueAt?, cut?_eq_none.mpr h, Option.bind_none]

variable {s} in
theorem valueAt?_eq_some {text : List Char} : s.valueAt? text = some (value, after) ↔
    ∃ sign, s.opens sign = true ∧ '"' ∉ sign ∧ '"' ∉ value ∧
      text = sign ++ '"' :: (value ++ '"' :: after) := by
  constructor
  · intro h
    by_cases hmem : '"' ∈ text
    · rcases List.eq_append_cons_of_mem hmem with ⟨sign, quoted, rfl, hsign⟩
      rw [s.valueAt?_append hsign] at h
      split at h
      next hopens =>
        obtain ⟨rfl, hvalue⟩ := cut?_eq_some.mp h
        exact ⟨sign, hopens, hsign, hvalue, rfl⟩
      next => cases h
    · rw [s.valueAt?_of_not_mem hmem] at h
      cases h
  · rintro ⟨sign, hopens, hsign, hvalue, rfl⟩
    rw [s.valueAt?_append hsign, if_pos hopens, cut?_append hvalue]

theorem valueAt?_length {text : List Char} (h : s.valueAt? text = some (value, after)) :
    after.length < text.length := by
  rcases valueAt?_eq_some.mp h with ⟨sign, -, -, -, rfl⟩
  simp only [List.length_append, List.length_cons]
  omega

/-- The values that a scan finds; the flag tells whether a character in front hides what begins at
the beginning of the text. -/
def valuesFrom (glued : Bool) (text : List Char) : List (List Char) :=
  match text with
  | [] => []
  | c :: rest =>
    match _h : if glued then none else s.valueAt? (c :: rest) with
    | some (value, after) => value :: valuesFrom false after
    | none => valuesFrom (s.glues c) rest
termination_by text.length
decreasing_by
  · split at _h
    · cases _h
    · exact s.valueAt?_length _h
  · simp

def values (text : List Char) : List (List Char) := s.valuesFrom false text

/-- Induction along a scan: it goes on to the next character where nothing is found, and behind the
value where one is. -/
theorem scan_induction {motive : Bool → List Char → Prop} (nil : ∀ glued, motive glued [])
    (skip : ∀ glued c rest, glued = true ∨ s.valueAt? (c :: rest) = none →
      motive (s.glues c) rest → motive glued (c :: rest))
    (found : ∀ c rest value after, s.valueAt? (c :: rest) = some (value, after) →
      motive false after → motive false (c :: rest))
    (glued : Bool) (text : List Char) : motive glued text := by
  induction hn : text.length using Nat.strongRecOn generalizing glued text with
  | ind n ih =>
    cases text with
    | nil => exact nil glued
    | cons c rest =>
      rw [List.length_cons] at hn
      by_cases hnone : glued = true ∨ s.valueAt? (c :: rest) = none
      · exact skip glued c rest hnone (ih rest.length (by omega) _ rest rfl)
      · rw [not_or, Bool.not_eq_true] at hnone
        obtain ⟨rfl, hfound⟩ := hnone
        rcases Option.ne_none_iff_exists'.mp hfound with ⟨⟨value, after⟩, hsome⟩
        have hlength := s.valueAt?_length hsome
        rw [List.length_cons] at hlength
        exact found c rest value after hsome (ih after.length (by omega) false after rfl)

theorem valuesFrom_of_none {glued : Bool} {c : Char} {rest : List Char}
    (h : glued = true ∨ s.valueAt? (c :: rest) = none) :
    s.valuesFrom glued (c :: rest) = s.valuesFrom (s.glues c) rest := by
  have hnone : (if glued then none else s.valueAt? (c :: rest)) = none :=
    ite_eq_left_iff.mpr h.resolve_left
  rw [valuesFrom]
  split
  next hfound => rw [hnone] at hfound; cases hfound
  next => rfl

theorem valuesFrom_of_some {c : Char} {rest : List Char}
    (h : s.valueAt? (c :: rest) = some (value, after)) :
    s.valuesFrom false (c :: rest) = value :: s.valuesFrom false after := by
  rw [valuesFrom]
  split
  next hfound =>
    rw [if_neg Bool.false_ne_true, h] at hfound
    cases hfound
    rfl
  next hfound =>
    rw [if_neg Bool.false_ne_true, h] at hfound
    cases hfound

/-! ## What stands in front -/

/-- A value begins at the beginning of a text and does not end in it. -/
def runsOver (text : List Char) : Bool :=
  (cut? '"' text).any fun (lead, quoted) => s.opens lead && !quoted.contains '"'

/-- The scan of a text ends outside of every value that it finds, and behind no character that hides
what follows. -/
def isFreeFrom (glued : Bool) (text : List Char) : Bool :=
  match text with
  | [] => !glued
  | c :: rest =>
    if !glued && s.runsOver (c :: rest) then false
    else match _h : if glued then none else s.valueAt? (c :: rest) with
      | some (_, after) => isFreeFrom false after
      | none => isFreeFrom (s.glues c) rest
termination_by text.length
decreasing_by
  · split at _h
    · cases _h
    · exact s.valueAt?_length _h
  · simp

def isFree (text : List Char) : Bool := s.isFreeFrom false text

theorem isFreeFrom_of_none {glued : Bool} {c : Char} {rest : List Char}
    (h : glued = true ∨ s.valueAt? (c :: rest) = none)
    (hfree : s.isFreeFrom glued (c :: rest) = true) :
    s.isFreeFrom (s.glues c) rest = true := by
  have hnone : (if glued then none else s.valueAt? (c :: rest)) = none :=
    ite_eq_left_iff.mpr h.resolve_left
  rw [isFreeFrom] at hfree
  split at hfree
  · cases hfree
  · split at hfree
    next hfound => rw [hnone] at hfound; cases hfound
    next => exact hfree

theorem isFreeFrom_of_some {c : Char} {rest : List Char}
    (h : s.valueAt? (c :: rest) = some (value, after))
    (hfree : s.isFreeFrom false (c :: rest) = true) :
    s.isFreeFrom false after = true := by
  rw [isFreeFrom] at hfree
  split at hfree
  · cases hfree
  · split at hfree
    next hfound =>
      rw [if_neg Bool.false_ne_true, h] at hfound
      cases hfound
      exact hfree
    next hfound =>
      rw [if_neg Bool.false_ne_true, h] at hfound
      cases hfound

theorem not_runsOver {c : Char} {rest : List Char} (hfree : s.isFreeFrom false (c :: rest) = true) :
    s.runsOver (c :: rest) = false := by
  by_contra hover
  rw [isFreeFrom] at hfree
  simp [hover] at hfree

variable {s}

/-- What is found at the beginning of a text is found there when the text goes on. -/
theorem valueAt?_append_of_some {text : List Char} (h : s.valueAt? text = some (value, after))
    (more : List Char) : s.valueAt? (text ++ more) = some (value, after ++ more) := by
  rcases valueAt?_eq_some.mp h with ⟨sign, hopens, hsign, hvalue, rfl⟩
  exact valueAt?_eq_some.mpr ⟨sign, hopens, hsign, hvalue, by simp⟩

/-- Where nothing is found before a quote nothing is found when the text goes on. -/
theorem valueAt?_append_of_none {text : List Char} (hmem : '"' ∈ text)
    (h : s.valueAt? text = none) (hover : s.runsOver text = false) (more : List Char) :
    s.valueAt? (text ++ more) = none := by
  rcases List.eq_append_cons_of_mem hmem with ⟨front, quoted, rfl, hfront⟩
  rw [List.append_assoc, List.cons_append, s.valueAt?_append hfront]
  rw [s.valueAt?_append hfront] at h
  rw [runsOver, cut?_append hfront] at hover
  split
  next hopens =>
    rw [if_pos hopens, cut?_eq_none] at h
    simp [hopens, h] at hover
  next => rfl

/-- A value that is written as the scan asks is found at the beginning of a text. -/
theorem mem_valuesFrom_sign {sign : List Char} (hsign : '"' ∉ sign) (hopens : s.opens sign = true)
    (hvalue : '"' ∉ value) (tail : List Char) :
    value ∈ s.valuesFrom false (sign ++ '"' :: (value ++ '"' :: tail)) := by
  cases sign with
  | nil =>
    rw [s.opens_nil] at hopens
    cases hopens
  | cons c sign =>
    have hfound :
        s.valueAt? (c :: (sign ++ '"' :: (value ++ '"' :: tail))) = some (value, tail) :=
      valueAt?_eq_some.mpr ⟨c :: sign, hopens, hsign, hvalue, rfl⟩
    rw [List.cons_append, s.valuesFrom_of_some hfound]
    exact List.mem_cons_self

/-- Where what the scan asks for begins before the name, the same value is found. -/
theorem mem_valuesFrom_early {sign : List Char} (hnone : s.valueAt? lead = none)
    (hover : s.runsOver lead = false) (hsign : '"' ∉ sign) (hvalue : '"' ∉ value) (tail : List Char)
    (hfound : s.valueAt? (lead ++ (sign ++ '"' :: (value ++ '"' :: tail))) ≠ none) :
    value ∈ s.valuesFrom false (lead ++ (sign ++ '"' :: (value ++ '"' :: tail))) := by
  have hmem : '"' ∉ lead := fun hmem =>
    hfound (valueAt?_append_of_none hmem hnone hover _)
  have hfront : '"' ∉ lead ++ sign := by
    simp only [List.mem_append, not_or]
    exact ⟨hmem, hsign⟩
  have hearly : s.opens (lead ++ sign) = true := by
    by_contra hclosed
    have hat := s.valueAt?_append hfront (value ++ '"' :: tail)
    rw [if_neg hclosed, List.append_assoc] at hat
    exact hfound hat
  have hvalues := mem_valuesFrom_sign hfront hearly hvalue tail
  rwa [List.append_assoc] at hvalues

/-- A value is found behind every text in which the scan ends free. -/
theorem mem_valuesFrom {sign : List Char} {glued : Bool}
    (hfree : s.isFreeFrom glued lead = true) (hsign : '"' ∉ sign) (hopens : s.opens sign = true)
    (hvalue : '"' ∉ value) (tail : List Char) :
    value ∈ s.valuesFrom glued (lead ++ (sign ++ '"' :: (value ++ '"' :: tail))) := by
  induction glued, lead using s.scan_induction with
  | nil glued =>
    obtain rfl : glued = false := by
      rw [isFreeFrom] at hfree
      simpa using hfree
    exact mem_valuesFrom_sign hsign hopens hvalue tail
  | skip glued c lead hnone ih =>
    have hrest := ih (s.isFreeFrom_of_none hnone hfree)
    by_cases hall : glued = true ∨
        s.valueAt? (c :: (lead ++ (sign ++ '"' :: (value ++ '"' :: tail)))) = none
    · rw [List.cons_append, s.valuesFrom_of_none hall]
      exact hrest
    · rw [not_or, Bool.not_eq_true] at hall
      obtain ⟨rfl, hall⟩ := hall
      replace hnone : s.valueAt? (c :: lead) = none := by simpa using hnone
      exact mem_valuesFrom_early hnone (s.not_runsOver hfree) hsign hvalue tail hall
  | found c lead inner after hfound ih =>
    have hall := valueAt?_append_of_some hfound (sign ++ '"' :: (value ++ '"' :: tail))
    rw [List.cons_append] at hall ⊢
    rw [s.valuesFrom_of_some hall]
    exact List.mem_cons_of_mem _ (ih (s.isFreeFrom_of_some hfound hfree))

end Scanner

/-! ## Rows, drivers and labels -/

/-- An equals sign with nothing but blanks around it. -/
def isSign (text : List Char) : Bool :=
  match trimStart text with
  | '=' :: gap => allBlank gap
  | _ => false

theorem assigned?_append {lead : List Char} (hlead : '"' ∉ lead) (quoted : List Char) :
    assigned? (lead ++ '"' :: quoted) = if isSign lead then cut? '"' quoted else none := by
  have hquote : isBlank '"' = false := rfl
  rcases allBlank_or_exists lead with hrun | ⟨run, x, rest, hrun, hx, rfl⟩
  · simp [assigned?, isSign, trimStart_append hrun, trimStart_of_allBlank hrun, hquote]
  · rw [List.append_assoc, List.cons_append, assigned?, isSign, trimStart_append hrun,
      trimStart_append hrun, trimStart_cons hx, trimStart_cons hx]
    by_cases hsign : x = '='
    · subst hsign
      rcases allBlank_or_exists rest with hrun' | ⟨run', y, rest', hrun', hy, rfl⟩
      · simp [trimStart_append hrun', hquote, hrun']
      · have hne : y ≠ '"' := by
          rintro rfl
          simp at hlead
        simp [trimStart_append hrun', hy, hne]
    · simp [hsign]

theorem assigned?_of_not_mem {text : List Char} (h : '"' ∉ text) : assigned? text = none := by
  rw [assigned?]
  split
  next rest hrest =>
    split
    next quoted hquoted =>
      have hmem : '"' ∈ text := by
        have h1 : '"' ∈ trimStart rest := by rw [hquoted]; exact List.mem_cons_self
        have h2 : '"' ∈ trimStart text := by
          rw [hrest]
          exact List.mem_cons_of_mem _ ((List.dropWhile_sublist _).subset h1)
        exact (List.dropWhile_sublist _).subset h2
      exact absurd hmem h
    next => rfl
  next => rfl

/-- A word, digits and an equals sign, and blanks around the sign. -/
def isIndexed (word text : List Char) : Bool :=
  match afterWord? word text with
  | none => false
  | some rest => !(rest.takeWhile isDigit).isEmpty && isSign (rest.dropWhile isDigit)

theorem indexed?_append {word : List Char} (hword : ∀ w ∈ word, caseless '"' ≠ caseless w)
    {lead : List Char} (hlead : '"' ∉ lead) (quoted : List Char) :
    indexed? word (lead ++ '"' :: quoted) =
      if isIndexed word lead then cut? '"' quoted else none := by
  have hquote : isDigit '"' = false := by decide
  rw [indexed?, isIndexed, afterWord?_append_cons hword]
  cases hrest : afterWord? word lead with
  | none => rfl
  | some rest =>
    have hmem : '"' ∉ rest.dropWhile isDigit := fun h =>
      hlead ((afterWord?_suffix hrest).subset ((List.dropWhile_sublist _).subset h))
    simp only [Option.map_some, takeWhile_append_stop hquote, dropWhile_append_stop hquote,
      assigned?_append hmem]
    by_cases hdigits : (rest.takeWhile isDigit).isEmpty = true <;> simp [hdigits]

theorem indexed?_of_not_mem {word text : List Char} (h : '"' ∉ text) :
    indexed? word text = none := by
  rw [indexed?]
  split
  next => rfl
  next rest hrest =>
    split
    · rfl
    · refine assigned?_of_not_mem fun hmem => h ?_
      exact (afterWord?_suffix hrest).subset ((List.dropWhile_sublist _).subset hmem)

/-- The scan for the values of an indexed name. -/
def indexedScanner (word : List Char) (hword : word ≠ []) : Scanner where
  opens := isIndexed word
  glues := isWordLetter
  opens_nil := by
    cases word with
    | nil => exact absurd rfl hword
    | cons w word => rfl
  glues_quote := by decide

theorem valueAt?_indexedScanner {word : List Char} (hword : word ≠ [])
    (hquote : ∀ w ∈ word, caseless '"' ≠ caseless w) (text : List Char) :
    (indexedScanner word hword).valueAt? text = indexed? word text := by
  by_cases hmem : '"' ∈ text
  · rcases List.eq_append_cons_of_mem hmem with ⟨lead, quoted, rfl, hlead⟩
    rw [Scanner.valueAt?_append _ hlead, indexed?_append hquote hlead]
    rfl
  · rw [Scanner.valueAt?_of_not_mem _ hmem, indexed?_of_not_mem hmem]

theorem indexedValuesFrom_eq {word : List Char} (hword : word ≠ [])
    (hquote : ∀ w ∈ word, caseless '"' ≠ caseless w) (glued : Bool) (text : List Char) :
    indexedValuesFrom word glued text = (indexedScanner word hword).valuesFrom glued text := by
  have hempty : word.isEmpty = false := by simpa using hword
  induction glued, text using (indexedScanner word hword).scan_induction with
  | nil glued => rw [indexedValuesFrom, Scanner.valuesFrom]
  -- a glued place begins no name, whatever stands there
  | skip glued c rest hnone ih =>
    rw [Scanner.valuesFrom_of_none _ hnone, ← ih, indexedValuesFrom]
    rw [valueAt?_indexedScanner hword hquote] at hnone
    have hhidden : (if glued then none else indexed? word (c :: rest)) = none :=
      ite_eq_left_iff.mpr hnone.resolve_left
    split
    next hfound =>
      rw [hempty, Bool.or_false, hhidden] at hfound
      cases hfound
    next => rfl
  | found c rest value after hsome ih =>
    rw [Scanner.valuesFrom_of_some _ hsome, ← ih, indexedValuesFrom]
    rw [valueAt?_indexedScanner hword hquote] at hsome
    split
    next hfound =>
      rw [hempty, Bool.or_false, if_neg Bool.false_ne_true, hsome] at hfound
      cases hfound
      rfl
    next hfound =>
      rw [hempty, Bool.or_false, if_neg Bool.false_ne_true, hsome] at hfound
      cases hfound

theorem quote_not_in_word : ∀ word ∈ ["row".toList, "driver".toList],
    ∀ w ∈ word, caseless '"' ≠ caseless w := by
  have hall : ["row".toList, "driver".toList].all
      (fun word => word.all fun w => caseless '"' != caseless w) = true := by
    decide +kernel
  simpa using hall

/-- The scan for row values. -/
def rowScanner : Scanner := indexedScanner "row".toList (by decide)

/-- The scan for driver values. -/
def driverScanner : Scanner := indexedScanner "driver".toList (by decide)

theorem rowValues_eq (record : List Char) : rowValues record = rowScanner.values record :=
  indexedValuesFrom_eq _ (quote_not_in_word _ (by simp)) false record

theorem driverValues_eq (record : List Char) : driverValues record = driverScanner.values record :=
  indexedValuesFrom_eq _ (quote_not_in_word _ (by simp)) false record

/-- The first label of a tab before an equals sign: `label1` or `Label1`, and blanks around the
sign. -/
def isLabel : List Char → Bool
  | [] => false
  | c :: rest =>
    (c == 'l' || c == 'L') && "abel1".toList.isPrefixOf rest &&
      !((rest.drop 5).head?.map isDigit).getD false && isSign (rest.drop 5)

/-- The scan for the label of a tab, which takes the first value that is found. -/
def labelScanner : Scanner where
  opens := isLabel
  glues := Char.isAlpha
  opens_nil := rfl
  glues_quote := rfl

/-- The label at the beginning of a text. -/
def labelAt? (c : Char) (rest : List Char) : Option (List Char × List Char) :=
  if !(c == 'l' || c == 'L') || !"abel1".toList.isPrefixOf rest then none
  else if ((rest.drop 5).head?.map isDigit).getD false then none
  else assigned? (rest.drop 5)

theorem labelAt?_append {c : Char} {lead : List Char} (hlead : '"' ∉ lead) (quoted : List Char) :
    labelAt? c (lead ++ '"' :: quoted) = if isLabel (c :: lead) then cut? '"' quoted else none := by
  rw [labelAt?, isLabel, isPrefixOf_append_cons (by decide)]
  cases hprefix : "abel1".toList.isPrefixOf lead with
  | false => simp only [Bool.not_false, Bool.or_true, if_pos, Bool.and_false, Bool.false_and,
      Bool.false_eq_true, if_false]
  | true =>
    rcases List.isPrefixOf_iff_prefix.mp hprefix with ⟨more, rfl⟩
    have hmore : '"' ∉ more := fun hmem => hlead (List.mem_append_right _ hmem)
    have hdrop : ∀ back : List Char, ("abel1".toList ++ back).drop 5 = back :=
      fun _ => List.drop_left' rfl
    have hdigit : (((more ++ '"' :: quoted).head?.map isDigit).getD false) =
        ((more.head?.map isDigit).getD false) := by
      have hquote : isDigit '"' = false := by decide
      cases more with
      | nil => simp [hquote]
      | cons d more => rfl
    rw [List.append_assoc, hdrop, hdrop, hdigit, assigned?_append hmore]
    cases c == 'l' || c == 'L' with
    | false => rfl
    | true => cases (more.head?.map isDigit).getD false <;> rfl

theorem labelAt?_of_not_mem {c : Char} {rest : List Char} (h : '"' ∉ rest) :
    labelAt? c rest = none := by
  have hdrop : '"' ∉ rest.drop 5 := fun hmem => h (List.mem_of_mem_drop hmem)
  rw [labelAt?, assigned?_of_not_mem hdrop]
  simp

theorem valueAt?_labelScanner (c : Char) (rest : List Char) :
    labelScanner.valueAt? (c :: rest) = labelAt? c rest := by
  by_cases hmem : '"' ∈ c :: rest
  · rcases List.eq_append_cons_of_mem hmem with ⟨lead, quoted, hsplit, hlead⟩
    rw [hsplit, Scanner.valueAt?_append _ hlead]
    cases lead with
    | nil =>
      obtain ⟨rfl, rfl⟩ := List.cons.inj hsplit
      rfl
    | cons d lead =>
      rw [List.cons_append, List.cons.injEq] at hsplit
      obtain ⟨rfl, rfl⟩ := hsplit
      rw [labelAt?_append fun hmem => hlead (List.mem_cons_of_mem _ hmem)]
      rfl
  · rw [Scanner.valueAt?_of_not_mem _ hmem, labelAt?_of_not_mem]
    exact fun h => hmem (List.mem_cons_of_mem c h)

theorem tabLabelFrom?_of_none {glued : Bool} {c : Char} {rest : List Char}
    (h : glued = true ∨ labelAt? c rest = none) :
    tabLabelFrom? glued (c :: rest) = tabLabelFrom? c.isAlpha rest := by
  cases glued with
  | true => rfl
  | false =>
    have hnone : labelAt? c rest = none := by simpa using h
    rw [labelAt?] at hnone
    simp only [tabLabelFrom?, Bool.false_or, hnone]

theorem tabLabelFrom?_of_some {c : Char} {rest value after : List Char}
    (h : labelAt? c rest = some (value, after)) : tabLabelFrom? false (c :: rest) = some value := by
  rw [labelAt?] at h
  simp only [tabLabelFrom?, Bool.false_or, h]

theorem tabLabelFrom?_eq (glued : Bool) (text : List Char) :
    tabLabelFrom? glued text = (labelScanner.valuesFrom glued text).head? := by
  induction glued, text using labelScanner.scan_induction with
  | nil glued => rw [tabLabelFrom?, Scanner.valuesFrom, List.head?_nil]
  | skip glued c rest hnone ih =>
    rw [Scanner.valuesFrom_of_none _ hnone]
    rw [valueAt?_labelScanner] at hnone
    rw [tabLabelFrom?_of_none hnone]
    exact ih
  | found c rest value after hsome _ =>
    rw [Scanner.valuesFrom_of_some _ hsome, List.head?_cons]
    rw [valueAt?_labelScanner] at hsome
    exact tabLabelFrom?_of_some hsome

theorem tabLabel?_eq (record : List Char) : tabLabel? record = (labelScanner.values record).head? :=
  tabLabelFrom?_eq false record

end Sheetwright.Validation
