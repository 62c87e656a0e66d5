import Sheetwright.Proofs.Code
import Sheetwright.Proofs.Record.Spans
import Sheetwright.Proofs.Validation.Scan
import Sheetwright.Validation
/-!
# Legible records

Validation scans the text of a record as it stands; the reader cuts it at its semicolons and takes
the first known name of each fragment. The two find the same value where the fragment is written
plainly: no value that the scan finds earlier runs over the name, no letter stands in front of it,
and nothing but blanks stands between the equals sign and the value. A record is legible for a scan
if each of its fragments that gives an attribute the scan looks for is written so
(`Pattern.Legible`), and then every value that the record keeps is among those that the scan finds
(`Pattern.Legible.mem_values`).
-/

namespace Sheetwright.Validation

open Record Text

/-! ## Fragments -/

/-- A scan together with the attributes it looks for and the way their names have to be written: the
name with its index and blanks, and what stands between the equals sign and the opening quote. -/
structure Pattern where
  scanner : Scanner
  concerns : AttributeName → Bool
  isPlain : (sign gap : List Char) → Bool
  opens_of_isPlain : ∀ {name : AttributeName} {letters digits blanks gap : List Char},
    concerns name = true → AttributeName.read letters digits = .ok (some name) →
    (∀ c ∈ letters, c.isAlpha = true) → (∀ c ∈ digits, isDigit c = true) →
    allBlank blanks = true → isPlain (letters ++ (digits ++ blanks)) gap = true →
    scanner.opens (letters ++ (digits ++ (blanks ++ '=' :: gap))) = true

/-- The text before a name at the end of a text; blanks and an index may stand behind the name. -/
def stem (front : List Char) : List Char :=
  (((front.reverse.dropWhile isBlank).dropWhile isDigit).dropWhile Char.isAlpha).reverse

namespace Pattern

variable (p : Pattern)

/-- A fragment behind some text of a record writes its attribute plainly, if it gives one that the
scan looks for: the scan comes to its name outside of every value and behind no letter, and it is
written as the scan asks. -/
def isLegibleBehind (seen fragment : List Char) : Bool :=
  match firstKnown (namedParts fragment) with
  | .ok (some (name, rest)) =>
    match cut? '"' rest with
    | none => true
    | some (gap, _) =>
      let front := fragment.take (fragment.length - rest.length - 1)
      let lead := seen ++ stem front
      !p.concerns name ||
        (p.scanner.isFree lead && p.isPlain (front.drop (stem front).length) gap)
  | _ => true

/-- Each fragment in turn is legible behind the text before it. -/
def areLegibleBehind (seen : List Char) : List (List Char) → Bool
  | [] => true
  | fragment :: more =>
    p.isLegibleBehind seen fragment && areLegibleBehind (seen ++ (fragment ++ [';'])) more

/-- Every fragment of a record that gives an attribute the scan looks for is written plainly. -/
def Legible (record : List Char) : Prop :=
  p.areLegibleBehind ('<' :: (parts record).headD [] ++ [';']) ((parts record).drop 1) = true

instance (record : List Char) : Decidable (p.Legible record) :=
  inferInstanceAs (Decidable (_ = _))

variable {p}

theorem isLegibleBehind_of_append {seen fragment : List Char} {before after : List (List Char)}
    (h : p.areLegibleBehind seen (before ++ fragment :: after) = true) :
    p.isLegibleBehind (seen ++ before.flatMap (· ++ [';'])) fragment = true := by
  induction before generalizing seen with
  | nil =>
    rw [List.nil_append, areLegibleBehind, Bool.and_eq_true] at h
    simpa using h.1
  | cons first before ih =>
    rw [List.cons_append, areLegibleBehind, Bool.and_eq_true] at h
    simpa using ih h.2

end Pattern

/-- The text before a name is what is left when the name, its index and the blanks behind it are
taken off. -/
theorem stem_append {lead letters digits blanks : List Char}
    (hlead : ∀ c, lead.getLast? = some c → c.isAlphanum = false) (hletters : letters ≠ [])
    (halpha : ∀ c ∈ letters, c.isAlpha = true) (hdigits : ∀ c ∈ digits, isDigit c = true)
    (hblanks : allBlank blanks = true) :
    stem (lead ++ (letters ++ (digits ++ blanks))) = lead := by
  -- read backwards, the letters stop the digits and the blanks, and the lead stops the letters
  have hname : ∀ c, (letters.reverse ++ lead.reverse).head? = some c → c.isAlpha = true := by
    intro c hc
    have hne : letters.reverse ≠ [] := by simpa using hletters
    rw [List.head?_append_of_ne_nil _ hne, List.head?_reverse] at hc
    exact halpha c (List.mem_of_getLast? hc)
  have hdrop : ((lead ++ (letters ++ (digits ++ blanks))).reverse.dropWhile isBlank) =
      digits.reverse ++ (letters.reverse ++ lead.reverse) := by
    have hsplit : (lead ++ (letters ++ (digits ++ blanks))).reverse =
        blanks.reverse ++ (digits.reverse ++ (letters.reverse ++ lead.reverse)) := by simp
    rw [hsplit, dropWhile_append_head]
    · exact fun c hc => allBlank_iff.mp hblanks c (List.mem_reverse.mp hc)
    · intro c hc
      cases hback : digits.reverse with
      | nil =>
        rw [hback] at hc
        exact isBlank_eq_false_of_isAlpha (hname c hc)
      | cons d more =>
        rw [hback] at hc
        obtain rfl : d = c := by simpa using hc
        have hd : d ∈ digits.reverse := by rw [hback]; exact List.mem_cons_self
        exact isBlank_eq_false_of_isDigit (hdigits d (List.mem_reverse.mp hd))
  rw [stem, hdrop, dropWhile_append_head, dropWhile_append_head, List.reverse_reverse]
  · exact fun c hc => halpha c (List.mem_reverse.mp hc)
  · intro c hc
    rw [List.head?_reverse] at hc
    have hnot := hlead c hc
    simp only [Char.isAlphanum, Bool.or_eq_false_iff] at hnot
    exact hnot.1
  · exact fun c hc => hdigits c (List.mem_reverse.mp hc)
  · exact fun c hc => isDigit_of_isAlpha (hname c hc)

/-! ## Values that are kept -/

/-- A record seen from one of its fragments. -/
theorem record_eq_append {body base fragment : List Char} {before after : List (List Char)}
    (h : parts ('<' :: body ++ ['>']) = base :: (before ++ fragment :: after)) :
    '<' :: body ++ ['>'] = ('<' :: base ++ [';']) ++ before.flatMap (· ++ [';']) ++
      (fragment ++ (after.flatMap (';' :: ·) ++ ['>'])) := by
  have hsplit := intercalate_append_cons ';' (base :: before) after fragment
  rw [List.cons_append, ← h, intercalate_parts] at hsplit
  rw [hsplit]
  simp

namespace Pattern

variable {p : Pattern}

/-- A legible fragment writes its attribute as the scan asks, where the scan comes to it. -/
theorem exists_of_isLegibleBehind {seen fragment value : List Char} {name : AttributeName}
    (h : p.isLegibleBehind seen fragment = true) (hname : p.concerns name = true)
    (hgives : outcome fragment = .ok (.attribute name value)) :
    ∃ lead sign tail, fragment = lead ++ (sign ++ '"' :: (value ++ '"' :: tail)) ∧
      p.scanner.isFree (seen ++ lead) = true ∧ p.scanner.opens sign = true ∧
      '"' ∉ sign ∧ '"' ∉ value := by
  rcases exists_of_outcome hgives with
    ⟨part, lead, gap, tail, hstands, hread, hknown, hgap, hvalue, hrest⟩
  rcases hstands.eq_append with ⟨blanks, hblanks, hfragment⟩
  have hsplit :
      fragment = (lead ++ (part.letters ++ (part.digits ++ blanks))) ++ '=' :: part.rest := by
    simpa using hfragment
  -- legibility is checked on the fragment itself: there the name and its lead are found again
  have hfront : fragment.take (fragment.length - part.rest.length - 1) =
      lead ++ (part.letters ++ (part.digits ++ blanks)) := by
    have hlength := congrArg List.length hsplit
    rw [List.length_append, List.length_cons] at hlength
    rw [hsplit]
    refine List.take_left' ?_
    rw [← hsplit]
    omega
  have hstem : stem (lead ++ (part.letters ++ (part.digits ++ blanks))) = lead :=
    stem_append hstands.apart hstands.letters_ne_nil hstands.letters hstands.digits hblanks
  have hcut : cut? '"' part.rest = some (gap, value ++ '"' :: tail) := by
    rw [hrest, cut?_append hgap]
  rw [isLegibleBehind, hknown] at h
  simp only [hcut, hfront, hstem, hname, Bool.not_true, Bool.false_or, Bool.and_eq_true,
    List.drop_left] at h
  obtain ⟨hfree, hplain⟩ := h
  refine ⟨lead, part.letters ++ (part.digits ++ (blanks ++ '=' :: gap)), tail, ?_, hfree, ?_, ?_,
    hvalue⟩
  · rw [hfragment, hrest]
    simp
  · exact p.opens_of_isPlain hname hread hstands.letters hstands.digits hblanks hplain
  · simp only [List.mem_append, List.mem_cons, not_or]
    refine ⟨fun h => ?_, fun h => ?_, fun h => ?_, by decide, hgap⟩
    · exact absurd (hstands.letters _ h) (by decide)
    · exact absurd (hstands.digits _ h) (by decide)
    · exact absurd (allBlank_iff.mp hblanks _ h) (by decide)

/-- A value that a legible record keeps is one that the scan finds in its text. -/
theorem Legible.mem_values {body : List Char} (hlegible : p.Legible ('<' :: body ++ ['>']))
    {r : Record} (hread : Record.read ('<' :: body ++ ['>']) = .ok r) {name : AttributeName}
    (hname : p.concerns name = true) {datum : Datum}
    (hkept : r.attributes.get? name.text = some datum) :
    ∃ value, datum = .text (String.ofList value) ∧
      value ∈ p.scanner.values ('<' :: body ++ ['>']) := by
  rcases exists_of_kept hread hkept with ⟨base, before, fragment, after, value, hparts, hgives, rfl⟩
  refine ⟨value, rfl, ?_⟩
  rw [Legible, hparts, List.headD_cons, List.drop_succ_cons, List.drop_zero] at hlegible
  have hbehind := isLegibleBehind_of_append hlegible
  rcases exists_of_isLegibleBehind hbehind hname hgives with
    ⟨lead, sign, tail, rfl, hfree, hopens, hsign, hvalue⟩
  have hmem := Scanner.mem_valuesFrom hfree hsign hopens hvalue
    (tail ++ (after.flatMap (';' :: ·) ++ ['>']))
  have hrecord : '<' :: body ++ ['>'] =
      '<' :: base ++ [';'] ++ before.flatMap (· ++ [';']) ++ lead ++
        (sign ++ '"' :: (value ++ '"' :: (tail ++ (after.flatMap (';' :: ·) ++ ['>'])))) := by
    rw [record_eq_append hparts]
    simp
  rw [Scanner.values, hrecord]
  exact hmem

end Pattern

/-! ## Rows, drivers and the label of a tab -/

theorem isSign_append {blanks : List Char} (hblanks : allBlank blanks = true) (gap : List Char) :
    isSign (blanks ++ '=' :: gap) = allBlank gap := by
  have hsign : isBlank '=' = false := rfl
  rw [isSign, trimStart_append hblanks, trimStart_cons hsign]
  rfl

/-- An indexed name as the reader knows it is one as the scan knows it. -/
theorem isIndexed_of_read {letters digits blanks gap : List Char} {g : Group} {i : Nat}
    (hread : AttributeName.read letters digits = .ok (some (.slot g i)))
    (halpha : ∀ c ∈ letters, c.isAlpha = true) (hdigits : ∀ c ∈ digits, isDigit c = true)
    (hblanks : allBlank blanks = true) :
    isIndexed g.name.toList (letters ++ (digits ++ (blanks ++ '=' :: gap))) = allBlank gap := by
  rcases AttributeName.read_eq_slot hread with ⟨hword, hne, -, -, -⟩
  have hstop : ∀ c, (blanks ++ '=' :: gap).head? = some c → isDigit c = false := by
    intro c hc
    cases blanks with
    | nil =>
      obtain rfl : '=' = c := by simpa using hc
      decide
    | cons d blanks =>
      obtain rfl : d = c := by simpa using hc
      by_contra hdigit
      have hblank := isBlank_eq_false_of_isDigit (by simpa using hdigit)
      rw [allBlank_cons, hblank] at hblanks
      cases hblanks
  have hdrop := dropWhile_append_head hdigits hstop
  have htake : (digits ++ (blanks ++ '=' :: gap)).takeWhile isDigit = digits := by
    have hboth := List.takeWhile_append_dropWhile (p := isDigit)
      (l := digits ++ (blanks ++ '=' :: gap))
    rw [hdrop] at hboth
    exact List.append_cancel_right hboth
  rw [isIndexed, afterWord?_of_toLower hword halpha]
  simp [htake, hdrop, hne, isSign_append hblanks]

/-- The values of an indexed name: blanks only stand between the equals sign and the value. -/
def indexedPattern (g : Group) (hword : g.name.toList ≠ []) : Pattern where
  scanner := indexedScanner g.name.toList hword
  concerns
    | .slot other _ => other == g
    | _ => false
  isPlain _ gap := allBlank gap
  opens_of_isPlain := by
    intro name letters digits blanks gap hconcerns hread halpha hdigits hblanks hgap
    split at hconcerns
    next other i =>
      obtain rfl : other = g := by simpa using hconcerns
      exact (isIndexed_of_read hread halpha hdigits hblanks).trans hgap
    next => cases hconcerns

def rowPattern : Pattern := indexedPattern .row (by decide)

def driverPattern : Pattern := indexedPattern .driver (by decide)

/-- The label of a tab: it is written `label1` or `Label1`, and blanks only stand between the equals
sign and the value. -/
def labelPattern : Pattern where
  scanner := labelScanner
  concerns
    | .slot .label 1 => true
    | _ => false
  isPlain sign gap := isLabel (sign ++ '=' :: gap)
  opens_of_isPlain := by
    intro name letters digits blanks gap _ _ _ _ _ hplain
    have hopens : isLabel (letters ++ (digits ++ (blanks ++ '=' :: gap))) = true := by
      simpa using hplain
    exact hopens

end Sheetwright.Validation
