import Sheetwright.Proofs.Entries
import Sheetwright.Proofs.Text.Reflow
import Sheetwright.Proofs.Text.Word
import Sheetwright.Record.Reader
/-!
# Reading reflowed records

Names, digits, equals signs, quotes, semicolons and brackets are no blanks, and the reader asks for
nothing else. A record whose text is reflowed is therefore read as the same record, with its base
type and its values reflowed (`read_reflow`), and fails to be read for the same reason.
-/

namespace Sheetwright

open Text

/-! ## Reflowed records -/

/-- A datum with its text as it reads on one line. -/
def Datum.reflow : Datum → Datum
  | .text s => .text (reflowed s)
  | datum => datum

/-- A datum that reads as a text is a text. -/
theorem Datum.exists_of_reflow {datum : Datum} {line : List Char}
    (h : datum.reflow = .text (String.ofList line)) :
    ∃ s, datum = .text s ∧ Text.reflow s.toList = line := by
  cases datum with
  | text s =>
    rw [Datum.reflow, Datum.text.injEq] at h
    refine ⟨s, rfl, ?_⟩
    simpa [reflowed] using congrArg String.toList h
  | _ => cases h

namespace Record

/-- A record with its texts as they read on one line. -/
def reflow (r : Record) : Record :=
  { baseType := reflowed r.baseType
    attributes := r.attributes.map fun (name, value) => (name, value.reflow)
    rawText := reflowed r.rawText }

/-- A named part whose rest is read on one line. -/
def NamedPart.reflow (part : NamedPart) : NamedPart := { part with rest := Text.reflow part.rest }

/-- What a fragment gives, read on one line. -/
def Outcome.reflow : Outcome → Outcome
  | .attribute name value => .attribute name (Text.reflow value)
  | outcome => outcome

/-! ## Names -/

theorem namedPart?_reflow (text : List Char) :
    namedPart? (Text.reflow text) = (namedPart? text).map NamedPart.reflow := by
  have hletters : ∀ c, Char.isAlpha c = true → isBlank c = false :=
    fun _ => isBlank_eq_false_of_isAlpha
  have hdigits : ∀ c, Text.isDigit c = true → isBlank c = false :=
    fun _ => isBlank_eq_false_of_isDigit
  simp only [namedPart?, takeWhile_reflow_of_not_blank hletters,
    dropWhile_reflow_of_not_blank hletters, takeWhile_reflow_of_not_blank hdigits,
    dropWhile_reflow_of_not_blank hdigits, trimStart_reflow]
  generalize text.takeWhile Char.isAlpha = letters
  generalize (text.dropWhile Char.isAlpha).takeWhile Text.isDigit = digits
  generalize trimStart ((text.dropWhile Char.isAlpha).dropWhile Text.isDigit) = sign
  cases letters with
  | nil => rfl
  | cons letter letters =>
    have hsign : isBlank '=' = false := rfl
    -- an equals sign is no blank, so it stands first in both texts or in neither
    by_cases hfound : ∃ rest, sign = '=' :: rest
    · rcases hfound with ⟨rest, rfl⟩
      simp [hsign, NamedPart.reflow]
    · have hreflow : ∀ rest, Text.reflow sign ≠ '=' :: rest := by
        intro rest hrest
        rcases (reflow_eq_cons hsign).mp hrest with ⟨rest', rfl, -⟩
        exact hfound ⟨rest', rfl⟩
      split
      · exact absurd ‹_› (hreflow _)
      · split
        · exact absurd ⟨_, rfl⟩ hfound
        · rfl

theorem namedPartsFrom_of_none {glued : Bool} {c : Char} {rest : List Char}
    (h : glued = true ∨ namedPart? (c :: rest) = none) :
    namedPartsFrom glued (c :: rest) = namedPartsFrom c.isAlphanum rest := by
  have hnone : (if glued then none else namedPart? (c :: rest)) = none :=
    ite_eq_left_iff.mpr h.resolve_left
  rw [namedPartsFrom]
  split
  next hpart => rw [hnone] at hpart; cases hpart
  next => rfl

theorem namedPartsFrom_of_some {c : Char} {rest : List Char} {part : NamedPart}
    (h : namedPart? (c :: rest) = some part) :
    namedPartsFrom false (c :: rest) = part :: namedPartsFrom false part.rest := by
  rw [namedPartsFrom]
  split
  next found hfound =>
    obtain rfl : part = found := by simpa [h] using hfound
    rfl
  next hnone => simp [h] at hnone

/-- No name begins with a blank, and a blank separates names. -/
theorem namedPartsFrom_run {run : List Char} (h : allBlank run = true) (glued : Bool)
    (text : List Char) :
    namedPartsFrom glued (run ++ text) = namedPartsFrom (glued && run.isEmpty) text := by
  induction run generalizing glued with
  | nil => simp
  | cons c run ih =>
    simp only [allBlank_cons, Bool.and_eq_true] at h
    have hnone : namedPart? (c :: (run ++ text)) = none := by
      have halpha : c.isAlpha = false := by
        by_contra halpha
        simp [isBlank_eq_false_of_isAlpha (by simpa using halpha)] at h
      simp [namedPart?, halpha]
    rw [List.cons_append, namedPartsFrom_of_none (Or.inr hnone), ih h.2, isAlphanum_of_isBlank h.1]
    simp

theorem namedPartsFrom_reflow (glued : Bool) (text : List Char) :
    namedPartsFrom glued (Text.reflow text) = (namedPartsFrom glued text).map NamedPart.reflow := by
  induction hn : text.length using Nat.strongRecOn generalizing glued text with
  | ind n ih =>
    rcases allBlank_or_exists text with hrun | ⟨run, x, rest, hrun, hx, rfl⟩
    · have hleft := namedPartsFrom_run (allBlank_settle hrun) glued []
      have hright := namedPartsFrom_run hrun glued []
      rw [List.append_nil] at hleft hright
      rw [reflow_of_allBlank hrun, hleft, hright]
      simp [namedPartsFrom]
    · have hpart := namedPart?_reflow (x :: rest)
      rw [reflow_cons hx] at hpart
      rw [reflow_run hrun hx, namedPartsFrom_run (allBlank_settle hrun), namedPartsFrom_run hrun,
        isEmpty_settle]
      simp only [List.length_append, List.length_cons] at hn
      by_cases hnone : (glued && run.isEmpty) = true ∨ namedPart? (x :: rest) = none
      · -- no name begins here
        have hnone' : (glued && run.isEmpty) = true ∨
            namedPart? (x :: Text.reflow rest) = none := by
          simpa [hpart] using hnone
        rw [namedPartsFrom_of_none hnone, namedPartsFrom_of_none hnone']
        exact ih rest.length (by omega) x.isAlphanum rest rfl
      · rw [not_or, Bool.not_eq_true] at hnone
        rcases Option.ne_none_iff_exists'.mp hnone.2 with ⟨part, hsome⟩
        rw [hsome, Option.map_some] at hpart
        rw [hnone.1, namedPartsFrom_of_some hsome, namedPartsFrom_of_some hpart, List.map_cons]
        have hlength := namedPart?_length hsome
        rw [List.length_cons] at hlength
        exact congrArg _ (ih part.rest.length (by omega) false part.rest rfl)

theorem namedParts_reflow (fragment : List Char) :
    namedParts (Text.reflow fragment) = (namedParts fragment).map NamedPart.reflow :=
  namedPartsFrom_reflow false fragment

/-! ## Fragments -/

theorem firstKnown_reflow (parts : List NamedPart) :
    firstKnown (parts.map NamedPart.reflow) =
      (firstKnown parts).map (Option.map fun (name, rest) => (name, Text.reflow rest)) := by
  induction parts with
  | nil => rfl
  | cons part parts ih =>
    simp only [List.map_cons, firstKnown, ih, NamedPart.reflow]
    cases AttributeName.read part.letters part.digits with
    | error fault => rfl
    | ok name? => cases name? <;> rfl

theorem isBlank_of_mem_deleteMarker : ∀ c ∈ deleteMarker.toList, isBlank c = false := by
  have hmarker : deleteMarker.toList.all (!isBlank ·) = true := by decide
  simpa using hmarker

theorem marksDeletion_reflow (fragment : List Char) :
    marksDeletion (Text.reflow fragment) = marksDeletion fragment :=
  holds_reflow isBlank_of_mem_deleteMarker fragment

theorem marksDeletion_trim (fragment : List Char) :
    marksDeletion (trim fragment) = marksDeletion fragment :=
  holds_trim isBlank_of_mem_deleteMarker fragment

/-- What a known name gives with the text after its equals sign. -/
def given (name : AttributeName) (rest : List Char) : Outcome :=
  match after? '"' rest with
  | none => .dropped .missingOpeningQuote
  | some quoted => match cut? '"' quoted with
    | none => .dropped .unterminatedValue
    | some (value, _) => .attribute name value

theorem given_reflow (name : AttributeName) (rest : List Char) :
    given name (Text.reflow rest) = (given name rest).reflow := by
  have hquote : isBlank '"' = false := rfl
  rw [given, given, after?_reflow hquote]
  cases after? '"' rest with
  | none => rfl
  | some quoted =>
    simp only [Option.map_some, cut?_reflow hquote]
    cases cut? '"' quoted <;> rfl

theorem outcome_eq {fragment : List Char} (h : namedParts fragment ≠ []) :
    outcome fragment = (firstKnown (namedParts fragment)).map fun known? =>
      (known?.map fun (name, rest) => given name rest).getD (.dropped .unknownAttribute) := by
  rw [outcome]
  cases hparts : namedParts fragment with
  | nil => exact absurd hparts h
  | cons part parts =>
    simp only
    cases firstKnown (part :: parts) with
    | error fault => rfl
    | ok known? =>
      cases known? with
      | none => rfl
      | some known =>
        obtain ⟨name, rest⟩ := known
        change (match after? '"' rest with | none => _ | some quoted => _) =
          Except.ok (given name rest)
        rw [given]
        cases after? '"' rest with
        | none => rfl
        | some quoted => cases hcut : cut? '"' quoted <;> simp [hcut] <;> rfl

theorem outcome_reflow (fragment : List Char) :
    outcome (Text.reflow fragment) = (outcome fragment).map Outcome.reflow := by
  by_cases hparts : namedParts fragment = []
  · rw [outcome, outcome, namedParts_reflow, hparts]
    simp only [List.map_nil, allBlank_reflow, trim_reflow, marksDeletion_reflow]
    split <;> rfl
  · rw [outcome_eq hparts, outcome_eq (by simpa [namedParts_reflow] using hparts),
      namedParts_reflow, firstKnown_reflow]
    cases firstKnown (namedParts fragment) with
    | error fault => rfl
    | ok known? =>
      cases known? with
      | none => rfl
      | some known => exact congrArg Except.ok (given_reflow known.1 known.2)

/-! ## Records -/

theorem mapM_map {α β γ δ ε : Type} {f : α → β} {g : γ → δ} {read : α → Except ε γ}
    {read' : β → Except ε δ} (h : ∀ a, read' (f a) = (read a).map g) (items : List α) :
    (items.map f).mapM read' = (items.mapM read).map (List.map g) := by
  induction items with
  | nil => rfl
  | cons item items ih =>
    rw [List.map_cons, List.mapM_cons, List.mapM_cons, h, ih]
    cases read item with
    | error fault => rfl
    | ok value => cases items.mapM read <;> rfl

/-- The brackets of a record are what its body goes without. -/
theorem body_bracketed (body : List Char) : Record.body ('<' :: body ++ ['>']) = body := by
  have hlast : ('<' :: body ++ ['>']).getLast? = some '>' := List.getLast?_concat
  have hfirst : ('<' :: body ++ ['>']).dropLast = '<' :: body := List.dropLast_concat
  rw [Record.body, trim_bounded rfl rfl]
  simp only [hlast, if_pos, hfirst]

theorem reflow_bracketed (body : List Char) :
    Text.reflow ('<' :: body ++ ['>']) = '<' :: Text.reflow body ++ ['>'] := by
  have hopening : isBlank '<' = false := rfl
  rw [List.cons_append, reflow_cons hopening, reflow_append_cons rfl, reflow_nil, List.cons_append]

theorem intercalate_parts (body : List Char) :
    [';'].intercalate (parts ('<' :: body ++ ['>'])) = body := by
  rw [parts, body_bracketed, List.intercalate_splitOn]

theorem parts_reflow (body : List Char) : parts (Text.reflow ('<' :: body ++ ['>'])) =
    (parts ('<' :: body ++ ['>'])).map Text.reflow := by
  rw [reflow_bracketed, parts, parts, body_bracketed, body_bracketed, splitOn_reflow rfl]

theorem outcomes_reflow (body : List Char) : outcomes (Text.reflow ('<' :: body ++ ['>'])) =
    (outcomes ('<' :: body ++ ['>'])).map
      (List.map fun (fragment, outcome) => (Text.reflow fragment, outcome.reflow)) := by
  rw [outcomes, outcomes, parts_reflow, ← List.map_drop]
  refine mapM_map ?_ _
  intro fragment
  rw [outcome_reflow]
  cases outcome fragment <;> rfl

theorem put_map_reflow (name : String) (value : Datum) (attributes : Entries String Datum) :
    Entries.put name value.reflow (attributes.map fun (name, value) => (name, value.reflow)) =
      (attributes.put name value).map fun (name, value) => (name, value.reflow) := by
  induction attributes with
  | nil => rfl
  | cons entry attributes ih =>
    obtain ⟨other, datum⟩ := entry
    by_cases hname : (other == name) = true
    · simp [Entries.put, hname]
    · simp [Entries.put, hname, ih]

theorem addFragment_reflow (attributes : Entries String Datum) (fragment : List Char)
    (outcome : Outcome) :
    addFragment (attributes.map fun (name, value) => (name, value.reflow))
        (Text.reflow fragment, outcome.reflow) =
      (addFragment attributes (fragment, outcome)).map fun (name, value) =>
        (name, value.reflow) := by
  -- joining lines keeps the marker in sight, so both sides mark the same fragments
  have hmarked : (if marksDeletion (Text.reflow fragment) then
      Entries.put deleteKey (.bool true)
        (attributes.map fun (name, value) => (name, Datum.reflow value))
      else attributes.map fun (name, value) => (name, value.reflow)) =
        (if marksDeletion fragment then Entries.put deleteKey (.bool true) attributes
          else attributes).map fun (name, value) => (name, value.reflow) := by
    rw [marksDeletion_reflow]
    split
    · exact put_map_reflow deleteKey (.bool true) attributes
    · rfl
  rcases outcome with ⟨name, value⟩ | reason | _
  · have hvalue : Datum.text (String.ofList (Text.reflow value)) =
        (Datum.text (String.ofList value)).reflow := by
      simp [Datum.reflow, reflowed]
    rw [Outcome.reflow, addFragment, addFragment, hmarked, hvalue, put_map_reflow]
  · exact hmarked
  · exact hmarked

theorem foldl_addFragment_reflow (outcomes : List (List Char × Outcome))
    (attributes : Entries String Datum) :
    (outcomes.map fun (fragment, outcome) => (Text.reflow fragment, outcome.reflow)).foldl
        addFragment (attributes.map fun (name, value) => (name, value.reflow)) =
      (outcomes.foldl addFragment attributes).map fun (name, value) => (name, value.reflow) := by
  induction outcomes generalizing attributes with
  | nil => rfl
  | cons outcome outcomes ih =>
    rw [List.map_cons, List.foldl_cons, List.foldl_cons, addFragment_reflow, ih]

theorem assemble_reflow (body : List Char) (outcomes : List (List Char × Outcome)) :
    assemble (Text.reflow ('<' :: body ++ ['>']))
        (outcomes.map fun (fragment, outcome) => (Text.reflow fragment, outcome.reflow)) =
      (assemble ('<' :: body ++ ['>']) outcomes).reflow := by
  have hfirst : ∀ parts : List (List Char),
      (parts.map Text.reflow).headD [] = Text.reflow (parts.headD []) := by
    intro parts
    cases parts <;> rfl
  have hattributes := foldl_addFragment_reflow outcomes []
  rw [List.map_nil] at hattributes
  rw [assemble, assemble, Record.reflow, parts_reflow, hfirst, trim_reflow, trim_reflow,
    hattributes]
  simp [reflowed]

/-- A reflowed record text is read as the reflowed record. -/
theorem read_reflow (body : List Char) : read (Text.reflow ('<' :: body ++ ['>'])) =
    (read ('<' :: body ++ ['>'])).map Record.reflow := by
  rw [read, read, outcomes_reflow]
  cases outcomes ('<' :: body ++ ['>']) with
  | error fault => rfl
  | ok found => exact congrArg Except.ok (assemble_reflow body found)

theorem get?_reflow (r : Record) (name : String) :
    r.reflow.attributes.get? name = (r.attributes.get? name).map Datum.reflow := by
  obtain ⟨baseType, attributes, rawText⟩ := r
  change Entries.get? name (attributes.map fun (name, value) => (name, value.reflow)) = _
  induction attributes with
  | nil => rfl
  | cons entry attributes ih =>
    obtain ⟨other, datum⟩ := entry
    rw [List.map_cons]
    by_cases hname : name = other
    · rw [hname, Entries.get?_cons_self, Entries.get?_cons_self, Option.map_some]
    · rw [Entries.get?_cons_of_ne hname, Entries.get?_cons_of_ne hname, ih]

theorem hasBaseType_reflow (r : Record) : hasBaseType r.reflow = hasBaseType r := by
  rw [hasBaseType, hasBaseType, Bool.eq_iff_iff]
  simp [Record.reflow, reflowed, ← String.toList_eq_nil_iff]

end Record

end Sheetwright
