import Sheetwright.Proofs.Text.Word
import Sheetwright.Proofs.Text.Anchor
import Sheetwright.Text.Integer
/-!
# Texts that denote integers

The grammar of an integer in a text, on its own: blanks, a sign or none, runs of digits with a
single underscore between two of them, and blanks (`Denotes`). Reading accepts exactly what denotes
an integer with not too many digits (`readInteger_eq_ok_iff`). One number is denoted by many texts,
but one text denotes no two numbers (`Denotes.unique`).
-/

namespace Sheetwright.Text

variable {c : Char} {digits body rest : List Char} {text : String} {n : Int}

/-! ## The grammar -/

/-- Runs of digits with a single underscore between two of them, and all their digits. -/
def Grouped (digits body : List Char) : Prop :=
  ∃ groups : List (List Char), groups ≠ [] ∧
    (∀ group ∈ groups, group ≠ [] ∧ ∀ c ∈ group, isDigit c = true) ∧
    digits = groups.flatten ∧ body = ['_'].intercalate groups

/-- The number that digits make behind a sign. -/
inductive Signed (digits : List Char) : List Char → Int → Prop
  | bare : Signed digits [] (numeral digits)
  | plus : Signed digits ['+'] (numeral digits)
  | minus : Signed digits ['-'] (-(numeral digits : Int))

/-- A text denotes an integer with some digits. -/
def Denotes (text : String) (digits : List Char) (n : Int) : Prop :=
  ∃ lead sign body tail, text.toList = lead ++ ((sign ++ body) ++ tail) ∧
    allBlank lead = true ∧ allBlank tail = true ∧ Grouped digits body ∧ Signed digits sign n

/-! ## Runs of digits -/

theorem isDigit_underscore : isDigit '_' = false := by
  decide

/-- The first character is a digit. Behind it comes nothing, or what is grouped itself, with or
without an underscore in front. -/
theorem groupedDigits?_cons_iff :
    groupedDigits? (c :: rest) = some digits ↔
      isDigit c = true ∧ ∃ more, digits = c :: more ∧
        ((rest = [] ∧ more = []) ∨ groupedDigits? rest = some more ∨
          ∃ behind, rest = '_' :: behind ∧ groupedDigits? behind = some more) := by
  -- an underscore begins no group: it must follow a digit
  have hunderscore (behind : List Char) : groupedDigits? ('_' :: behind) = none := by
    unfold groupedDigits?
    split <;> grind [isDigit_underscore]
  have hmap (behind? : Option (List Char)) :
      (if isDigit c then behind?.map (c :: ·) else none) = some digits ↔
        isDigit c = true ∧ ∃ more, digits = c :: more ∧ behind? = some more := by
    split
    next hc => simp only [hc, true_and, Option.map_eq_some_iff, and_comm, eq_comm]
    next hc => exact iff_of_false nofun fun h => hc h.1
  have hnil : groupedDigits? [] = none := rfl
  conv_lhs => unfold groupedDigits?
  split
  next heq => cases heq
  next heq =>
    cases heq
    exact (hmap (some [])).trans (by grind)
  next heq =>
    cases heq
    rw [hmap]
    simp [hunderscore]
  next hne hother heq =>
    cases heq
    rw [hmap]
    grind

/-- Grouped digits begin with one of them. -/
theorem exists_cons_of_groupedDigits? (h : groupedDigits? body = some digits) :
    ∃ c rest, body = c :: rest ∧ isDigit c = true := by
  cases body with
  | nil => cases h
  | cons c rest => exact ⟨c, rest, rfl, (groupedDigits?_cons_iff.mp h).1⟩

/-- A run of digits, alone or in front of others. -/
theorem groupedDigits?_run {group : List Char} (hne : group ≠ [])
    (hgroup : ∀ c ∈ group, isDigit c = true) :
    groupedDigits? group = some group ∧ ∀ rest digits, groupedDigits? rest = some digits →
      groupedDigits? (group ++ '_' :: rest) = some (group ++ digits) := by
  induction group with
  | nil => exact absurd rfl hne
  | cons c group ih =>
    rw [List.forall_mem_cons] at hgroup
    cases group with
    | nil =>
      exact ⟨groupedDigits?_cons_iff.mpr ⟨hgroup.1, [], rfl, .inl ⟨rfl, rfl⟩⟩, fun rest digits h =>
        groupedDigits?_cons_iff.mpr ⟨hgroup.1, digits, rfl, .inr (.inr ⟨rest, rfl, h⟩)⟩⟩
    | cons d group =>
      rcases ih (List.cons_ne_nil _ _) hgroup.2 with ⟨halone, hfront⟩
      exact ⟨groupedDigits?_cons_iff.mpr ⟨hgroup.1, _, rfl, .inr (.inl halone)⟩,
        fun rest digits h =>
          groupedDigits?_cons_iff.mpr ⟨hgroup.1, _, rfl, .inr (.inl (hfront rest digits h))⟩⟩

theorem groupedDigits?_of_grouped (h : Grouped digits body) :
    groupedDigits? body = some digits := by
  obtain ⟨groups, hne, hgroups, rfl, rfl⟩ := h
  induction groups with
  | nil => exact absurd rfl hne
  | cons group groups ih =>
    rw [List.forall_mem_cons] at hgroups
    obtain ⟨⟨hgroup, hdigits⟩, hmore⟩ := hgroups
    cases groups with
    | nil => simpa using (groupedDigits?_run hgroup hdigits).1
    | cons next groups =>
      rw [List.intercalate_cons_cons, List.flatten_cons, List.append_assoc]
      exact (groupedDigits?_run hgroup hdigits).2 _ _ (ih (List.cons_ne_nil _ _) hmore)

/-- The first digit joins the run behind it, or it is a run of its own before an underscore. -/
theorem Grouped.cons (hc : isDigit c = true) (h : Grouped digits rest) :
    Grouped (c :: digits) (c :: rest) ∧ Grouped (c :: digits) (c :: '_' :: rest) := by
  obtain ⟨groups, hne, hgroups, rfl, rfl⟩ := h
  obtain ⟨group, groups, rfl⟩ := List.exists_cons_of_ne_nil hne
  have hone : [c] ≠ [] ∧ ∀ d ∈ [c], isDigit d = true :=
    ⟨List.cons_ne_nil _ _, List.forall_mem_singleton.mpr hc⟩
  constructor
  · rw [List.forall_mem_cons] at hgroups
    refine ⟨(c :: group) :: groups, List.cons_ne_nil _ _, List.forall_mem_cons.mpr
      ⟨⟨List.cons_ne_nil _ _, List.forall_mem_cons.mpr ⟨hc, hgroups.1.2⟩⟩, hgroups.2⟩, rfl, ?_⟩
    cases groups <;> simp [List.intercalate_cons_cons]
  · refine ⟨[c] :: group :: groups, List.cons_ne_nil _ _,
      List.forall_mem_cons.mpr ⟨hone, hgroups⟩, rfl, ?_⟩
    rw [List.intercalate_cons_cons]
    rfl

theorem groupedDigits?_eq_some_iff : groupedDigits? body = some digits ↔ Grouped digits body := by
  refine ⟨fun h => ?_, groupedDigits?_of_grouped⟩
  induction hn : body.length using Nat.strong_induction_on generalizing body digits with
  | h n ih =>
    cases body with
    | nil => cases h
    | cons c rest =>
      rw [List.length_cons] at hn
      obtain ⟨hc, more, rfl, hmore⟩ := groupedDigits?_cons_iff.mp h
      rcases hmore with ⟨rfl, rfl⟩ | hrest | ⟨behind, rfl, hbehind⟩
      · exact ⟨[[c]], List.cons_ne_nil _ _, by simpa using hc, rfl, by simp⟩
      · exact (Grouped.cons hc (ih rest.length (by omega) hrest rfl)).1
      · rw [List.length_cons] at hn
        exact (Grouped.cons hc (ih behind.length (by omega) hbehind rfl)).2

/-- Neither a digit nor an underscore is a blank. -/
theorem Grouped.isBlank_eq_false (h : Grouped digits body) : ∀ c ∈ body, isBlank c = false := by
  obtain ⟨groups, hne, hgroups, -, rfl⟩ := h
  intro c hc
  by_cases hunder : c = '_'
  · rw [hunder]
    rfl
  · by_contra hblank
    refine not_mem_intercalate hunder (fun group hgroup hmem => hblank ?_) hc
    exact isBlank_eq_false_of_isDigit ((hgroups group hgroup).2 c hmem)

/-! ## Reading -/

/-- Without its blanks, the text is the sign and the grouped digits. -/
theorem Denotes.exists_trim (h : Denotes text digits n) :
    ∃ sign body, trim text.toList = sign ++ body ∧ Grouped digits body ∧ Signed digits sign n := by
  obtain ⟨lead, sign, body, tail, htext, hlead, htail, hbody, hsign⟩ := h
  have hfilled : ∀ c ∈ sign, isBlank c = false := by
    cases hsign with
    | bare => exact List.forall_mem_nil _
    | plus => exact List.forall_mem_singleton.mpr rfl
    | minus => exact List.forall_mem_singleton.mpr rfl
  refine ⟨sign, body, ?_, hbody, hsign⟩
  rw [htext, trim_append hlead htail]
  exact trim_of_filled (List.forall_mem_append.mpr ⟨hfilled, hbody.isBlank_eq_false⟩)

/-- Grouped digits begin with no sign. -/
theorem Grouped.exists_cons (h : Grouped digits body) :
    ∃ c rest, body = c :: rest ∧ c ≠ '-' ∧ c ≠ '+' := by
  obtain ⟨c, rest, rfl, hc⟩ := exists_cons_of_groupedDigits? (groupedDigits?_of_grouped h)
  refine ⟨c, rest, rfl, ?_⟩
  constructor <;> (rintro rfl; revert hc; decide)

/-- A text that denotes an integer is read as it, unless it has too many digits. -/
theorem Denotes.readInteger_eq (h : Denotes text digits n) :
    readInteger text =
      if digitLimit < digits.length then .error (.tooLong digits.length) else .ok n := by
  obtain ⟨sign, body, htrim, hbody, hsign⟩ := h.exists_trim
  have hdigits := groupedDigits?_of_grouped hbody
  have hread (f : Int → Int) : (Nat.cast <$> readDigits digits).map f =
      if digitLimit < digits.length then .error (.tooLong digits.length)
      else .ok (f (numeral digits)) := by
    rw [readDigits]
    split <;> rfl
  rw [readInteger, htrim]
  cases hsign with
  | minus => simp [hdigits, hread]
  | plus => simp [hdigits, hread]
  | bare =>
    obtain ⟨c, rest, rfl, hne⟩ := hbody.exists_cons
    simp [hne, hdigits, hread]

/-- The sign and the body of a text without its blanks. -/
theorem exists_signed (text : String) :
    ∃ sign body, trim text.toList = sign ++ body ∧ (∀ digits, ∃ n, Signed digits sign n) ∧
      (groupedDigits? body = none → readInteger text = .error (.malformed text)) := by
  rw [readInteger]
  split
  next negative body hparts =>
    split at hparts
    next htrim =>
      cases hparts
      exact ⟨['-'], _, htrim, fun _ => ⟨_, .minus⟩, fun h => by rw [h]⟩
    next htrim =>
      cases hparts
      exact ⟨['+'], _, htrim, fun _ => ⟨_, .plus⟩, fun h => by rw [h]⟩
    next =>
      cases hparts
      exact ⟨[], trim text.toList, rfl, fun _ => ⟨_, .bare⟩, fun h => by rw [h]⟩

/-- A text that is not malformed denotes an integer. -/
theorem exists_denotes (h : readInteger text ≠ .error (.malformed text)) :
    ∃ digits n, Denotes text digits n := by
  obtain ⟨lead, tail, hlead, htail, htext⟩ := exists_trim_eq text.toList
  obtain ⟨sign, body, htrim, hsign, hmalformed⟩ := exists_signed text
  obtain ⟨digits, hdigits⟩ := Option.ne_none_iff_exists'.mp (mt hmalformed h)
  obtain ⟨n, hn⟩ := hsign digits
  exact ⟨digits, n, lead, sign, body, tail, htrim ▸ htext, hlead, htail,
    groupedDigits?_eq_some_iff.mp hdigits, hn⟩

theorem readInteger_eq_ok_iff :
    readInteger text = .ok n ↔ ∃ digits, Denotes text digits n ∧ digits.length ≤ digitLimit := by
  constructor
  · intro h
    have hread : readInteger text ≠ .error (.malformed text) := by
      rw [h]
      exact nofun
    obtain ⟨digits, m, hdenotes⟩ := exists_denotes hread
    have hvalue := hdenotes.readInteger_eq
    rw [h] at hvalue
    split at hvalue
    next => cases hvalue
    next hshort =>
      cases hvalue
      exact ⟨digits, hdenotes, not_lt.mp hshort⟩
  · rintro ⟨digits, hdenotes, hshort⟩
    rw [hdenotes.readInteger_eq, if_neg (not_lt.mpr hshort)]

/-! ## Spellings -/

/-- Digits alone denote their number. -/
theorem denotes_numeral (hne : digits ≠ []) (hdigits : ∀ c ∈ digits, isDigit c = true) :
    Denotes (String.ofList digits) digits (numeral digits) :=
  ⟨[], [], digits, [], by simp, rfl, rfl,
    ⟨[digits], List.cons_ne_nil _ _, List.forall_mem_singleton.mpr ⟨hne, hdigits⟩, by simp,
      by simp⟩, .bare⟩

theorem numeral_zeros (count : Nat) (digits : List Char) :
    numeral (List.replicate count '0' ++ digits) = numeral digits := by
  induction count with
  | zero => rfl
  | succ count ih =>
    rw [← ih, List.replicate_succ, List.cons_append, numeral, List.foldl_cons]
    rfl

/-- Zeros in front of digits make no difference to the number, but they are digits too. -/
theorem denotes_zeros (count : Nat) (hne : digits ≠ [])
    (hdigits : ∀ c ∈ digits, isDigit c = true) :
    Denotes (String.ofList (List.replicate count '0' ++ digits))
      (List.replicate count '0' ++ digits) (numeral digits) := by
  have hall : ∀ c ∈ List.replicate count '0' ++ digits, isDigit c = true := by
    refine List.forall_mem_append.mpr ⟨fun c hc => ?_, hdigits⟩
    rw [List.eq_of_mem_replicate hc]
    decide
  have hdenotes := denotes_numeral (List.append_ne_nil_of_right_ne_nil _ hne) hall
  rwa [numeral_zeros] at hdenotes

/-- One text denotes no two numbers. -/
theorem Denotes.unique {digits' : List Char} {n' : Int} (h : Denotes text digits n)
    (h' : Denotes text digits' n') : digits = digits' ∧ n = n' := by
  obtain ⟨sign, body, htrim, hbody, hsign⟩ := h.exists_trim
  obtain ⟨sign', body', htrim', hbody', hsign'⟩ := h'.exists_trim
  obtain ⟨c, rest, rfl, hc⟩ := hbody.exists_cons
  obtain ⟨c', rest', rfl, hc'⟩ := hbody'.exists_cons
  have hsame : sign = sign' ∧ c :: rest = c' :: rest' := by
    rw [htrim] at htrim'
    cases hsign <;> cases hsign' <;> grind
  have hdigits : some digits = some digits' := by
    rw [← groupedDigits?_of_grouped hbody, ← groupedDigits?_of_grouped hbody', hsame.2]
  cases hdigits
  cases hsame.1
  refine ⟨rfl, ?_⟩
  cases hsign <;> cases hsign' <;> rfl

end Sheetwright.Text
