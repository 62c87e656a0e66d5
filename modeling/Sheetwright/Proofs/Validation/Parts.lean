import Sheetwright.Proofs.Record.Kept
import Sheetwright.Proofs.Validation.Scan
/-!
# Rows and the parts of a record

The reader cuts a record at its semicolons; the scan for values goes over the whole of it. As long
as no value that is found holds a semicolon the scan reads each part by itself all the same
(`Scanner.values_record`), and what it finds in a part can be compared with what the part gives.
A record gives its rows (`GivesRows`) if every row value that is found in a part is the one which
the part gives, and no later part gives the same row. All rows that validation finds in such a
record are kept by the record (`GivesRows.kept`).
-/

namespace Sheetwright.Validation

open Record Text

/-! ## Scanning up to a stop -/

namespace Scanner

variable {s : Scanner} {x : Char} {value after text : List Char}

/-- A value that is found stands between two quotes of the text. -/
theorem exists_of_mem_valuesFrom {glued : Bool} (h : value ∈ s.valuesFrom glued text) :
    ∃ lead after, text = lead ++ '"' :: (value ++ '"' :: after) := by
  induction glued, text using s.scan_induction with
  | nil glued => simp [valuesFrom] at h
  | skip glued c rest hnone ih =>
    rw [s.valuesFrom_of_none hnone] at h
    rcases ih h with ⟨lead, after, rfl⟩
    exact ⟨c :: lead, after, rfl⟩
  | found c rest first more hsome ih =>
    rcases valueAt?_eq_some.mp hsome with ⟨sign, -, -, -, hsplit⟩
    rw [s.valuesFrom_of_some hsome, List.mem_cons] at h
    rcases h with rfl | h
    · exact ⟨sign, more, hsplit⟩
    · rcases ih h with ⟨lead, after, rfl⟩
      exact ⟨sign ++ '"' :: (first ++ '"' :: lead), after, by simp [hsplit]⟩

/-- No sign holds the character, and it hides nothing that stands behind it. -/
structure Stops (s : Scanner) (x : Char) : Prop where
  not_mem : ∀ sign, s.opens sign = true → x ∉ sign
  glues : s.glues x = false
  ne_quote : x ≠ '"'

theorem valuesFrom_cons_stop (hx : s.Stops x) (glued : Bool) (rest : List Char) :
    s.valuesFrom glued (x :: rest) = s.values rest := by
  have hnone : s.valueAt? (x :: rest) = none := by
    by_contra hfound
    rcases Option.ne_none_iff_exists'.mp hfound with ⟨⟨value, after⟩, hsome⟩
    rcases valueAt?_eq_some.mp hsome with ⟨sign, hopens, -, -, hsplit⟩
    cases sign with
    | nil => exact hx.ne_quote (List.cons.inj hsplit).1
    | cons c sign =>
      obtain rfl : x = c := (List.cons.inj hsplit).1
      exact hx.not_mem _ hopens List.mem_cons_self
  rw [s.valuesFrom_of_none (Or.inr hnone), hx.glues, values]

/-- Neither a sign nor a value without the stop reaches over it. -/
theorem Stops.exists_valueAt? (hx : s.Stops x) {rest : List Char} (hvalue : x ∉ value)
    (h : s.valueAt? (text ++ x :: rest) = some (value, after)) :
    ∃ more, s.valueAt? text = some (value, more) := by
  rcases valueAt?_eq_some.mp h with ⟨sign, hopens, hsign, hquote, hsplit⟩
  have hfront : x ∉ sign ++ '"' :: (value ++ ['"']) := by
    simp [hx.not_mem sign hopens, hvalue, hx.ne_quote]
  have hboth : text ++ x :: rest = (sign ++ '"' :: (value ++ ['"'])) ++ after := by
    simpa using hsplit
  rcases exists_append_of_not_mem hfront hboth with ⟨more, htext, -⟩
  exact ⟨more, valueAt?_eq_some.mpr ⟨sign, hopens, hsign, hquote, by simpa using htext⟩⟩

/-- A scan that finds no value with a stop in it begins anew behind the stop. -/
theorem valuesFrom_append_stop (hx : s.Stops x) {glued : Bool} {rest : List Char}
    (h : ∀ value ∈ s.valuesFrom glued (text ++ x :: rest), x ∉ value) :
    s.valuesFrom glued (text ++ x :: rest) = s.valuesFrom glued text ++ s.values rest := by
  induction glued, text using s.scan_induction with
  | nil glued => rw [List.nil_append, valuesFrom_cons_stop hx, valuesFrom, List.nil_append]
  | skip glued c text hnone ih =>
    rw [List.cons_append] at h ⊢
    -- what begins here in the longer text ends before the stop, and begins in the shorter one
    have hnone' : glued = true ∨ s.valueAt? (c :: (text ++ x :: rest)) = none := by
      by_contra hfound
      rw [not_or, Bool.not_eq_true] at hfound
      obtain ⟨rfl, hfound⟩ := hfound
      rcases Option.ne_none_iff_exists'.mp hfound with ⟨⟨value, after⟩, hsome⟩
      rw [s.valuesFrom_of_some hsome] at h
      rw [← List.cons_append] at hsome
      rcases hx.exists_valueAt? (h value List.mem_cons_self) hsome with ⟨more, hshort⟩
      simp [hshort] at hnone
    rw [s.valuesFrom_of_none hnone'] at h ⊢
    rw [s.valuesFrom_of_none hnone]
    exact ih h
  | found c text value more hsome ih =>
    have hall := valueAt?_append_of_some hsome (x :: rest)
    rw [List.cons_append] at h hall ⊢
    rw [s.valuesFrom_of_some hall] at h ⊢
    rw [s.valuesFrom_of_some hsome, List.cons_append, ih]
    exact fun value' hvalue' => h value' (List.mem_cons_of_mem _ hvalue')

/-- The values of a text that is put together of parts are those of its parts. -/
theorem values_intercalate (hx : s.Stops x) (parts : List (List Char))
    (h : ∀ value ∈ s.values ([x].intercalate parts), x ∉ value) :
    s.values ([x].intercalate parts) = parts.flatMap s.values := by
  induction parts with
  | nil => rw [List.intercalate_nil, values, valuesFrom, List.flatMap_nil]
  | cons part parts ih =>
    by_cases hnil : parts = []
    · simp [hnil]
    · rw [List.intercalate_cons_of_ne_nil hnil, List.append_assoc, List.singleton_append] at h ⊢
      have hstep := valuesFrom_append_stop hx h
      rw [values] at h ⊢
      rw [hstep] at h ⊢
      have hrest := ih fun value hvalue => h value (List.mem_append_right _ hvalue)
      rw [List.flatMap_cons, hrest, values]

/-- The values of a record are those of its parts, if none of them holds a semicolon. -/
theorem values_record {body : List Char} (hbody : '>' ∉ body)
    (hstops : s.Stops '<' ∧ s.Stops '>' ∧ s.Stops ';')
    (h : ∀ value ∈ s.values ('<' :: body ++ ['>']), ';' ∉ value) :
    s.values ('<' :: body ++ ['>']) = (parts ('<' :: body ++ ['>'])).flatMap s.values := by
  obtain ⟨hopening, hclosing, hsemicolon⟩ := hstops
  have hinside : s.values ('<' :: body ++ ['>']) = s.values body := by
    -- the closing bracket stands at the very end, and a value has a quote behind it
    have hlast : ∀ value ∈ s.values (body ++ ['>']), '>' ∉ value := by
      intro value hvalue hmem
      rcases exists_of_mem_valuesFrom hvalue with ⟨lead, after, hsplit⟩
      rcases List.append_of_mem hmem with ⟨a, b, rfl⟩
      have hearly : (lead ++ '"' :: a) ++ '>' :: (b ++ '"' :: after) = body ++ ['>'] := by
        simpa using hsplit.symm
      rcases exists_append_of_not_mem hbody hearly with ⟨more, -, hmore⟩
      have hlength := congrArg List.length hmore
      simp only [List.length_append, List.length_cons, List.length_nil] at hlength
      omega
    have hclose := valuesFrom_append_stop hclosing hlast
    rw [values, List.cons_append, valuesFrom_cons_stop hopening, values, hclose]
    simp [values, valuesFrom]
  rw [hinside] at h ⊢
  have hvalues := values_intercalate hsemicolon (parts ('<' :: body ++ ['>']))
  rw [intercalate_parts] at hvalues
  exact hvalues h

end Scanner

/-! ## Rows -/

theorem mem_of_isSign {sign : List Char} (h : isSign sign = true) {c : Char} (hc : c ∈ sign) :
    isBlank c = true ∨ c = '=' := by
  rcases allBlank_or_exists sign with hrun | ⟨run, x, rest, hrun, hx, rfl⟩
  · exact Or.inl (allBlank_iff.mp hrun c hc)
  · rw [isSign, trimStart_append hrun, trimStart_cons hx] at h
    split at h
    next gap hgap =>
      obtain ⟨rfl, rfl⟩ := List.cons.inj hgap
      rcases List.mem_append.mp hc with hc | hc
      · exact Or.inl (allBlank_iff.mp hrun c hc)
      · rcases List.mem_cons.mp hc with rfl | hc
        · exact Or.inr rfl
        · exact Or.inl (allBlank_iff.mp h c hc)
    next => cases h

/-- A row sign holds letters of the word, digits, blanks and an equals sign. -/
theorem mem_of_isIndexed {word sign : List Char} (h : isIndexed word sign = true) {c : Char}
    (hc : c ∈ sign) :
    (∃ w ∈ word, caseless c = caseless w) ∨ isDigit c = true ∨ isBlank c = true ∨ c = '=' := by
  rw [isIndexed] at h
  split at h
  next => cases h
  next rest hrest =>
    rw [Bool.and_eq_true] at h
    refine (mem_of_afterWord? hrest hc).imp_right fun hmem => ?_
    rw [← List.takeWhile_append_dropWhile (p := isDigit) (l := rest)] at hmem
    rcases List.mem_append.mp hmem with hdigit | hsign
    · exact Or.inl (List.mem_takeWhile_imp hdigit)
    · exact Or.inr (mem_of_isSign h.2 hsign)

theorem rowScanner_stops : rowScanner.Stops '<' ∧ rowScanner.Stops '>' ∧ rowScanner.Stops ';' := by
  have hstops : ∀ x ∈ ['<', '>', ';'], rowScanner.Stops x := by
    intro x hx
    have hall : ['<', '>', ';'].all (fun x => "row".toList.all (caseless x != caseless ·) &&
        !isDigit x && !isBlank x && x != '=' && !isWordLetter x && x != '"') = true := by
      decide +kernel
    have hother := List.all_eq_true.mp hall x hx
    simp only [Bool.and_eq_true, List.all_eq_true, bne_iff_ne, Bool.not_eq_true'] at hother
    obtain ⟨⟨⟨⟨⟨hword, hdigit⟩, hblank⟩, hsign⟩, hletter⟩, hquote⟩ := hother
    refine ⟨fun sign hopens hmem => ?_, hletter, hquote⟩
    rcases mem_of_isIndexed hopens hmem with ⟨w, hw, hsame⟩ | h | h | h
    · exact hword w hw hsame
    · simp [hdigit] at h
    · simp [hblank] at h
    · exact hsign h
  exact ⟨hstops '<' (by simp), hstops '>' (by simp), hstops ';' (by simp)⟩

/-- The row that a fragment gives. -/
def rowOf? (fragment : List Char) : Option (Nat × List Char) :=
  match outcome fragment with
  | .ok (.attribute (.slot .row i) value) => some (i, value)
  | _ => none

/-- Each fragment gives every row value that is found in it, and none behind it gives the same
row. -/
def giveRows : List (List Char) → Bool
  | [] => true
  | fragment :: later =>
    ((rowValues fragment).all fun value =>
      (rowOf? fragment).any fun (i, given) =>
        given == value && later.all fun other => (rowOf? other).all fun (j, _) => i != j) &&
      giveRows later

/-- No row value that is found in a record holds a semicolon or stands before the first one, and the
fragments give those that are found in them. -/
structure GivesRows (record : List Char) : Prop where
  no_semicolon : ∀ value ∈ rowValues record, ';' ∉ value
  base : rowValues ((parts record).headD []) = []
  fragments : giveRows ((parts record).drop 1) = true

instance (record : List Char) : Decidable (GivesRows record) :=
  decidable_of_iff ((∀ value ∈ rowValues record, ';' ∉ value) ∧
      rowValues ((parts record).headD []) = [] ∧ giveRows ((parts record).drop 1) = true)
    ⟨fun h => ⟨h.1, h.2.1, h.2.2⟩, fun h => ⟨h.no_semicolon, h.base, h.fragments⟩⟩

theorem rowOf?_eq_some {fragment value : List Char} {i : Nat} :
    rowOf? fragment = some (i, value) ↔
      outcome fragment = .ok (.attribute (.slot .row i) value) := by
  rw [rowOf?]
  constructor
  · intro h
    split at h
    next j given hgives =>
      cases h
      exact hgives
    next => cases h
  · intro h
    rw [h]

theorem gives_of_giveRows {before after : List (List Char)} {fragment value : List Char}
    (h : giveRows (before ++ fragment :: after) = true) (hvalue : value ∈ rowValues fragment) :
    ∃ i, outcome fragment = .ok (.attribute (.slot .row i) value) ∧
      ∀ later ∈ after, ∀ other, outcome later ≠ .ok (.attribute (.slot .row i) other) := by
  induction before with
  | nil =>
    rw [List.nil_append, giveRows, Bool.and_eq_true, List.all_eq_true] at h
    have hgiven := h.1 value hvalue
    rw [Option.any_eq_true] at hgiven
    rcases hgiven with ⟨⟨i, given⟩, hrow, hlater⟩
    rw [Bool.and_eq_true, beq_iff_eq, List.all_eq_true] at hlater
    obtain ⟨rfl, hlater⟩ := hlater
    refine ⟨i, rowOf?_eq_some.mp hrow, fun later hmem other hother => ?_⟩
    have hdiffers := hlater later hmem
    rw [rowOf?_eq_some.mpr hother] at hdiffers
    simp at hdiffers
  | cons first before ih =>
    rw [List.cons_append, giveRows, Bool.and_eq_true] at h
    exact ih h.2

/-- Every row value that validation finds in such a record is one that the record keeps. -/
theorem GivesRows.kept {body : List Char} (h : GivesRows ('<' :: body ++ ['>']))
    (hbody : '>' ∉ body) {r : Record} (hread : Record.read ('<' :: body ++ ['>']) = .ok r)
    {value : List Char}
    (hvalue : value ∈ rowValues ('<' :: body ++ ['>'])) :
    ∃ i, (1 ≤ i ∧ i ≤ Group.row.size) ∧
      r.attributes.get? (AttributeName.slot .row i).text = some (.text (String.ofList value)) := by
  have hfound := h.no_semicolon
  simp only [rowValues_eq] at hfound hvalue
  rw [Scanner.values_record hbody rowScanner_stops hfound] at hvalue
  rcases exists_parts_eq ('<' :: body ++ ['>']) with ⟨base, fragments, hparts⟩
  have hbase := h.base
  have hgive := h.fragments
  rw [hparts, List.headD_cons, rowValues_eq] at hbase
  rw [hparts, List.drop_succ_cons, List.drop_zero] at hgive
  rw [hparts, List.flatMap_cons, hbase, List.nil_append, List.mem_flatMap] at hvalue
  rcases hvalue with ⟨fragment, hfragment, hvalue⟩
  -- the fragment in which it is found gives it, and is the last one to give that row
  rcases List.append_of_mem hfragment with ⟨before, after, rfl⟩
  rw [← rowValues_eq] at hvalue
  rcases gives_of_giveRows hgive hvalue with ⟨i, hgives, hlater⟩
  rcases exists_of_outcome hgives with ⟨part, _, _, _, -, hname, -⟩
  rcases AttributeName.read_eq_slot hname with ⟨-, -, -, hindex⟩
  exact ⟨i, hindex, kept_of_last hread hparts hgives hlater⟩

end Sheetwright.Validation
