import Sheetwright.Proofs.Text.Joined
/-!
# Texts put together from lines

A text can be written as lines, each with what ends it, and a last line without an end. Cutting it
again does not always give these lines back: a carriage return that ends one line and a line feed
that ends an empty one behind it are a single line end, and a last line that is empty is no line.
Both times it is an empty line that is lost, so the lines that are not blank stay as they are
(`Lined.filledLines_whole`).
-/

namespace Sheetwright.Text

variable {c : Char} {line text : List Char}

/-- The text holds no line end. -/
def Unbroken (text : List Char) : Prop := ∀ c ∈ text, isLineBreak c = false

theorem unbroken_cons : Unbroken (c :: text) ↔ isLineBreak c = false ∧ Unbroken text :=
  List.forall_mem_cons

theorem unbroken_append {more : List Char} :
    Unbroken (text ++ more) ↔ Unbroken text ∧ Unbroken more :=
  List.forall_mem_append

/-- No line of a text holds a line end. -/
theorem unbroken_of_mem_lines (h : line ∈ lines text) : Unbroken line := by
  induction text using lines.induct generalizing line with
  | case1 => cases h
  | case2 text ih =>
    rcases List.mem_cons.mp h with rfl | h
    · exact List.forall_mem_nil _
    · exact ih h
  | case3 c text hcrlf hc ih =>
    have hlines : lines (c :: text) = [] :: lines text := by
      rw [lines, if_pos hc]
      exact hcrlf
    rw [hlines] at h
    rcases List.mem_cons.mp h with rfl | h
    · exact List.forall_mem_nil _
    · exact ih h
  | case4 c text hcrlf hc hnil ih =>
    rw [lines_cons (by simpa using hc), hnil] at h
    rw [List.mem_singleton.mp h]
    exact unbroken_cons.mpr ⟨by simpa using hc, List.forall_mem_nil _⟩
  | case5 c text hcrlf hc first more hmore ih =>
    rw [lines_cons (by simpa using hc), hmore] at h
    rw [hmore] at ih
    rcases List.mem_cons.mp h with rfl | h
    · exact unbroken_cons.mpr ⟨by simpa using hc, ih List.mem_cons_self⟩
    · exact ih (List.mem_cons_of_mem first h)

/-! ## Lines that are not blank -/

/-- The lines of a text that hold anything but blanks. -/
def filledLines (text : List Char) : List (List Char) :=
  (lines text).filter fun line => !allBlank line

/-- What ends a line: a character that does, or a carriage return with a line feed. -/
inductive EndsLine : List Char → Prop
  | single {c : Char} (h : isLineBreak c = true) : EndsLine [c]
  | crlf : EndsLine ['\r', '\n']

/-- A character that ends a line can be left out at the beginning of a text. -/
theorem filledLines_break (hc : isLineBreak c = true) (text : List Char) :
    filledLines (c :: text) = filledLines text := by
  have hblank : ∀ more : List (List Char),
      ([] :: more).filter (fun line => !allBlank line) = more.filter fun line => !allBlank line :=
    fun more => List.filter_cons_of_neg (by simp)
  by_cases hcrlf : c = '\r' ∧ text.head? = some '\n'
  · obtain ⟨rfl, hhead⟩ := hcrlf
    obtain ⟨rest, rfl⟩ := List.head?_eq_some_iff.mp hhead
    have hfeed : lines ('\n' :: rest) = [] :: lines rest := lines_break (by decide) nofun
    rw [filledLines, filledLines, lines_crlf, hfeed]
  · rw [filledLines, lines_break hc fun hcr hhead => hcrlf ⟨hcr, hhead⟩, hblank, filledLines]

/-- A line end closes the line in front of it and leaves the lines behind it, but for an empty one
at most. -/
theorem exists_lines_append {ending : List Char} (hline : Unbroken line) (hend : EndsLine ending)
    (rest : List Char) : ∃ rest', filledLines rest' = filledLines rest ∧
      lines (line ++ (ending ++ rest)) = line :: lines rest' := by
  induction line with
  | nil =>
    cases hend with
    | crlf => exact ⟨rest, rfl, lines_crlf rest⟩
    | @single c hc =>
      by_cases hcrlf : c = '\r' ∧ rest.head? = some '\n'
      · obtain ⟨rfl, hhead⟩ := hcrlf
        obtain ⟨more, rfl⟩ := List.head?_eq_some_iff.mp hhead
        exact ⟨more, (filledLines_break (by decide) more).symm, lines_crlf more⟩
      · exact ⟨rest, rfl, lines_break hc fun hcr hhead => hcrlf ⟨hcr, hhead⟩⟩
  | cons c line ih =>
    obtain ⟨hc, hrest⟩ := unbroken_cons.mp hline
    obtain ⟨rest', hfilled, hlines⟩ := ih hrest
    refine ⟨rest', hfilled, ?_⟩
    rw [List.cons_append, lines_cons hc, hlines]
    rfl

/-! ## Lines with their ends -/

/-- Lines, each but the last with what ends it. -/
structure Lined where
  ended : List (List Char × List Char)
  last : List Char

namespace Lined

def lines (l : Lined) : List (List Char) := l.ended.map Prod.fst ++ [l.last]

/-- The text that is put together from the lines. -/
def whole (l : Lined) : List Char :=
  (l.ended.flatMap fun (line, ending) => line ++ ending) ++ l.last

/-- Line ends stand behind the lines and nowhere else. -/
structure Cut (l : Lined) : Prop where
  ends : ∀ part ∈ l.ended, EndsLine part.2
  line : ∀ line ∈ l.lines, Unbroken line

variable {l : Lined}

/-- One more line in front. -/
theorem whole_cons (line ending : List Char) (l : Lined) :
    Lined.whole ⟨(line, ending) :: l.ended, l.last⟩ = line ++ (ending ++ l.whole) := by
  simp [whole]

theorem cut_cons {ending : List Char} :
    Cut ⟨(line, ending) :: l.ended, l.last⟩ ↔
      (EndsLine ending ∧ Unbroken line) ∧ l.Cut := by
  constructor
  · intro h
    have hends := List.forall_mem_cons.mp h.ends
    have hlines := List.forall_mem_cons.mp h.line
    exact ⟨⟨hends.1, hlines.1⟩, hends.2, hlines.2⟩
  · rintro ⟨⟨hend, hline⟩, h⟩
    exact ⟨List.forall_mem_cons.mpr ⟨hend, h.ends⟩, List.forall_mem_cons.mpr ⟨hline, h.line⟩⟩

theorem filledLines_of_unbroken (h : Unbroken text) :
    filledLines text = [text].filter fun line => !allBlank line := by
  cases text with
  | nil => rfl
  | cons c text => rw [filledLines, lines_of_unbroken h]

/-- A text put together from lines has those of them that are not blank. -/
theorem filledLines_whole (h : l.Cut) :
    filledLines l.whole = l.lines.filter fun line => !allBlank line := by
  obtain ⟨ended, last⟩ := l
  induction ended with
  | nil => exact filledLines_of_unbroken (h.line last (List.mem_singleton_self last))
  | cons part ended ih =>
    obtain ⟨line, ending⟩ := part
    obtain ⟨⟨hend, hline⟩, hrest⟩ := (cut_cons (l := ⟨ended, last⟩)).mp h
    obtain ⟨rest', hfilled, hlines⟩ :=
      exists_lines_append hline hend (whole ⟨ended, last⟩)
    have hcons : lines ⟨(line, ending) :: ended, last⟩ = line :: lines ⟨ended, last⟩ := rfl
    rw [whole_cons line ending ⟨ended, last⟩, filledLines, hlines, hcons, List.filter_cons,
      List.filter_cons, ← ih hrest, ← hfilled, filledLines]

/-- Every text is put together from lines. -/
theorem exists_whole_eq (text : List Char) : ∃ l : Lined, l.whole = text ∧ l.Cut := by
  induction hn : text.length using Nat.strongRecOn generalizing text with
  | ind n ih =>
    rcases all_or_exists (fun c => !isLineBreak c) text with hall | ⟨line, c, rest, hline, hc, rfl⟩
    · refine ⟨⟨[], text⟩, rfl, List.forall_mem_nil _, List.forall_mem_singleton.mpr fun c hc => ?_⟩
      simpa using hall c hc
    · rw [List.length_append, List.length_cons] at hn
      obtain ⟨l, rfl, hcut⟩ := ih rest.length (by omega) rest rfl
      refine ⟨⟨(line, [c]) :: l.ended, l.last⟩, whole_cons line [c] l,
        cut_cons.mpr ⟨⟨?_, ?_⟩, hcut⟩⟩
      · exact .single (by simpa using hc)
      · exact fun d hd => by simpa using hline d hd

end Lined

end Sheetwright.Text
