import Sheetwright.Proofs.Reference.Loading
import Sheetwright.Proofs.Text.Lined
/-!
# Reference lists that are written anew

A reference depends on its types and on nothing else. A text has the types of another one exactly
if its lines are blank or hold one of these types between blanks, and each type stands on some line
(`ofText_eq_iff`); the order of the lines, their number, the blanks and the line ends are free. A
type is a trimmed line, so it holds no line end, and blanks that are put around it are trimmed
again.
-/

namespace Sheetwright.Reference

open Text

variable {text line : List Char} {type : String} {l : Lined}

/-! ## Types on lines -/

/-- A line holds a type between blanks, none of which ends a line. -/
def Holds (line : List Char) (type : String) : Prop :=
  ∃ lead tail, allBlank lead = true ∧ allBlank tail = true ∧ Unbroken (lead ++ tail) ∧
    line = lead ++ (type.toList ++ tail)

/-- What a type is like, whichever text it was found in. -/
structure IsType (type : String) : Prop where
  trimmed : trim type.toList = type.toList
  unbroken : Unbroken type.toList
  filled : type.toList ≠ []

theorem isType_of_mem (h : type ∈ ofText text) : IsType type := by
  rcases (lists_ofText text type).mp h with ⟨line, hline, hfilled, rfl⟩
  constructor
  · rw [String.toList_ofList, trim_trim]
  · rw [String.toList_ofList]
    exact fun c hc => unbroken_of_mem_lines hline c ((trim_sublist line).subset hc)
  · rw [String.toList_ofList, ne_eq, trim_eq_nil_iff, hfilled]
    exact Bool.false_ne_true

theorem Holds.unbroken (h : Holds line type) (htype : IsType type) : Unbroken line := by
  rcases h with ⟨lead, tail, -, -, hunbroken, rfl⟩
  rw [unbroken_append] at hunbroken
  exact unbroken_append.mpr ⟨hunbroken.1, unbroken_append.mpr ⟨htype.unbroken, hunbroken.2⟩⟩

/-- A type is what is left of its line without the blanks. -/
theorem Holds.trim_eq (h : Holds line type) (htype : IsType type) : trim line = type.toList := by
  rcases h with ⟨lead, tail, hlead, htail, -, rfl⟩
  rw [trim_append hlead htail, htype.trimmed]

theorem Holds.filled (h : Holds line type) (htype : IsType type) : allBlank line = false := by
  refine Bool.eq_false_iff.mpr fun hblank => htype.filled ?_
  rw [← h.trim_eq htype, trim_eq_nil_iff, hblank]

theorem holds_trim (h : Unbroken line) : Holds line (String.ofList (trim line)) := by
  rcases exists_trim_eq line with ⟨lead, tail, hlead, htail, hline⟩
  have hparts : Unbroken lead ∧ Unbroken (trim line) ∧ Unbroken tail := by
    rw [← unbroken_append, ← unbroken_append, ← hline]
    exact h
  refine ⟨lead, tail, hlead, htail, unbroken_append.mpr ⟨hparts.1, hparts.2.2⟩, ?_⟩
  rw [String.toList_ofList]
  exact hline

/-! ## Lists of types -/

/-- The lines hold the types of a reference, each of them at least once, and are blank otherwise. -/
structure WrittenFrom (l : Lined) (reference : Reference) : Prop where
  ends : ∀ part ∈ l.ended, EndsLine part.2
  line : ∀ line ∈ l.lines, (allBlank line = true ∧ Unbroken line) ∨
    ∃ type ∈ reference, Holds line type
  all : ∀ type ∈ reference, ∃ line ∈ l.lines, Holds line type

theorem WrittenFrom.cut (h : WrittenFrom l (ofText text)) : l.Cut where
  ends := h.ends
  line line hline := by
    rcases h.line line hline with ⟨-, hunbroken⟩ | ⟨type, htype, hholds⟩
    · exact hunbroken
    · exact hholds.unbroken (isType_of_mem htype)

/-- Lines that are put together give the types that stand on them. -/
theorem mem_ofText_whole (h : l.Cut) :
    type ∈ ofText l.whole ↔
      ∃ line ∈ l.lines, allBlank line = false ∧ type = String.ofList (trim line) := by
  have hlines : ∀ line, line ∈ filledLines l.whole ↔ line ∈ l.lines ∧ allBlank line = false := by
    intro line
    rw [Lined.filledLines_whole h, List.mem_filter, Bool.not_eq_true']
  refine (lists_ofText l.whole type).trans (exists_congr fun line => ?_)
  rw [← and_assoc, ← and_assoc, ← hlines, filledLines, List.mem_filter, Bool.not_eq_true']

theorem ofText_whole_eq_iff (h : l.Cut) :
    ofText l.whole = ofText text ↔ WrittenFrom l (ofText text) := by
  constructor
  · intro heq
    refine ⟨h.ends, fun line hline => ?_, fun type htype => ?_⟩
    · cases hblank : allBlank line with
      | true => exact .inl ⟨rfl, h.line line hline⟩
      | false =>
        have hmem := (mem_ofText_whole h).mpr ⟨line, hline, hblank, rfl⟩
        exact .inr ⟨_, heq ▸ hmem, holds_trim (h.line line hline)⟩
    · rw [← heq, mem_ofText_whole h] at htype
      rcases htype with ⟨line, hline, -, rfl⟩
      exact ⟨line, hline, holds_trim (h.line line hline)⟩
  · intro hwritten
    -- a reference is its members, so the equality is shown type by type
    refine Std.ExtTreeSet.ext_mem fun type => ?_
    rw [mem_ofText_whole h]
    constructor
    · rintro ⟨line, hline, hfilled, rfl⟩
      rcases hwritten.line line hline with ⟨hblank, -⟩ | ⟨type, htype, hholds⟩
      · rw [hblank] at hfilled
        cases hfilled
      · rwa [hholds.trim_eq (isType_of_mem htype), String.ofList_toList]
    · intro htype
      rcases hwritten.all type htype with ⟨line, hline, hholds⟩
      have hfound := isType_of_mem htype
      refine ⟨line, hline, hholds.filled hfound, ?_⟩
      rw [hholds.trim_eq hfound, String.ofList_toList]

/-- A text has the types of another one if and only if it is written from them, in any order and
repetition, with any blanks and line ends. The reference of a text is that of its lines. -/
theorem ofText_eq_iff (text : List Char) :
    (∀ other, ofText other = ofText text ↔
      ∃ l : Lined, l.whole = other ∧ WrittenFrom l (ofText text)) ∧
    ofText text = ofLines (Text.lines text) := by
  refine ⟨fun other => ⟨fun heq => ?_, ?_⟩, rfl⟩
  · rcases Lined.exists_whole_eq other with ⟨l, rfl, hcut⟩
    exact ⟨l, rfl, (ofText_whole_eq_iff hcut).mp heq⟩
  · rintro ⟨l, rfl, hwritten⟩
    exact (ofText_whole_eq_iff hwritten.cut).mpr hwritten

end Sheetwright.Reference
