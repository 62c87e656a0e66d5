import Sheetwright.Proofs.Text.Joined
import Sheetwright.Proofs.Text.Utf8
import Sheetwright.Reference.Loading
/-!
# What a reference file is read as

The reference that a file gives has exactly the types on its lines (`lists_ofText`), and how its
lines end does not matter. From this, what loading comes to for every path and every content of the
file: the reference of its text (`load_eq_ok_iff`), a report that it cannot be opened
(`load_eq_unreadable_iff`), or a failure that is no report (`legible_iff`).
-/

namespace Sheetwright

namespace Reference

/-! ## Types -/

/-- The reference has the types on the lines of a text, without the blanks around them, and no
other ones. -/
def Lists (reference : Reference) (text : List Char) : Prop :=
  ∀ type, type ∈ reference ↔ ∃ line ∈ Text.lines text,
    Text.allBlank line = false ∧ type = String.ofList (Text.trim line)

theorem lists_ofText (text : List Char) : Lists (ofText text) text := by
  intro type
  rw [ofText, ofLines, Std.ExtTreeSet.mem_ofList, List.contains_iff_mem, List.mem_map]
  simp only [List.mem_filter, Bool.not_eq_true', and_assoc, eq_comm (a := type)]

theorem lists_iff {reference : Reference} {text : List Char} :
    Lists reference text ↔ reference = ofText text := by
  constructor
  · intro h
    exact Std.ExtTreeSet.ext_mem fun type => (h type).trans (lists_ofText text type).symm
  · rintro rfl
    exact lists_ofText text

theorem ofText_unifyNewlines (text : List Char) :
    ofText (Text.unifyNewlines text) = ofText text := by
  rw [ofText, ofText, Text.lines_unifyNewlines]

/-! ## Loading -/

variable {t : Files.Tree} {path : String}

/-- The file at a path, if there is one, holds the bytes of a text. -/
def Legible (t : Files.Tree) (path : String) : Prop :=
  (Files.Path.ofText path).holdsNull = false ∧
    ∀ node, t.open? (.ofText path) = .ok node →
      ∃ text, Text.encodeUtf8 (String.ofList text) = node.content

/-- A reference is loaded exactly from a file that holds the bytes of a text, and has the types on
the lines of this text. -/
theorem load_eq_ok_iff {reference : Reference} :
    load t path = .ok reference ↔
      (Files.Path.ofText path).holdsNull = false ∧ ∃ node text,
        t.open? (.ofText path) = .ok node ∧
          Text.encodeUtf8 (String.ofList text) = node.content ∧ Lists reference text := by
  rw [load, Files.Tree.readText]
  cases hnull : (Files.Path.ofText path).holdsNull with
  | true => simp
  | false =>
    cases hopen : t.open? (.ofText path) with
    | error cause => simp
    | ok node =>
      cases hdecode : Text.decodeUtf8 node.content with
      | error fault =>
        -- bytes that cannot be decoded are the encoding of no text
        have hno (text : List Char) : Text.encodeUtf8 (String.ofList text) ≠ node.content := by
          intro hbytes
          rw [Text.decodeUtf8_ok_iff.mpr hbytes] at hdecode
          cases hdecode
        simp [hdecode, hno]
      | ok text =>
        have hbytes := Text.decodeUtf8_ok_iff.mp hdecode
        simp only [hdecode, ofText_unifyNewlines, Bool.false_eq_true, if_false, Except.ok.injEq,
          true_and, exists_and_left, exists_eq_left']
        constructor
        · rintro rfl
          exact ⟨text, hbytes, lists_ofText text⟩
        · rintro ⟨text', hbytes', hlists⟩
          rw [← Text.decodeUtf8_ok_iff, hdecode] at hbytes'
          rw [lists_iff.mp hlists, Except.ok.inj hbytes']

/-- That a file is unreadable is reported exactly if it cannot be opened. -/
theorem load_eq_unreadable_iff {shown : String} {cause : Files.Fault} :
    load t path = .error (.unreadable shown cause) ↔
      (Files.Path.ofText path).holdsNull = false ∧ t.open? (.ofText path) = .error cause ∧
        shown = (Files.Path.ofText path).text := by
  rw [load, Files.Tree.readText]
  cases hnull : (Files.Path.ofText path).holdsNull with
  | true => simp
  | false =>
    cases hopen : t.open? (.ofText path) with
    | error cause' => simp [and_comm, eq_comm]
    | ok node => cases hdecode : Text.decodeUtf8 node.content <;> simp [hdecode]

theorem legible_iff :
    Legible t path ↔ (∃ reference, load t path = .ok reference) ∨
      ∃ shown cause, load t path = .error (.unreadable shown cause) := by
  constructor
  · rintro ⟨hnull, hcontent⟩
    cases hopen : t.open? (.ofText path) with
    | error cause => exact .inr ⟨_, cause, load_eq_unreadable_iff.mpr ⟨hnull, hopen, rfl⟩⟩
    | ok node =>
      obtain ⟨text, hbytes⟩ := hcontent node hopen
      exact .inl ⟨ofText text, load_eq_ok_iff.mpr
        ⟨hnull, node, text, hopen, hbytes, lists_ofText text⟩⟩
  · rintro (⟨reference, h⟩ | ⟨shown, cause, h⟩)
    · obtain ⟨hnull, node, text, hopen, hbytes, -⟩ := load_eq_ok_iff.mp h
      refine ⟨hnull, fun node' hopen' => ⟨text, ?_⟩⟩
      rw [hbytes, Except.ok.inj (hopen.symm.trans hopen')]
    · obtain ⟨hnull, hopen, -⟩ := load_eq_unreadable_iff.mp h
      refine ⟨hnull, fun node hopen' => ?_⟩
      rw [hopen] at hopen'
      cases hopen'

end Reference

end Sheetwright
