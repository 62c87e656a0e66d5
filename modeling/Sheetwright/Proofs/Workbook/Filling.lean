import Sheetwright.Proofs.Workbook.Pasting
/-!
# Filling a sheet at its end

Work on two sheets, one that is only looked at and one that is only filled from some row on.
`FilledFrom` says this for a row that is given, `FilledBelow` for the row behind the last used one,
and `Appends` says the same of the two sheets by their titles.
-/

namespace Sheetwright.Workbook

open Grid Operation

variable {b b' b'' : Workbook} {title template target : String} {place source dest : Nat}
  {start : Int} {s u : Sheet}

/-! ## Filling one of two sheets -/

/-- The sheet in one place is the same above a row, the sheet in another place shows the same, and
all other sheets are the same. -/
structure FilledFrom (start : Int) (source dest : Nat) (b b' : Workbook) : Prop where
  length_eq : b'.sheets.length = b.sheets.length
  other : ∀ i, i ≠ source → i ≠ dest → b'.sheets[i]? = b.sheets[i]?
  source : (b.sheet source).Alike (b'.sheet source)
  dest : (b.sheet dest).SameAbove start (b'.sheet dest)

instance : IsPreorder Workbook (FilledFrom start source dest) where
  refl _ := ⟨rfl, fun _ _ _ => rfl, .refl _, .refl start _⟩
  trans _ _ _ h h' :=
    { length_eq := h'.length_eq.trans h.length_eq
      other := fun i hs hd => (h'.other i hs hd).trans (h.other i hs hd)
      source := h.source.trans h'.source
      dest := h.dest.trans h'.dest }

theorem keeps_filledFrom_source {α : Type} {action : Sheet.Action α} (hne : source ≠ dest)
    (h : Keeps Sheet.Alike action) : Keeps (FilledFrom start source dest) (onSheet source action) :=
  (keeps_onSheet h).mono fun _ _ h =>
    { length_eq := h.length_eq
      other := fun i hs _ => h.other i hs
      source := h.changed
      dest := by
        rw [h.sheet_eq hne.symm]
        exact .refl start _ }

theorem keeps_filledFrom_dest {α : Type} {action : Sheet.Action α} (hne : source ≠ dest)
    (h : Keeps (Sheet.SameAbove start) action) :
    Keeps (FilledFrom start source dest) (onSheet dest action) :=
  (keeps_onSheet h).mono fun _ _ h =>
    { length_eq := h.length_eq
      other := fun i _ hd => h.other i hd
      source := by
        rw [h.sheet_eq hne]
        exact .refl _
      dest := h.changed }

theorem keeps_filledFrom_copyBlock (hne : source ≠ dest) (first last lastColumn : Int) :
    Keeps (FilledFrom start source dest) (copyBlock source first last dest start lastColumn) := by
  intro b
  refine after_copyBlock (keeps_filledFrom_dest hne) fun row _ column _ => ?_
  exact keeps_filledFrom_source hne ((Sheet.keeps_openCell row column).mono fun _ _ h => h.toAlike)

/-! ## Appending -/

/-- Rows may have been added below what the one sheet held, the other sheet shows the same, and all
other sheets are the same. -/
def FilledBelow (source dest : Nat) (b b' : Workbook) : Prop :=
  FilledFrom ((b.sheet dest).lastUsed + 1) source dest b b'

instance : IsPreorder Workbook (FilledBelow source dest) where
  refl b := refl_of (FilledFrom _ source dest) b
  trans _ _ _ h h' := by
    -- what is filled later lies below what was filled first
    have hle := h.dest.lastUsed_le
    refine trans_of (FilledFrom _ source dest) h ⟨h'.length_eq, h'.other, h'.source, ?_⟩
    exact h'.dest.mono (by omega)

/-- A target that may have grown at its end, in a workbook that is otherwise as it was. -/
structure Appends (template target : String) (b b' : Workbook) : Prop where
  titles_eq : b'.titles = b.titles
  grown : ∀ place u, b.Stands target place u →
    ∃ v, b'.Stands target place v ∧ u.SameAbove (u.lastUsed + 1) v
  shown : ∀ place t, b.Stands template place t → ∃ t', b'.Stands template place t' ∧ t.Alike t'
  other : ∀ place, b.find? template ≠ some place → b.find? target ≠ some place →
    b'.sheets[place]? = b.sheets[place]?

theorem find?_eq_of_titles_eq (h : b'.titles = b.titles) (title : String) :
    b'.find? title = b.find? title := by
  have hfind (b : Workbook) : b.find? title = b.titles.findIdx? fun t => t = title := by
    rw [titles, List.findIdx?_map]
    rfl
  rw [hfind, hfind, h]

theorem Stands.of_titles_eq (hs : b.Stands title place s) (h : b'.titles = b.titles) :
    b'.Stands title place (b'.sheet place) := by
  have hfind := find?_eq_of_titles_eq h title
  rw [hs.find?_eq] at hfind
  rcases find?_eq_some_iff.mp hfind with ⟨t, ht⟩
  rwa [ht.sheet]

theorem Appends.refl (template target : String) (b : Workbook) : b.Appends template target b where
  titles_eq := rfl
  grown _ u hu := ⟨u, hu, .refl _ u⟩
  shown _ t ht := ⟨t, ht, .refl t⟩
  other _ _ _ := rfl

theorem Appends.trans (h : b.Appends template target b') (h' : b'.Appends template target b'') :
    b.Appends template target b'' where
  titles_eq := h'.titles_eq.trans h.titles_eq
  grown place u hu := by
    rcases h.grown place u hu with ⟨v, hv, huv⟩
    rcases h'.grown place v hv with ⟨w, hw, hvw⟩
    have hle := huv.lastUsed_le
    exact ⟨w, hw, huv.trans (hvw.mono (by omega))⟩
  shown place t ht := by
    rcases h.shown place t ht with ⟨t', ht', halike⟩
    rcases h'.shown place t' ht' with ⟨t'', ht'', halike'⟩
    exact ⟨t'', ht'', halike.trans halike'⟩
  other place hs hd := by
    rw [h'.other place, h.other place hs hd]
    · rwa [find?_eq_of_titles_eq h.titles_eq]
    · rwa [find?_eq_of_titles_eq h.titles_eq]

theorem FilledBelow.appends (h : b.FilledBelow source dest b') (htitles : b'.titles = b.titles)
    (hsource : b.find? template = some source) (hdest : b.find? target = some dest) :
    b.Appends template target b' where
  titles_eq := htitles
  grown place u hu := by
    obtain rfl : dest = place := by
      rw [hu.find?_eq] at hdest
      exact (Option.some.inj hdest).symm
    refine ⟨_, hu.of_titles_eq htitles, ?_⟩
    have hfilled := h.dest
    rwa [hu.sheet] at hfilled
  shown place t ht := by
    obtain rfl : source = place := by
      rw [ht.find?_eq] at hsource
      exact (Option.some.inj hsource).symm
    refine ⟨_, ht.of_titles_eq htitles, ?_⟩
    have halike := h.source
    rwa [ht.sheet] at halike
  other place hs hd := by
    rw [hsource] at hs
    rw [hdest] at hd
    exact h.other place (fun h => hs (congrArg some h.symm)) fun h => hd (congrArg some h.symm)

end Sheetwright.Workbook
