import Sheetwright.Command
import Sheetwright.Proofs.Files.Written
import Sheetwright.Proofs.Run.Watched
/-!
# The gate of a run

A run that its checks refuse changes no file. A run that is let through carries out every code and
stores the workbook once more at the end, so that its output holds the last state of the workbook
whatever became of the commits on the way: `run_gated`. Its exit code tells whether all codes were
carried out. A run that is given the empty output stores nothing at all (`not_all_held`).
-/

namespace Sheetwright.Command

open Operation

/-! ## What a run is held to -/

/-- The checks refuse a run: there is no reference, or something was found and is not overruled. -/
def Refused (loaded : Except Reference.Fault Reference) (text : List Char) (force : Bool) : Prop :=
  match loaded with
  | .ok reference => (Validation.runText reference text).diagnostics ≠ [] ∧ force = false
  | .error _ => True

/-- The output holds a workbook, as it is when it has been stored. -/
def Holds (output : String) (t : Files.Tree) (b : Workbook) : Prop :=
  t.open? (.ofText output) = .ok (.workbook b.stored)

/-- What a run leaves of the files: its output holds the workbook; without one all is as before. -/
def Leaves (output : String) (before t : Files.Tree) (b : Workbook) : Prop :=
  if output = "" then t = before else Holds output t b

/-- A run that is refused ends with 1 and changes no file. Any other run carries out all codes of
its text on the workbook it opens, leaves the files in some way, and ends with 0 if no code
failed. -/
structure Gated (leaves : Files.Tree → Workbook → Prop) (tree : Files.Tree)
    (workbook output : String) (layout : Layout) (loaded : Except Reference.Fault Reference)
    (text : List Char) (force : Bool) (o : Outcome) : Prop where
  refused : Refused loaded text force → o.exitCode = 1 ∧ o.tree = tree
  carriedOut : ¬Refused loaded text force → ∃ collection opened,
    Collection.ofText text = .ok collection ∧ Workbook.openStored tree workbook = .ok opened ∧
      let ran := Run.execute (Session.document (commit output)) layout collection.values
        ⟨opened, tree⟩
      (o.exitCode = 0 ↔ ran.1.errors = []) ∧ leaves o.tree ran.2.workbook

theorem Gated.not_refused {leaves : Files.Tree → Workbook → Prop} {tree : Files.Tree}
    {workbook output : String} {layout : Layout} {loaded : Except Reference.Fault Reference}
    {text : List Char} {force : Bool} {o : Outcome}
    (h : Gated leaves tree workbook output layout loaded text force o) (hexit : o.exitCode = 0) :
    ¬Refused loaded text force := by
  intro hrefused
  have hone := (h.refused hrefused).1
  rw [hexit] at hone
  cases hone

/-! ## One step after another -/

/-- The files of a desk satisfy a condition, whatever was printed. -/
def Filed (P : Files.Tree → Prop) (desk : Desk) : Prop := P desk.tree

/-- The files are as they were. -/
abbrev Untouched (tree : Files.Tree) : Desk → Prop := Filed (· = tree)

/-- A command that stops, though not with a fault, ends in a certain way. -/
def StopsIn (G : Outcome → Prop) (stop : Stop) (desk : Desk) : Prop :=
  (∀ cause, stop ≠ .fault cause) → G ⟨desk.printed, desk.tree, some stop⟩

section

variable {G : Outcome → Prop} {tree : Files.Tree}

theorem stopsIn_fault (cause : Fault) (desk : Desk) : StopsIn G (.fault cause) desk :=
  fun h => absurd rfl (h cause)

theorem meets_print {P : Files.Tree → Prop} {E : Stop → Desk → Prop} (line : String) :
    Meets (Filed P) (print line) (fun _ => Filed P) E :=
  Meets.modify fun _ h => h

theorem meets_orFault {ε α : Type} (toFault : ε → Fault) (r : Except ε α) :
    Meets (Untouched tree) (orFault toFault r) (fun a desk => r = .ok a ∧ Untouched tree desk)
      (StopsIn G) := by
  cases r with
  | ok a => exact Meets.done fun _ h => ⟨rfl, h⟩
  | error e => exact Meets.stop fun desk _ => stopsIn_fault _ desk

/-- The files on the desk are still those there were at first. -/
theorem meets_get {α : Type} {f : Desk → Step α} {Q : α → Desk → Prop} {E : Stop → Desk → Prop}
    (h : ∀ desk, desk.tree = tree → Meets (Untouched tree) (f desk) Q E) :
    Meets (Untouched tree) (get >>= f) Q E :=
  Meets.get_bind h

theorem meets_readText (path : String) :
    Meets (Untouched tree) (readText path)
      (fun text desk => tree.readText (.ofText path) = .ok text ∧ Untouched tree desk)
      (StopsIn G) :=
  meets_get fun desk hdesk => by
    rw [hdesk]
    exact meets_orFault _ _

theorem meets_loadSettings (environment : Environment) (path : Option String) :
    Meets (Untouched tree) (loadSettings environment path)
      (fun s desk => Settings.load tree environment path = .ok s ∧ Untouched tree desk)
      (StopsIn G) :=
  meets_get fun desk hdesk => by
    rw [hdesk]
    exact meets_orFault _ _

/-- Stopping with a refusal while the files are as they were. -/
theorem meets_refuse {α : Type} {Q : α → Desk → Prop}
    (h : ∀ o : Outcome, o.exitCode = 1 → o.tree = tree → G o) :
    Meets (Untouched tree) (throw .refused : Step α) Q (StopsIn G) :=
  Meets.stop fun _ hdesk _ => h _ rfl hdesk

theorem meets_loadReference {s : Settings} {given : Option String} {path : String}
    (hgiven : referencePath? s given = some path) (hne : path ≠ "") (mark : String)
    (hrefused : ∀ fault (o : Outcome), Reference.load tree path = .error fault →
      o.exitCode = 1 → o.tree = tree → G o) :
    Meets (Untouched tree) (loadReference s given mark)
      (fun reference desk => Reference.load tree path = .ok reference ∧ Untouched tree desk)
      (StopsIn G) := by
  rw [loadReference, hgiven]
  split
  next heq => cases heq
  next heq => exact absurd (Option.some.inj heq) hne
  next heq =>
    cases heq
    refine meets_get fun desk hdesk => ?_
    rw [hdesk]
    cases hload : Reference.load tree path with
    | ok reference => exact Meets.done fun _ h => ⟨rfl, h⟩
    | error fault =>
      cases fault with
      | nullPath => exact Meets.stop fun desk _ => stopsIn_fault _ desk
      | bytes cause => exact Meets.stop fun desk _ => stopsIn_fault _ desk
      | unreadable p cause =>
        exact Meets.bind (meets_print _) fun _ => meets_refuse fun o => hrefused _ o hload

theorem meets_gate {reference : Reference} {text : List Char} {force : Bool}
    (hrefused : ∀ o : Outcome, Refused (.ok reference) text force →
      o.exitCode = 1 → o.tree = tree → G o) :
    Meets (Untouched tree) (gate reference text force)
      (fun _ desk => ¬Refused (.ok reference) text force ∧ Untouched tree desk) (StopsIn G) := by
  have hpasses : (!(Validation.runText reference text).passed) = true ↔
      (Validation.runText reference text).diagnostics ≠ [] := by
    rw [Report.passed, Bool.not_eq_true', List.isEmpty_eq_false_iff]
  rw [gate]
  refine Meets.ite (fun hfailed => ?_) fun hpassed => ?_
  · refine Meets.bind (meets_print _) fun _ => Meets.ite (fun hforce => ?_) fun hforce => ?_
    · have hstrict : force = false := by rwa [Bool.not_eq_true'] at hforce
      refine Meets.bind (meets_print _) fun _ => meets_refuse fun o => ?_
      exact hrefused o ⟨hpasses.mp hfailed, hstrict⟩
    · refine Meets.done fun _ h => ⟨fun hrefuse => hforce ?_, h⟩
      rw [hrefuse.2]
      rfl
  · exact Meets.done fun _ h => ⟨fun hrefuse => hpassed (hpasses.mpr hrefuse.1), h⟩

/-- What is committed last is what the output holds. -/
theorem leaves_of_commit {output : String} {before : Files.Tree} {s u : Session Files.Tree}
    (hstore : output = "" → s.store = before) (h : (commit output).run s = .ok () u) :
    Leaves output before u.store s.workbook := by
  rw [EStateM.run, commit] at h
  rw [Leaves]
  by_cases houtput : output = ""
  · rw [houtput] at h
    cases h
    rw [if_pos houtput]
    exact hstore houtput
  · rw [if_neg (mt String.isEmpty_iff.mp houtput)] at h
    rw [if_neg houtput, Holds]
    -- whatever the commits before it left in its place, the last one puts the workbook there
    have hmeets := (Workbook.meets_store (.ofText output) s.workbook).ends s.store trivial
    cases hrun : (s.workbook.store (.ofText output)).run s.store with
    | ok a t =>
      rw [hrun] at h hmeets
      cases h
      exact hmeets
    | error fault t =>
      rw [hrun] at h
      cases h

theorem meets_execute (layout : Layout) (codes : List Code) (opened : Workbook) (output : String) :
    Meets (Untouched tree) (execute layout codes opened output)
      (fun result desk =>
        let ran := Run.execute (Session.document (commit output)) layout codes ⟨opened, tree⟩
        result = ran.1 ∧ Leaves output tree desk.tree ran.2.workbook)
      (StopsIn G) := by
  refine ⟨fun desk hdesk => ?_⟩
  rw [EStateM.run, execute, hdesk]
  have hstore : output = "" →
      (Run.execute (Session.document (commit output)) layout codes ⟨opened, tree⟩).2.store =
        tree := by
    rintro rfl
    exact Run.store_execute (fun _ => rfl) layout codes _
  dsimp only
  cases hcommit : (commit output).run
      (Run.execute (Session.document (commit output)) layout codes ⟨opened, tree⟩).2 with
  | ok a u => exact ⟨rfl, leaves_of_commit hstore hcommit⟩
  | error fault u => exact stopsIn_fault _ _

/-- A run ends as its gate has it, unless it stops with a fault. -/
theorem meets_runCodes {environment : Environment} {input workbook output : String}
    {reference settings : Option String} {force : Bool} {s : Settings} {path : String}
    (hloaded : Settings.load tree environment settings = .ok s)
    (hgiven : referencePath? s reference = some path) (hne : path ≠ "")
    (hgated : ∀ text o, tree.readText (.ofText input) = .ok text →
      Gated (Leaves output tree) tree workbook output s.layout (Reference.load tree path) text
        force o → G o) :
    Meets (Untouched tree) (runCodes environment input workbook output reference settings force)
      (fun _ desk => G ⟨desk.printed, desk.tree, none⟩) (StopsIn G) := by
  rw [runCodes]
  refine (meets_loadSettings environment settings).bind_fact fun s' hs' => ?_
  obtain rfl : s = s' := Except.ok.inj (hloaded.symm.trans hs')
  refine (meets_readText input).bind_fact fun text htext => ?_
  have hrefused (o : Outcome) (h : Refused (Reference.load tree path) text force)
      (hexit : o.exitCode = 1) (htree : o.tree = tree) : G o :=
    hgated text o htext ⟨fun _ => ⟨hexit, htree⟩, fun hpass => absurd h hpass⟩
  -- the checks: each of them may refuse the run, and nothing was stored so far
  refine Meets.bind (meets_print _) fun _ => ?_
  refine (meets_loadReference hgiven hne _ fun fault o hload => hrefused o ?_).bind_fact
    fun reference hreference => ?_
  · rw [hload]
    trivial
  refine (meets_gate fun o h => hrefused o (hreference ▸ h)).bind_fact fun _ hpass => ?_
  -- the run is let through; what stops it from here on is a fault, or else it comes to its end
  refine Meets.bind (meets_print _) fun _ => ?_
  refine (meets_orFault _ _).bind_fact fun collection hcollection => ?_
  refine Meets.bind (meets_print _) fun _ => Meets.bind (meets_print _) fun _ => ?_
  refine meets_get fun desk hdesk => ?_
  rw [hdesk]
  refine (meets_orFault _ _).bind_fact fun opened hopened => ?_
  refine Meets.bind (meets_execute _ _ _ _) fun result => Meets.assuming (fun _ h => h.1) ?_
  intro hresult
  have hfails : (!result.succeeded) = true ↔ result.errors ≠ [] := by
    rw [RunResult.succeeded, Bool.not_eq_true', List.isEmpty_eq_false_iff]
  have hended (o : Outcome) (hexit : o.exitCode = 0 ↔ result.errors = [])
      (hleft : Leaves output tree o.tree (Run.execute (Session.document (commit output)) s.layout
        collection.values ⟨opened, tree⟩).2.workbook) : G o :=
    hgated text o htext ⟨fun h => absurd h (hreference ▸ hpass),
      fun _ => ⟨collection, opened, hcollection, hopened, hresult ▸ hexit, hleft⟩⟩
  refine Meets.conseq_pre (P := Filed fun t => Leaves output tree t _) ?_ (fun _ h => h.2)
  refine Meets.bind (meets_print _) fun _ => Meets.bind (meets_print _) fun _ => ?_
  refine Meets.ite (fun hfailed => Meets.stop fun desk hleft _ => hended _ ?_ hleft)
    fun hdone => Meets.done fun desk hleft => hended _ ?_ hleft
  · exact iff_of_false nofun (hfails.mp hfailed)
  · exact iff_of_true rfl (not_not.mp (mt hfails.mpr hdone))

end

/-- A run that is given a reference and does not stop with a fault is held to its gate, and its
output holds the workbook as it is behind all codes. -/
theorem run_gated {environment : Environment} {tree : Files.Tree} {line : List String}
    {input workbook output : String} {reference settings : Option String} {force : Bool}
    {s : Settings} {path : String}
    (hline : ofLine? line = some (.run input workbook output reference settings force))
    (hloaded : Settings.load tree environment settings = .ok s)
    (hgiven : referencePath? s reference = some path) (hne : path ≠ "")
    (hends : ∀ cause, (perform environment tree line).stop ≠ some (.fault cause)) :
    ∃ text, tree.readText (.ofText input) = .ok text ∧
      Gated (Leaves output tree) tree workbook output s.layout (Reference.load tree path) text
        force (perform environment tree line) := by
  have hrun := (meets_runCodes (G := fun o => ∃ text, tree.readText (.ofText input) = .ok text ∧
    Gated (Leaves output tree) tree workbook output s.layout (Reference.load tree path) text
      force o) hloaded hgiven hne fun text o htext ho => ⟨text, htext, ho⟩).ends { tree } rfl
  rw [perform, hline] at hends ⊢
  dsimp only [steps] at hends ⊢
  cases hended : (runCodes environment input workbook output reference settings force).run
      { tree } with
  | ok a desk =>
    rw [hended] at hrun
    exact hrun
  | error stop desk =>
    rw [hended] at hrun hends
    exact hrun fun cause hstop => hends cause (congrArg some hstop)

/-- Codes that make a tab, the reference that allows it, and a workbook with an empty template. -/
def tabFiles : Files.Tree :=
  [(["in.txt"], .bytes "<TAB; label1=\"A\">".toUTF8.toList),
    (["codes.txt"], .bytes "TAB".toUTF8.toList),
    (["w.xlsx"], .workbook ⟨[{ title := "Codes" }]⟩)]

/-- A run of the codes of a file with some output. -/
def orderInto (output : String) : List String :=
  ["run", "in.txt", "--workbook", "w.xlsx", "--out", output, "--codes", "codes.txt"]

theorem ofLine?_orderInto (output : String) :
    ofLine? (orderInto output) =
      some (.run "in.txt" "w.xlsx" output (some "codes.txt") none false) := by
  rfl

/-- The tab is made, and the output is stored in a directory that was not there. -/
theorem run_gated_tab :
    let text := "<TAB; label1=\"A\">".toList
    let o := perform {} tabFiles (orderInto "out/o.xlsx")
    (∀ cause, o.stop ≠ some (.fault cause)) ∧ o.exitCode = 0 ∧ ∃ collection opened,
      Collection.ofText text = .ok collection ∧
        Workbook.openStored tabFiles "w.xlsx" = .ok opened ∧
          Holds "out/o.xlsx" o.tree (Run.execute (Session.document (commit "out/o.xlsx")) {}
            collection.values ⟨opened, tabFiles⟩).2.workbook := by
  intro text o
  have hread : tabFiles.readText (.ofText "in.txt") = .ok text := by
    decide +kernel
  have hended : o.stop.isNone = true := by
    decide +kernel
  have hstop : o.stop = none := Option.isNone_iff_eq_none.mp hended
  have hends : ∀ cause, o.stop ≠ some (.fault cause) := by
    rw [hstop]
    exact nofun
  have hexit : o.exitCode = 0 := by
    rw [Outcome.exitCode, hstop]
  rcases run_gated (s := {}) (ofLine?_orderInto _) (by decide +kernel) rfl (by decide) hends with
    ⟨text', htext, hgated⟩
  obtain rfl : text = text' := Except.ok.inj (hread.symm.trans htext)
  rcases hgated.carriedOut (hgated.not_refused hexit) with
    ⟨collection, opened, hcollection, hopened, -, hleft⟩
  exact ⟨hends, hexit, collection, opened, hcollection, hopened, hleft⟩

/-- The empty output leads to the working directory, which is no workbook. -/
theorem not_holds_empty (t : Files.Tree) (b : Workbook) : ¬Holds "" t b := by
  have hpath : Files.Path.ofText "" = ⟨[], false⟩ := by
    decide +kernel
  rw [Holds, hpath]
  exact nofun

/-- A run that is given the empty output ends well and stores nothing. -/
theorem not_all_held :
    ¬∀ (environment : Environment) (tree : Files.Tree) (line : List String)
      (input workbook output : String) (reference settings : Option String) (force : Bool)
      (s : Settings) (path : String),
      ofLine? line = some (.run input workbook output reference settings force) →
        Settings.load tree environment settings = .ok s →
          referencePath? s reference = some path → path ≠ "" →
            (∀ cause, (perform environment tree line).stop ≠ some (.fault cause)) →
              ∃ text, tree.readText (.ofText input) = .ok text ∧
                Gated (Holds output) tree workbook output s.layout (Reference.load tree path) text
                  force (perform environment tree line) := by
  intro hall
  have hended : (perform {} tabFiles (orderInto "")).stop.isNone = true := by
    decide +kernel
  have hstop := Option.isNone_iff_eq_none.mp hended
  rcases hall {} tabFiles (orderInto "") _ _ _ _ _ _ {} _ (ofLine?_orderInto "")
    (by decide +kernel) rfl (by decide) (by rw [hstop]; exact nofun) with ⟨text, -, hgated⟩
  have hexit : (perform {} tabFiles (orderInto "")).exitCode = 0 := by
    rw [Outcome.exitCode, hstop]
  rcases hgated.carriedOut (hgated.not_refused hexit) with ⟨collection, opened, -, -, -, hheld⟩
  exact not_holds_empty _ _ hheld

end Sheetwright.Command
