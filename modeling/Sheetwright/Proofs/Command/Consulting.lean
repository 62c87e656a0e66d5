import Sheetwright.Command
import Sheetwright.Proofs.Operation
import Sheetwright.Proofs.Reference.Loading
/-!
# Commands and their reference

A validation or a run that is told where its reference is loads it before it judges anything. A file
that cannot be opened is reported and the command refused, with no file changed. The only files that
end a command otherwise are those that hold no text (`reference_reported_iff`).
-/

namespace Sheetwright.Command

open Operation

/-! ## Commands that need a reference -/

/-- A validation or a run that comes to its reference at a path, and what it has printed in front
of a report about it. -/
inductive Consults (environment : Environment) (tree : Files.Tree) (path : String) :
    Command → String → Prop
  | validate {input : String} {reference settings : Option String} {s : Settings}
    (hloaded : Settings.load tree environment settings = .ok s)
    (hgiven : referencePath? s reference = some path) :
    Consults environment tree path (.validate input reference settings) "✗ "
  | run {input workbook output : String} {reference settings : Option String} {force : Bool}
    {s : Settings} {text : List Char}
    (hloaded : Settings.load tree environment settings = .ok s)
    (htext : tree.readText (.ofText input) = .ok text)
    (hgiven : referencePath? s reference = some path) :
    Consults environment tree path (.run input workbook output reference settings force)
      (s!"[1/3] Validating: {input}" ++ "\n" ++ "  ✗ ")

/-- The last thing that a command that loaded a reference did. An unreadable one was reported behind
what had been printed; any other failure is what the command ended with. -/
def Answers (loaded : Except Reference.Fault Reference) (tree : Files.Tree) (shown : String)
    (o : Outcome) : Prop :=
  match loaded with
  | .ok _ => ∀ cause, o.stop ≠ some (.fault (.reference cause))
  | .error (.unreadable path cause) => o.stop = some .refused ∧ o.tree = tree ∧
      o.printed = shown ++ (Reference.Fault.unreadable path cause).message ++ "\n"
  | .error cause => o.stop = some (.fault (.reference cause)) ∧ o.tree = tree

section

variable {tree : Files.Tree} {path shown : String} {desk : Desk} {E : Stop → Desk → Prop}

/-! ## Up to the reference -/

theorem meets_print_at (line : String) :
    Meets (· = desk) (print line)
      (fun _ d => d = { desk with printed := desk.printed ++ line ++ "\n" }) E :=
  Meets.modify fun _ h => by rw [h]

/-- Something is loaded from files that are known. -/
theorem meets_loaded_at {α ε : Type} {f : Files.Tree → Except ε α} {toFault : ε → Fault} {a : α}
    (h : f desk.tree = .ok a) :
    Meets (· = desk) (do orFault toFault (f (← get).tree)) (fun b d => b = a ∧ d = desk) E := by
  refine Meets.get_bind fun d hd => ?_
  rw [hd, h]
  exact Meets.done fun _ hd' => ⟨rfl, hd'⟩

theorem meets_loadSettings_at (desk : Desk) {environment : Environment}
    {settings : Option String} {s : Settings}
    (h : Settings.load desk.tree environment settings = .ok s) :
    Meets (· = desk) (loadSettings environment settings) (fun b d => b = s ∧ d = desk) E :=
  meets_loaded_at (f := fun tree => Settings.load tree environment settings) h

theorem meets_readText_at (desk : Desk) {input : String} {text : List Char}
    (h : desk.tree.readText (.ofText input) = .ok text) :
    Meets (· = desk) (readText input) (fun b d => b = text ∧ d = desk) E :=
  meets_loaded_at (f := fun tree => tree.readText (.ofText input)) h

/-- A command that stops with its reference, or because of it, takes account of it. -/
abbrev StopsWith (tree : Files.Tree) (path shown : String) (stop : Stop) (desk : Desk) : Prop :=
  Answers (Reference.load tree path) tree shown ⟨desk.printed, desk.tree, some stop⟩

theorem meets_loadReference_at {s : Settings} {given : Option String} (mark : String)
    (htree : desk.tree = tree) (hshown : desk.printed ++ mark = shown)
    (hgiven : referencePath? s given = some path) (hne : path ≠ "") :
    Meets (· = desk) (loadReference s given mark)
      (fun reference _ => Reference.load tree path = .ok reference)
      (StopsWith tree path shown) := by
  rw [loadReference, hgiven]
  split
  next heq => cases heq
  next heq => exact absurd (Option.some.inj heq) hne
  next heq =>
    cases heq
    refine Meets.get_bind fun d hd => ?_
    rw [hd, htree]
    cases hload : Reference.load tree path with
    | ok reference => exact Meets.done fun _ _ => rfl
    | error fault =>
      -- only a file that cannot be opened is reported under the mark
      cases fault with
      | nullPath =>
        refine Meets.stop fun d hd => ?_
        rw [StopsWith, hload, hd]
        exact ⟨rfl, htree⟩
      | bytes cause =>
        refine Meets.stop fun d hd => ?_
        rw [StopsWith, hload, hd]
        exact ⟨rfl, htree⟩
      | unreadable p cause =>
        refine Meets.bind (meets_print_at _) fun _ => Meets.stop fun d hd => ?_
        rw [StopsWith, hload, hd]
        refine ⟨rfl, htree, ?_⟩
        rw [← hshown]
        simp only [String.append_assoc]

/-! ## Behind the reference -/

/-- A stop that is not about a reference. -/
def Elsewhere (stop : Stop) (_ : Desk) : Prop := ∀ cause, stop ≠ .fault (.reference cause)

theorem meets_print_elsewhere (line : String) :
    Meets (fun _ => True) (print line) (fun _ _ => True) Elsewhere :=
  Meets.modify fun _ _ => trivial

theorem meets_orFault_elsewhere {α ε : Type} {toFault : ε → Fault}
    (h : ∀ e cause, toFault e ≠ .reference cause) (r : Except ε α) :
    Meets (fun _ => True) (orFault toFault r) (fun _ _ => True) Elsewhere := by
  cases r with
  | ok a => exact Meets.done fun _ _ => trivial
  | error e => exact Meets.stop fun _ _ cause hstop => h e cause (Stop.fault.inj hstop)

theorem meets_execute_elsewhere (layout : Layout) (codes : List Code) (opened : Workbook)
    (output : String) :
    Meets (fun _ => True) (execute layout codes opened output) (fun _ _ => True) Elsewhere := by
  refine ⟨fun desk _ => ?_⟩
  rw [EStateM.run, execute]
  dsimp only
  cases (commit output).run (Run.execute (Session.document (commit output)) layout codes
    ⟨opened, desk.tree⟩).2 with
  | ok a u => trivial
  | error fault u => exact nofun

theorem meets_refuse_elsewhere {c : Prop} [Decidable c] :
    Meets (fun _ => True) (if c then throw .refused else pure () : Step Unit) (fun _ _ => True)
      Elsewhere :=
  Meets.ite (fun _ => Meets.stop fun _ _ => nofun) fun _ => Meets.done fun _ _ => trivial

theorem meets_gate_elsewhere (reference : Reference) (text : List Char) (force : Bool) :
    Meets (fun _ => True) (gate reference text force) (fun _ _ => True) Elsewhere := by
  rw [gate]
  refine Meets.ite (fun _ => ?_) fun _ => Meets.done fun _ _ => trivial
  refine Meets.bind (meets_print_elsewhere _) fun _ => Meets.ite (fun _ => ?_) fun _ => ?_
  · exact Meets.bind (meets_print_elsewhere _) fun _ => Meets.stop fun _ _ => nofun
  · exact Meets.done fun _ _ => trivial

/-- With the reference at hand a command takes account of it whatever it stops with elsewhere. -/
theorem meets_elsewhere {α : Type} {x : Step α} {P : Desk → Prop} {reference : Reference}
    (hload : Reference.load tree path = .ok reference)
    (hx : Meets (fun _ => True) x (fun _ _ => True) Elsewhere) :
    Meets P x (fun _ _ => ∃ reference, Reference.load tree path = .ok reference)
      (StopsWith tree path shown) := by
  refine hx.conseq (fun _ _ => trivial) (fun _ _ _ => ⟨reference, hload⟩) fun stop desk h => ?_
  rw [StopsWith, hload]
  exact fun cause hstop => h cause (Option.some.inj hstop)

theorem meets_consulting {environment : Environment} {command : Command}
    (h : Consults environment tree path command shown) (hne : path ≠ "") :
    Meets (· = { tree }) (command.steps environment)
      (fun _ _ => ∃ reference, Reference.load tree path = .ok reference)
      (StopsWith tree path shown) := by
  cases h with
  -- up to the reference nothing else stops the command; what stops it later is no fault of it
  | @validate input given settings s hloaded hgiven =>
    refine (meets_loadSettings_at { tree } hloaded).bind_fact fun s' hs' => ?_
    obtain rfl : s' = s := hs'
    have hshown : "" ++ "✗ " = "✗ " := String.empty_append
    refine Meets.bind (meets_loadReference_at "✗ " rfl hshown hgiven hne) fun reference => ?_
    refine Meets.assuming (fun _ h => h) fun hload => meets_elsewhere hload ?_
    refine Meets.bind (Meets.get_bind fun _ _ => meets_orFault_elsewhere nofun _) fun text => ?_
    exact Meets.bind (meets_print_elsewhere _) fun _ => meets_refuse_elsewhere
  | @run input workbook output given settings force s text hloaded htext hgiven =>
    refine (meets_loadSettings_at { tree } hloaded).bind_fact fun s' hs' => ?_
    obtain rfl : s' = s := hs'
    refine (meets_readText_at { tree } htext).bind_fact fun text' htext' => ?_
    obtain rfl : text' = text := htext'
    refine Meets.bind (meets_print_at _) fun _ => ?_
    rw [String.empty_append]
    refine Meets.bind (meets_loadReference_at "  ✗ " rfl rfl hgiven hne) fun reference => ?_
    refine Meets.assuming (fun _ h => h) fun hload => meets_elsewhere hload ?_
    refine Meets.bind (meets_gate_elsewhere _ _ _) fun _ => ?_
    refine Meets.bind (meets_print_elsewhere _) fun _ => ?_
    refine Meets.bind (meets_orFault_elsewhere nofun _) fun collection => ?_
    refine Meets.bind (meets_print_elsewhere _) fun _ => ?_
    refine Meets.bind (meets_print_elsewhere _) fun _ => Meets.get_bind fun _ _ => ?_
    refine Meets.bind (meets_orFault_elsewhere nofun _) fun opened => ?_
    refine Meets.bind (meets_execute_elsewhere _ _ _ _) fun result => ?_
    refine Meets.bind (meets_print_elsewhere _) fun _ => ?_
    exact Meets.bind (meets_print_elsewhere _) fun _ => meets_refuse_elsewhere

/-! ## Endings -/

theorem answers_perform {environment : Environment} {line : List String} {command : Command}
    (hline : ofLine? line = some command)
    (h : Consults environment tree path command shown) (hne : path ≠ "") :
    Answers (Reference.load tree path) tree shown (perform environment tree line) := by
  have hends := (meets_consulting h hne).ends { tree } rfl
  rw [perform, hline]
  dsimp only
  cases hrun : (command.steps environment).run { tree } with
  | ok a desk =>
    rw [hrun] at hends
    obtain ⟨reference, hload⟩ := hends
    rw [hload]
    exact nofun
  | error stop desk =>
    rw [hrun] at hends
    exact hends

/-- A command ends with what is wrong with its reference exactly if this could not be reported. -/
theorem Answers.legible_iff {o : Outcome} (h : Answers (Reference.load tree path) tree shown o) :
    Reference.Legible tree path ↔ ∀ cause, o.stop ≠ some (.fault (.reference cause)) := by
  rw [Reference.legible_iff]
  cases hload : Reference.load tree path with
  | ok reference =>
    rw [hload] at h
    exact iff_of_true (.inl ⟨reference, rfl⟩) h
  | error fault =>
    rw [hload] at h
    cases fault with
    | unreadable p cause =>
      refine iff_of_true (.inr ⟨p, cause, rfl⟩) ?_
      rw [h.1]
      exact nofun
    | nullPath => exact iff_of_false (by simp) fun hno => hno _ h.1
    | bytes cause => exact iff_of_false (by simp) fun hno => hno _ h.1

end

/-- Loading a reference gives the types on the lines of its file, or reports that the file cannot be
opened, exactly if the file holds the bytes of a text. A validation or a run that comes to its
reference ends with no other failure because of it in these cases, and in no other case. -/
theorem reference_reported_iff (tree : Files.Tree) (path : String) :
    (Reference.Legible tree path ↔
      (∃ reference, Reference.load tree path = .ok reference) ∨
        ∃ shown cause, Reference.load tree path = .error (.unreadable shown cause)) ∧
    (∀ reference, Reference.load tree path = .ok reference ↔
      (Files.Path.ofText path).holdsNull = false ∧ ∃ node text,
        tree.open? (.ofText path) = .ok node ∧
          Text.encodeUtf8 (String.ofList text) = node.content ∧ reference.Lists text) ∧
    (∀ shown cause, Reference.load tree path = .error (.unreadable shown cause) ↔
      (Files.Path.ofText path).holdsNull = false ∧ tree.open? (.ofText path) = .error cause ∧
        shown = (Files.Path.ofText path).text) ∧
    ∀ (environment : Environment) (line : List String) (command : Command) (shown : String),
      ofLine? line = some command → Consults environment tree path command shown → path ≠ "" →
        (Reference.Legible tree path ↔ ∀ cause,
          (perform environment tree line).stop ≠ some (.fault (.reference cause))) ∧
        Answers (Reference.load tree path) tree shown (perform environment tree line) := by
  refine ⟨Reference.legible_iff, fun _ => Reference.load_eq_ok_iff,
    fun _ _ => Reference.load_eq_unreadable_iff, ?_⟩
  intro environment line command shown hline hconsults hne
  have hanswers := answers_perform hline hconsults hne
  exact ⟨hanswers.legible_iff, hanswers⟩

/-- Codes, and a reference whose only byte begins no character. -/
def strayFiles : Files.Tree :=
  [(["in.txt"], .bytes "<A>".toUTF8.toList), (["codes.txt"], .bytes [0xFF])]

/-- A validation of the codes by the reference at a path. -/
def orderBy (path : String) : List String := ["validate", "in.txt", "--codes", path]

theorem not_legible_stray : ¬Reference.Legible strayFiles "codes.txt" := by
  rintro ⟨-, hcontent⟩
  have hpath : Files.Path.ofText "codes.txt" = ⟨["codes.txt"], false⟩ := by
    decide +kernel
  obtain ⟨text, hbytes⟩ := hcontent (.bytes [0xFF]) (by rw [hpath]; rfl)
  have hdecode := Text.decodeUtf8_ok_iff.mpr hbytes
  cases hdecode

/-- A validation ends with the failure to read such a reference, while one that is told of a file
that is not there reports this. -/
theorem reference_reported_iff_stray :
    (∃ cause, (perform {} strayFiles (orderBy "codes.txt")).stop =
      some (.fault (.reference cause))) ∧
    (perform {} strayFiles (orderBy "types.txt")).stop = some .refused := by
  constructor
  · obtain ⟨-, -, -, hcommands⟩ := reference_reported_iff strayFiles "codes.txt"
    obtain ⟨hiff, -⟩ := hcommands {} (orderBy "codes.txt") _ _ rfl
      (.validate (s := {}) rfl rfl) (by decide)
    have hstop := mt hiff.mpr not_legible_stray
    push Not at hstop
    exact hstop
  · have hpath : Files.Path.ofText "types.txt" = ⟨["types.txt"], false⟩ := by
      decide +kernel
    obtain ⟨-, -, hreports, hcommands⟩ := reference_reported_iff strayFiles "types.txt"
    have hload := (hreports "types.txt" (.missing "types.txt")).mpr (by
      rw [hpath]
      exact ⟨by decide, rfl, rfl⟩)
    obtain ⟨-, hanswers⟩ := hcommands {} (orderBy "types.txt") _ _ rfl
      (.validate (s := {}) rfl rfl) (by decide)
    rw [hload] at hanswers
    exact hanswers.1

/-- Not every failure to read a reference is reported. -/
theorem not_all_reported :
    ¬∀ (tree : Files.Tree) (path : String),
      (∃ reference, Reference.load tree path = .ok reference) ∨
        ∃ shown cause, Reference.load tree path = .error (.unreadable shown cause) := by
  intro hall
  exact not_legible_stray (Reference.legible_iff.mpr (hall strayFiles "codes.txt"))

end Sheetwright.Command
