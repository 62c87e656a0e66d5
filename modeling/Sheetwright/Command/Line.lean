import Sheetwright.Entries
/-!
# Command lines

A command line names a command and gives it arguments and options. An option takes the next word as
its value, or the one behind an equals sign; a flag takes none. Two dashes alone end the options.
-/

namespace Sheetwright

/-- What the program is asked to do. -/
inductive Command where
  /-- List the codes of a text, and with `showDropped` what was dropped. -/
  | parse (input : String) (showDropped : Bool)
  /-- Check the codes of a text against a reference. -/
  | validate (input : String) (reference settings : Option String)
  /-- Carry out the codes of a text on a workbook and store it elsewhere. -/
  | run (input workbook output : String) (reference settings : Option String) (force : Bool)
  /-- Store a template. -/
  | template (output : String) (settings : Option String)
  deriving Repr, DecidableEq

namespace Command

def files : Command → List String
  | parse input _ => [input]
  | validate input reference settings => [input] ++ reference.toList ++ settings.toList
  | run input workbook output reference settings _ =>
    [input, workbook, output] ++ reference.toList ++ settings.toList
  | template output settings => [output] ++ settings.toList

def settings? : Command → Option String
  | parse .. => none
  | validate _ _ settings | run _ _ _ _ settings _ | template _ settings => settings

/-! ## Words -/

/-- The words of a command line: arguments in order, and options with their values. -/
structure Words where
  arguments : List String := []
  options : Entries String String := []
  deriving Repr, DecidableEq

/-- The options of a command and its flags. -/
structure Grammar where
  valued : List String := []
  flags : List String := []

/-- Splits a word at its first equals sign. -/
def splitValue (word : String) : String × Option String :=
  let name := word.toList.takeWhile (· ≠ '=')
  match word.toList.drop name.length with
  | [] => (word, none)
  | _ :: value => (String.ofList name, some (String.ofList value))

def isOption (word : String) : Bool := word.toList.head? = some '-' && 1 < word.length

/-- Takes words apart; a word that does not fit makes the whole line unusable. -/
def Grammar.read? (g : Grammar) (words : Words) : List String → Option Words
  | [] => some words
  | word :: rest =>
    if word = "--" then some { words with arguments := words.arguments ++ rest }
    else if isOption word then
      match splitValue word with
      | (name, value?) =>
        if g.valued.contains name then
          match value?, rest with
          | some value, rest => g.read? { words with options := words.options.put name value } rest
          | none, value :: rest =>
            g.read? { words with options := words.options.put name value } rest
          | none, [] => none
        else if g.flags.contains name && value?.isNone then
          g.read? { words with options := words.options.put name "" } rest
        else none
    else g.read? { words with arguments := words.arguments ++ [word] } rest

/-! ## Commands -/

/-- Where the template is unless told otherwise. -/
def defaultTemplate : String := "templates/master.xlsx"

/-- Where a run stores its workbook unless told otherwise. -/
def defaultOutput : String := "output/model.xlsx"

def ofWords? (name : String) (rest : List String) : Option Command :=
  match name with
  | "parse" => do
    let words ← Grammar.read? { flags := ["--show-skipped"] } {} rest
    match words.arguments with
    | [input] => some (.parse input (words.options.has "--show-skipped"))
    | _ => none
  | "validate" => do
    let words ← Grammar.read? { valued := ["--codes", "--config"] } {} rest
    match words.arguments with
    | [input] =>
      some (.validate input (words.options.get? "--codes") (words.options.get? "--config"))
    | _ => none
  | "run" => do
    let words ← Grammar.read?
      { valued := ["--workbook", "--out", "--codes", "--config"], flags := ["--force"] } {} rest
    let option := words.options.get?
    match words.arguments with
    | [input] => some (.run input ((option "--workbook").getD defaultTemplate)
        ((option "--out").getD defaultOutput) (option "--codes") (option "--config")
        (words.options.has "--force"))
    | _ => none
  | "template" => do
    let words ← Grammar.read? { valued := ["--out", "--config"] } {} rest
    match words.arguments with
    | [] => some (.template ((words.options.get? "--out").getD defaultTemplate)
        (words.options.get? "--config"))
    | _ => none
  | _ => none

def usage : String := "\n".intercalate
  ["usage:",
   "  parse INPUT [--show-skipped]",
   "  validate INPUT [--codes FILE] [--config FILE]",
   "  run INPUT [--workbook FILE] [--out FILE] [--codes FILE] [--config FILE] [--force]",
   "  template [--out FILE] [--config FILE]"]

def ofLine? : List String → Option Command
  | [] => none
  | "--" :: name :: rest => ofWords? name rest
  | name :: rest => ofWords? name rest

end Command

end Sheetwright
