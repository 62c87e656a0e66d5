import Sheetwright.Text.Blank
import Sheetwright.Text.Digit
import Sheetwright.Text.Search
/-!
# XML

A document is an element that holds text and further elements. Writing escapes what has a meaning of
its own; reading drops comments, declarations and the prefixes of names.
-/

namespace Sheetwright

/-- A part of a document. -/
inductive Xml where
  | element (name : String) (attributes : List (String × String)) (children : List Xml)
  | text (content : String)
  deriving Inhabited

namespace Xml

/-! ## Looking -/

def name : Xml → String
  | element name _ _ => name
  | text _ => ""

def children : Xml → List Xml
  | element _ _ children => children
  | text _ => []

def attribute? (x : Xml) (name : String) : Option String :=
  match x with
  | element _ attributes _ => attributes.lookup name
  | text _ => none

def number? (x : Xml) (name : String) : Option Nat := (x.attribute? name).bind String.toNat?

/-- The elements of a name inside an element. -/
def all (x : Xml) (name : String) : List Xml := x.children.filter (·.name = name)

/-- The first element of a name inside an element. -/
def first? (x : Xml) (name : String) : Option Xml := x.children.find? (·.name = name)

mutual

def content : Xml → String
  | text content => content
  | element _ _ children => contents children

/-- All text inside some parts. -/
def contents : List Xml → String
  | [] => ""
  | x :: rest => x.content ++ contents rest

end

/-! ## Writing -/

/-- A character as it stands in text or in an attribute. -/
def escape (c : Char) : List Char :=
  if c = '<' then "&lt;".toList
  else if c = '>' then "&gt;".toList
  else if c = '&' then "&amp;".toList
  else if c = '"' then "&quot;".toList
  else if c = '\n' || c = '\t' then "&#".toList ++ Text.decimal c.toNat ++ [';']
  else [c]

def escaped (s : String) : String := String.ofList (s.toList.flatMap escape)

mutual

def render : Xml → String
  | text content => escaped content
  | element name attributes children =>
    let written := attributes.map fun (key, value) => " " ++ key ++ "=\"" ++ escaped value ++ "\""
    let start := "<" ++ name ++ String.join written
    if children.isEmpty then start ++ "/>"
    else start ++ ">" ++ renderAll children ++ "</" ++ name ++ ">"

def renderAll : List Xml → String
  | [] => ""
  | x :: rest => x.render ++ renderAll rest

end

def document (x : Xml) : String := "<?xml version=\"1.0\" encoding=\"UTF-8\"?>\n" ++ x.render

/-! ## Reading -/

def isNameChar (c : Char) : Bool :=
  let marks := ['=', '/', '>', '<', '"', '\'', '?', '!']
  !Text.isSpace c && !marks.contains c

def localName (name : List Char) : String :=
  String.ofList (name.reverse.takeWhile (· ≠ ':')).reverse

/-- The character that a reference between an ampersand and a semicolon stands for. -/
def entity (word : List Char) : List Char :=
  match word with
  | '#' :: 'x' :: digits => [Char.ofNat (Text.inBase 16 digits)]
  | '#' :: digits => [Char.ofNat (Text.inBase 10 digits)]
  | _ => match String.ofList word with
    | "lt" => ['<']
    | "gt" => ['>']
    | "amp" => ['&']
    | "quot" => ['"']
    | "apos" => ['\'']
    | _ => '&' :: word ++ [';']

/-- The text with its references replaced. -/
def unescape : (fuel : Nat) → List Char → List Char
  | 0, source => source
  | _ + 1, [] => []
  | fuel + 1, '&' :: rest =>
    match Text.cut? ';' rest with
    | some (word, rest) => entity word ++ unescape fuel rest
    | none => '&' :: rest
  | fuel + 1, c :: rest => c :: unescape fuel rest

def unescaped (source : List Char) : String :=
  String.ofList (unescape (source.length + 1) source)

/-- The text after the first occurrence of a word. -/
def skipPast? (word : List Char) : List Char → Option (List Char)
  | [] => none
  | c :: rest =>
    if word.isPrefixOf (c :: rest) then some ((c :: rest).drop word.length)
    else skipPast? word rest

/-- Reads the attributes of a tag up to its end; the first part of the answer tells whether the tag
closes itself. -/
def readAttributes : (fuel : Nat) → List Char → Option (Bool × List (String × String) × List Char)
  | 0, _ => none
  | fuel + 1, source =>
    match source.dropWhile Text.isSpace with
    | '>' :: rest => some (false, [], rest)
    | '/' :: '>' :: rest => some (true, [], rest)
    | source => do
      let name := source.takeWhile isNameChar
      if name.isEmpty then none
      else match (source.drop name.length).dropWhile Text.isSpace with
        | '=' :: rest => match rest.dropWhile Text.isSpace with
          | quote :: rest => do
            if quote ≠ '"' && quote ≠ '\'' then none
            else
              let (value, rest) ← Text.cut? quote rest
              let (closes, attributes, rest) ← readAttributes fuel rest
              return (closes, (localName name, unescaped value) :: attributes, rest)
          | [] => none
        | _ => none

/-- Reads the parts of an element up to and with its closing tag, or up to the end of the text. -/
def readParts : (fuel : Nat) → List Char → Option (List Xml × List Char)
  | 0, _ => none
  | _ + 1, [] => some ([], [])
  | fuel + 1, '<' :: rest =>
    match rest with
    | '/' :: rest => do
      let (_, rest) ← Text.cut? '>' rest
      return ([], rest)
    | '?' :: rest => do readParts fuel (← skipPast? "?>".toList rest)
    | '!' :: '-' :: '-' :: rest => do readParts fuel (← skipPast? "-->".toList rest)
    | '!' :: rest => do
      let (_, rest) ← Text.cut? '>' rest
      readParts fuel rest
    | rest => do
      let name := rest.takeWhile isNameChar
      if name.isEmpty then none
      else
        let (closes, attributes, rest) ← readAttributes (rest.length + 1) (rest.drop name.length)
        let (inner, rest) ← if closes then some ([], rest) else readParts fuel rest
        let (siblings, rest) ← readParts fuel rest
        return (element (localName name) attributes inner :: siblings, rest)
  | fuel + 1, c :: rest => do
    let content := (c :: rest).takeWhile (· ≠ '<')
    let (siblings, last) ← readParts fuel ((c :: rest).drop content.length)
    return (text (unescaped content) :: siblings, last)

/-- Reads the element that a document consists of. -/
def read (source : List Char) : Option Xml := do
  let (parts, _) ← readParts (source.length + 2) source
  parts.find? fun x => !x.name.isEmpty

end Xml

end Sheetwright
