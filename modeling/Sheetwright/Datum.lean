import Sheetwright.Number.Shortest
import Sheetwright.Text.Quoted
/-!
# Data

A datum is a value as a settings file or a caller gives it, before any field has said what it should
be. It can be shown in two ways: plainly, as it appears inside another text, and in quoted form, as
it appears inside a message.
-/

namespace Sheetwright

/-- A value whose kind is known only at run time. A map keeps its entries in order. -/
inductive Datum where
  | null
  | bool (b : Bool)
  | int (n : Int)
  | float (x : Float)
  | text (s : String)
  | list (items : List Datum)
  | map (entries : List (Datum × Datum))
  deriving Inhabited

namespace Datum

/-- The name of the kind of a datum, as messages give it. -/
def kind : Datum → String
  | null => "NoneType"
  | bool _ => "bool"
  | int _ => "int"
  | float _ => "float"
  | text _ => "str"
  | list _ => "list"
  | map _ => "dict"

/-- A datum that counts as given: neither null nor false nor zero nor empty. -/
def isGiven : Datum → Bool
  | null => false
  | bool b => b
  | int n => n != 0
  | float x => x != 0.0
  | text s => !s.isEmpty
  | list items => !items.isEmpty
  | map entries => !entries.isEmpty

/-- The number a datum equals, truth values counting as one and zero. -/
def number? : Datum → Option Int
  | bool b => some (if b then 1 else 0)
  | int n => some n
  | float x => Number.whole? x
  | _ => none

/-- Two keys that name the same entry of a map. Numbers are the same when they are equal. -/
def sameKey (a b : Datum) : Bool :=
  match a, b with
  | null, null => true
  | text s, text t => s == t
  | float x, float y => x == y
  | _, _ => match a.number?, b.number? with
    | some m, some n => m == n
    | _, _ => false

/-- Puts an entry into a map: a known key keeps its place and takes the new value. -/
def put (key value : Datum) : List (Datum × Datum) → List (Datum × Datum)
  | [] => [(key, value)]
  | (k, v) :: rest => if sameKey k key then (k, value) :: rest else (k, v) :: put key value rest

/-- The map with the given entries put one after another. -/
def mapOf (entries : List (Datum × Datum)) : List (Datum × Datum) :=
  entries.foldl (fun entries (key, value) => put key value entries) []

def lookup (name : String) (entries : List (Datum × Datum)) : Option Datum :=
  (entries.find? fun (key, _) => sameKey key (text name)).map (·.2)

/-! ## Showing -/

mutual

def display : Datum → String
  | null => "None"
  | bool b => if b then "True" else "False"
  | int n => toString n
  | float x => Number.shortestText x
  | text s => Text.quoted s
  | list items => "[" ++ ", ".intercalate (displayItems items) ++ "]"
  | map entries => "\x7b" ++ ", ".intercalate (displayEntries entries) ++ "\x7d"

def displayItems : List Datum → List String
  | [] => []
  | item :: rest => item.display :: displayItems rest

/-- The quoted forms of the entries of a map. -/
def displayEntries : List (Datum × Datum) → List String
  | [] => []
  | (key, value) :: rest => (key.display ++ ": " ++ value.display) :: displayEntries rest

end

/-- The plain form: a text as it is, anything else in quoted form. -/
def plain : Datum → String
  | text s => s
  | datum => datum.display

end Datum

end Sheetwright
