/-!
# Entries

A list of keys and values in which the order of insertion is kept: a key that is put again keeps its
place and takes the new value.
-/

namespace Sheetwright

/-- Keys with their values, in order of insertion. -/
abbrev Entries (α β : Type) := List (α × β)

namespace Entries

variable {α β : Type} [BEq α]

def get? (key : α) (entries : Entries α β) : Option β := List.lookup key entries

def has (key : α) (entries : Entries α β) : Bool := (entries.get? key).isSome

def put (key : α) (value : β) : Entries α β → Entries α β
  | [] => [(key, value)]
  | (k, v) :: rest => if k == key then (k, value) :: rest else (k, v) :: put key value rest

def erase (key : α) (entries : Entries α β) : Entries α β :=
  entries.filter fun (k, _) => !(k == key)

def ofPairs (pairs : List (α × β)) : Entries α β :=
  pairs.foldl (fun entries (key, value) => entries.put key value) []

def keys (entries : Entries α β) : List α := entries.map (·.1)

end Entries

end Sheetwright
