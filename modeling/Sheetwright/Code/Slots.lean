import Sheetwright.Datum
import Sheetwright.Text.Integer
/-!
# Slots

A group of indexed attributes has a fixed number of slots, counted from one. Slots that were not
given are empty. A group is built from a list, which fills the slots from the first on, or from a
map of indices, of which a later one wins.
-/

namespace Sheetwright

/-- A fixed number of text slots. -/
structure Slots (size : Nat) where
  values : List String
  length_values : values.length = size
  deriving Repr, DecidableEq

namespace Slots

variable {size : Nat}

def blank : Slots size := ⟨List.replicate size "", List.length_replicate⟩

instance : Inhabited (Slots size) := ⟨blank⟩

def ofFunction (f : Nat → String) : Slots size :=
  ⟨(List.range size).map fun i => f (i + 1), by simp⟩

/-- The slots with one value replaced; an index outside the slots changes nothing. -/
def set (s : Slots size) (index : Nat) (value : String) : Slots size :=
  ⟨if index = 0 then s.values else s.values.set (index - 1) value, by
    split
    · exact s.length_values
    · simp [s.length_values]⟩

/-- The value of a slot, if the index is one of the slots. -/
def get? (s : Slots size) (index : Int) : Option String :=
  if 1 ≤ index then s.values[index.toNat - 1]? else none

/-- The values that are not empty, each with its index. -/
def filled (s : Slots size) : List (Nat × String) :=
  (s.values.zipIdx 1).filterMap fun (value, index) =>
    if value.isEmpty then none else some (index, value)

/-! ## Building -/

/-- Why a group is refused. -/
inductive Refusal where
  /-- An index lies outside the slots. -/
  | outOfRange (index : Int) (size : Nat)
  /-- A list has more values than there are slots. -/
  | tooMany (size count : Nat)
  /-- An index is not the text of an integer. -/
  | unreadable (fault : Text.IntegerFault)
  deriving Repr, DecidableEq

def Refusal.message : Refusal → String
  | .outOfRange index size => s!"Slot index {index} out of range 1..{size}"
  | .tooMany size count => s!"Expected at most {size} slots, got {count}"
  | .unreadable fault => fault.message

/-- A datum that cannot be a group or an index at all. -/
inductive Misfit where
  | notIterable (kind : String)
  | notNumber (kind : String)
  deriving Repr, DecidableEq

def Misfit.message : Misfit → String
  | .notIterable kind => s!"'{kind}' object is not iterable"
  | .notNumber kind =>
    s!"int() argument must be a string, a bytes-like object or a real number, not '{kind}'"

def valueText : Datum → String
  | .null => ""
  | datum => datum.plain

def ofList (items : List String) : Except Refusal (Slots size) :=
  if h : items.length ≤ size then
    .ok ⟨items ++ List.replicate (size - items.length) "", by simp; omega⟩
  else .error (.tooMany size items.length)

/-- The slots with one value replaced, if the index is one of the slots. -/
def assign (s : Slots size) (index : Int) (value : String) : Except Refusal (Slots size) :=
  if 1 ≤ index ∧ index ≤ size then .ok (s.set index.toNat value)
  else .error (.outOfRange index size)

def readIndex : Datum → Except (Misfit ⊕ Refusal) Int
  | .int n => .ok n
  | .bool b => .ok (if b then 1 else 0)
  | .float x => match Number.Binary.ofFloat x with
    | .finite negative mantissa exponent =>
      let r := Number.Ratio.scale ⟨mantissa, 1⟩ 2 exponent
      .ok (if negative then -((r.num / r.den : Nat) : Int) else ((r.num / r.den : Nat) : Int))
    | _ => .error (.inl (.notNumber "float"))
  | .text s => (Text.readInteger s).mapError fun fault => .inr (.unreadable fault)
  | datum => .error (.inl (.notNumber datum.kind))

/-- Reads map entries one by one, so that the first entry that fails decides. -/
def readEntries (slots : Slots size) :
    List (Datum × Datum) → Except (Misfit ⊕ Refusal) (Slots size)
  | [] => .ok slots
  | (key, value) :: rest => do
    let index ← readIndex key
    let slots ← (slots.assign index (valueText value)).mapError .inr
    readEntries slots rest

def ofDatum : Datum → Except (Misfit ⊕ Refusal) (Slots size)
  | .null => .ok blank
  | .map entries => readEntries blank entries
  | .list items => (ofList (items.map valueText)).mapError .inr
  | .text s => (ofList (s.toList.map String.singleton)).mapError .inr
  | datum => .error (.inl (.notIterable datum.kind))

end Slots

end Sheetwright
