import ChangeImpact.Distinct
import ChangeImpact.Text.Point
import ChangeImpact.Value.Basic

/-!
# Tables and sorting

A table is a list of entries in the order of their keys, with one entry for each key. Texts are
ordered by code points, and lists of texts lexicographically; all sorting is stable.
-/

namespace ChangeImpact

/-- Entries by key, in the order of the keys. -/
abbrev Table (α : Type) := List (String × α)

namespace Table

variable {α β : Type}

/-- The entry of a key. -/
def get? : Table α → String → Option α
  | [], _ => none
  | (k, v) :: rest, key => if k = key then some v else get? rest key

def contains (t : Table α) (key : String) : Bool := (t.get? key).isSome

/-- Sets the entry of a key, at its place in the order. -/
def insert : Table α → String → α → Table α
  | [], key, value => [(key, value)]
  | (k, v) :: rest, key, value =>
    if k = key then (key, value) :: rest
    else if Text.lt key k then (key, value) :: (k, v) :: rest
    else (k, v) :: insert rest key value

/-- Removes the entry of a key. -/
def erase (t : Table α) (key : String) : Table α := t.filter fun e => e.1 != key

def keys (t : Table α) : List String := t.map (·.1)

def values (t : Table α) : List α := t.map (·.2)

/-- The table of some entries, of which the last for each key counts. -/
def ofList (entries : List (String × α)) : Table α :=
  entries.foldl (fun t e => t.insert e.1 e.2) []

/-- A table as a mapping. -/
def toRecord (f : α → Value) (t : Table α) : Value := .record (t.map fun e => (e.1, f e.2))

end Table

/-- Texts in order. -/
def sortTexts (xs : List String) : List String := xs.mergeSort Text.le

/-- Different texts in order. -/
def distinctTexts (xs : List String) : List String := sortTexts (keepFirst (· == ·) xs)

/-- The strict order of lists of texts. -/
def rankLt (a b : List String) : Bool := decide (a.map Text.codes < b.map Text.codes)

/-- Elements in the order of their ranks. -/
def sortByRank {α : Type} (rank : α → List String) (xs : List α) : List α :=
  xs.mergeSort fun a b => !rankLt (rank b) (rank a)

end ChangeImpact
