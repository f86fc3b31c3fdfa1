import ChangeImpact.Fault
import ChangeImpact.Table
import ChangeImpact.Value.Convert

/-!
# Change sets

What was changed: ids with the kind of each change. A change set is given as a mapping from ids to
kinds, or as a collection of ids that are all modified.
-/

namespace ChangeImpact

/-- Kinds of changes by id. -/
abbrev Changes := Table ChangeKind

namespace Changes

/-- Adds the changes of a mapping's entries. -/
def addEntries : Changes → Entries → Except Fault Changes
  | changes, [] => .ok changes
  | changes, (k, v) :: entries => do
    addEntries (changes.insert k.text (← Vocabulary.decode ChangeKind v)) entries

/-- The change set that a value stands for. -/
def ofValue (v : Value) : Except Fault Changes :=
  match v with
  | .map entries => addEntries [] entries
  | _ => do return Table.ofList ((← v.toMembers).map fun id => (id.text, .modified))

def toRecord (c : Changes) : Value := Table.toRecord (fun k => .str k.word) c

end Changes

end ChangeImpact
