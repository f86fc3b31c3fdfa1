import ChangeImpact.Config.Basic
import ChangeImpact.Contract.Mismatch

/-!
# Strategies

How a change should be carried out, chosen from counts and configured limits. `Strategy.classify` also
gives the reasons for its choice.
-/

namespace ChangeImpact

/-- How to carry out a change. -/
inductive Strategy where
  /-- All at once. -/
  | fullSync
  /-- Step by step, since everything is added only. -/
  | progressive
  /-- As a refactoring of its own. -/
  | refactor
deriving DecidableEq, Repr

def Strategy.word : Strategy → String
  | .fullSync => "full-sync"
  | .progressive => "progressive-compatibility"
  | .refactor => "refactor-flagged"

/-- Mismatches that only add fields. -/
def MismatchKind.isAdditive : MismatchKind → Bool
  | .missingField | .extraField => true
  | _ => false

/-- Mismatches that break callers. -/
def MismatchKind.isBreaking : MismatchKind → Bool
  | .typeMismatch | .routeMismatch => true
  | _ => false

namespace Value.Numeric

/-- A number as a whole percentage. -/
def percent : Numeric → Except Fault String
  | .int n =>
    let x := Binary64.ofInt n
    if x.isFinite then .ok x.percent else .error (.overflow .intToFloat)
  | .float x => .ok x.percent

/-- Greater than another number. -/
def exceeds (a b : Numeric) : Bool := a.compare? b == some .gt

end Value.Numeric

/-- The limits for the choice of a strategy. A limit is a number by the time it is compared. -/
structure PlanLimits where
  /-- Fewer impacted entities can be changed all at once. -/
  fullSyncMax : Value
  /-- More impacted entities ask for a refactoring. -/
  refactorMin : Value
  /-- A larger share of mismatched pairs asks for a refactoring. -/
  mismatchRatio : Value

namespace PlanLimits

/-- A limit, which must be there. -/
def limitOf (entries : Entries) (name : String) : Except Fault Value :=
  match Entries.lookup? entries name with
  | some v => .ok v
  | none => .error (.key (quotedText name))

/-- The limits of a section of the configuration. -/
def ofEntries (entries : Entries) : Except Fault PlanLimits := do
  return {
    fullSyncMax := ← limitOf entries "full_sync_max_impacted"
    refactorMin := ← limitOf entries "refactor_min_impacted"
    mismatchRatio := ← limitOf entries "refactor_mismatch_ratio" }

/-- A limit as a number that another number is compared with. -/
def numberOf (typeName : String) (v : Value) : Except Fault Value.Numeric :=
  match v.numeric? with
  | some n => .ok n
  | none => .error (.type (.notOrdered typeName v.typeName))

end PlanLimits

/-- What the choice of a strategy rests on. -/
structure PlanFacts where
  /-- The number of impacted entities. -/
  impacted : Int
  /-- The number of contract pairs that touch changed or impacted entities. -/
  relevant : Int
  /-- How many of these have a mismatch. -/
  affected : Int
  kinds : List MismatchKind
  hasRemoval : Bool
  /-- Fields that a changed entity no longer declares while its counterpart does. -/
  removedFields : List String

namespace PlanFacts

/-- The share of relevant pairs with a mismatch, zero if there are no pairs. -/
def ratio (f : PlanFacts) : Except Fault Binary64 :=
  if f.relevant = 0 then .ok (.zero false) else
    let x := Binary64.ofRatio ((f.affected < 0) != (f.relevant < 0))
      f.affected.natAbs f.relevant.natAbs
    if x.isFinite then .ok x else .error (.overflow .quotientToFloat)

/-- The words of the kinds of a class, different ones in order. -/
def kindWords (f : PlanFacts) (p : MismatchKind → Bool) : List String :=
  distinctTexts ((f.kinds.filter p).map MismatchKind.word)

def hasBreaking (f : PlanFacts) : Bool := f.kinds.any MismatchKind.isBreaking

/-- Nothing is removed and only fields are added. -/
def isAdditive (f : PlanFacts) : Bool :=
  !f.hasRemoval && f.removedFields.isEmpty && f.kinds.all MismatchKind.isAdditive

/-- The reason for a refactoring that the number of impacted entities gives. -/
def countReason (f : PlanFacts) (limit : Value) : Except Fault (List String) := do
  let number ← PlanLimits.numberOf "int" limit
  if !(Value.Numeric.int f.impacted).exceeds number then return []
  return [intText f.impacted ++ " impacted entities exceed the refactor threshold of " ++
    (← limit.toText)]

/-- The reason for a refactoring that the share of mismatched pairs gives. -/
def ratioReason (f : PlanFacts) (ratio : Binary64) (limit : Value) :
    Except Fault (List String) := do
  let number ← PlanLimits.numberOf "float" limit
  if !(Value.Numeric.float ratio).exceeds number then return []
  return [intText f.affected ++ " of " ++ intText f.relevant ++ " contract pairs have mismatches (" ++
    ratio.percent ++ " > " ++ (← number.percent) ++ ")"]

/-- Reasons for a refactoring because of its size. -/
def sizeReasons (f : PlanFacts) (limits : PlanLimits) : Except Fault (List String) := do
  let ratio ← f.ratio
  return (← f.countReason limits.refactorMin) ++ (← f.ratioReason ratio limits.mismatchRatio)

/-- The impacted entities are few enough to change them all at once. -/
def fitsFullSync (f : PlanFacts) (limits : PlanLimits) : Except Fault Bool := do
  return (← PlanLimits.numberOf "int" limits.fullSyncMax).exceeds (.int f.impacted)

/-- A reason that lists words, if there are any. -/
def listReason (text : String) (words : List String) : List String :=
  if words.isEmpty then [] else [text ++ ", ".intercalate words]

/-- Reasons for a refactoring because of what is changed. -/
def changeReasons (f : PlanFacts) : List String :=
  listReason "breaking mismatches present: " (f.kindWords MismatchKind.isBreaking) ++
    (if f.hasRemoval then ["change set removes entities"] else []) ++
    listReason "change set removes contract fields: " (sortTexts f.removedFields) ++
    listReason "non-additive mismatches present: "
      (f.kindWords fun k => !k.isAdditive && !k.isBreaking)

end PlanFacts

/-- The strategy for a change and the reasons for it. The limit for changes all at once counts only
when nothing asks for a refactoring. -/
def Strategy.classify (limits : PlanLimits) (f : PlanFacts) :
    Except Fault (Strategy × List String) := do
  let size ← f.sizeReasons limits
  if !size.isEmpty then return (.refactor, size)
  if (← f.fitsFullSync limits) && !f.hasBreaking then
    return (.fullSync, [intText f.impacted ++ " impacted entities are below the full-sync threshold of " ++
      (← limits.fullSyncMax.toText), "no type or route mismatches"])
  if f.isAdditive then
    return (.progressive, ["changes are additive: no removals and only missing/extra field mismatches"])
  return (.refactor, f.changeReasons)

end ChangeImpact
