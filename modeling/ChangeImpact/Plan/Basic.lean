import ChangeImpact.Plan.Order
import ChangeImpact.Plan.Strategy

/-!
# Change plans

A plan orders the impacted entities and says by which strategy to update them.
-/

namespace ChangeImpact

/-- An ordered plan for a change. -/
structure ChangePlan where
  strategy : Strategy
  reasons : List String
  impactedCount : Nat
  relevantPairs : Nat
  affectedPairs : Nat
  /-- The words of the kinds of mismatches of the relevant pairs. -/
  mismatchWords : List String
  sections : List (PlanSection × List PlanStep)
deriving DecidableEq, Repr

namespace ChangePlan

def steps (p : ChangePlan) : List PlanStep := p.sections.flatMap (·.2)

def toRecord (p : ChangePlan) : Value :=
  .record [("strategy", .str p.strategy.word), ("reasons", .texts p.reasons),
    ("impacted_count", .nat p.impactedCount), ("relevant_pairs", .nat p.relevantPairs),
    ("affected_pairs", .nat p.affectedPairs), ("mismatch_kinds", .texts p.mismatchWords),
    ("sections", .list (p.sections.map fun s =>
      .record [("section", .str s.1.word), ("steps", .list (s.2.map PlanStep.toRecord))]))]

/-- The side of a pair that lacks the field of a mismatch, if one does. -/
def lackingSide? (side : Layer) (p : ContractPair) (m : Mismatch) : Option String :=
  let declared := if side = .backend then p.backend else p.frontend
  let counterpart := if side = .backend then p.frontend else p.backend
  match m.kind with
  | .missingField => some counterpart
  | .extraField => some declared
  | _ => none

/-- The field of a mismatch as a removed one: a changed entity that was not just added lacks it. -/
def removedField? (side : Layer) (changes : Changes) (p : ContractPair) (m : Mismatch) :
    Option String :=
  match lackingSide? side p m with
  | none => none
  | some id =>
    match changes.get? id with
    | none | some .added => none
    | some _ => some (id ++ "." ++ m.field.getD "None")

/-- The fields that changed entities lack while their counterparts have them. -/
def removedFields (side : Layer) (changes : Changes) (pairs : List ContractPair) : List String :=
  distinctTexts (pairs.flatMap fun p => p.mismatches.filterMap (removedField? side changes p))

/-- The pairs with a mismatch. -/
def affectedPairsOf (pairs : List ContractPair) : List ContractPair :=
  pairs.filter fun p => !p.mismatches.isEmpty

/-- What the choice of a strategy rests on, given the relevant pairs. -/
def factsOf (impact : ImpactResult) (relevant : List ContractPair) (side : Layer) : PlanFacts :=
  { impacted := impact.impacted.length
    relevant := relevant.length
    affected := (affectedPairsOf relevant).length
    kinds := relevant.flatMap fun p => p.mismatches.map Mismatch.kind
    hasRemoval := impact.changes.any fun c => c.2 == .removed
    removedFields := removedFields side impact.changes relevant }

/-- The pairs that touch changed or impacted entities. -/
def pairsTouching (impact : ImpactResult) (pairs : List ContractPair) : List ContractPair :=
  pairs.filter fun p => p.touches (impact.changes.keys ++ impact.ids)

/-- The plan for an impact, given the contract pairs and the side that is declared. -/
def generate (config : Config) (impact : ImpactResult) (pairs : List ContractPair) (side : Layer) :
    Except Fault ChangePlan := do
  let relevant := pairsTouching impact pairs
  let facts := factsOf impact relevant side
  let (strategy, reasons) ← Strategy.classify (← PlanLimits.ofEntries config.planThresholds) facts
  return {
    strategy
    reasons := reasons ++ if impact.status = .cancelled then
      ["impact analysis was cancelled; the plan covers a partial result"] else []
    impactedCount := impact.impacted.length
    relevantPairs := relevant.length
    affectedPairs := (affectedPairsOf relevant).length
    mismatchWords := facts.kindWords fun _ => true
    sections := PlanOrder.sections impact }

end ChangePlan

end ChangeImpact
