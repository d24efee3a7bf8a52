import InteropWitness.Listing
import InteropWitness.Relation.Pass
import InteropWitness.StringConversion.Pass

namespace InteropWitness

/-- What can go wrong from the texts of an analysis to its results. -/
inductive AnalysisError where
  | contract (v : Violation)
  | unit (e : UnitError)
  | listing (e : ListingError)
  | config (e : ConfigError)
deriving DecidableEq

def AnalysisError.message : AnalysisError → String
  | contract v => "contract violation: " ++ v.message
  | unit e => e.message
  | listing e => e.message
  | config e => e.message

/-- What a complete analysis of one source unit is given. -/
structure Analysis where
  unit : SourceUnit
  inputs : Inputs
  config : Config

/-- The results of the three passes. -/
structure Results where
  equality : Store RelationVerdict
  ordering : Store RelationVerdict
  stringConversion : Store StringVerdict

namespace Analysis

/-- An analysis takes a configuration without faults and exactly one unit. -/
def prepare (units : List SourceUnit) (inputs : Inputs) (config : Config) :
    Except AnalysisError Analysis :=
  match config.fault? with
  | some e => .error (.config e)
  | none =>
    match units with
    | [unit] => .ok ⟨unit, inputs, config⟩
    | _ => .error (.contract (.unitCount units.length))

variable (a : Analysis)

def context (pass : PassId) (frozenEquality : Option (Store RelationVerdict)) : Context :=
  ⟨pass, a.unit, a.config, a.inputs, frozenEquality⟩

/-- The three witness passes in the order of their dependencies, each with the frozen results of
those before it. The first violation ends the run. -/
def run : Except Violation Results := do
  PassId.checkOrder PassId.runOrder
  let equality ← (Relation.equality.analysis a.config).run (a.context .equality none)
  let ordering ← (Relation.ordering.analysis a.config).run (a.context .ordering (some equality))
  let stringConversion ←
    (StringConversion.analysis a.config).run (a.context .stringConversion (some equality))
  return ⟨equality, ordering, stringConversion⟩

end Analysis

end InteropWitness
