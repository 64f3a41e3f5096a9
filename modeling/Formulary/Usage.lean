import Formulary.Solution.Basic
import Formulary.Text.Arranged

/-!
# Used parameters

Which parameters a solution makes use of: those that some formula names at any tier, the filters
whose options the rules of a conditional parameter name, and all conditional parameters. The answer
may hold parameters that are not needed, never the other way round. Without calculations nothing is
used.
-/

set_option autoImplicit false
set_option relaxedAutoImplicit false

namespace Formulary

open Formulary.Name

/-- Whether a rule names one of some identities, by its condition or by its value. -/
def ConditionalRule.names (rule : ConditionalRule) (identity : String) : Bool :=
  rule.condition == identity || rule.value.any fun value ↦ value.display == identity

/-- Whether a rule of a conditional parameter names an option of a filter. -/
def feeds (filter conditional : Parameter) : Bool :=
  conditional.rules.any fun rule ↦
    (filter.options.filterMap DropdownOption.identity).any rule.names

/-- The conditional parameters. -/
def conditionals (parameters : List Parameter) : List Parameter :=
  parameters.filter (·.display == .conditional)

/-- The identities of the parameters that a formula names. -/
def namedIn (parameters : List Parameter) (formula : String) : List String :=
  (candidates formula []).flatMap fun token ↦ (referenced token parameters).map (·.id)

/-- The identities of the filters that feed a conditional parameter. -/
def feedingIds (parameters : List Parameter) : List String :=
  (parameters.filter fun parameter ↦
    parameter.isFilter && (conditionals parameters).any (feeds parameter)).map (·.id)

/-- The identities of the used parameters, in no particular order and perhaps repeated. -/
def usedIds (parameters : List Parameter) (calculations : List Calculation) : List String :=
  if calculations.isEmpty then []
  else
    calculations.flatMap (fun calculation ↦ namedIn parameters calculation.formula) ++
      feedingIds parameters ++ (conditionals parameters).map (·.id)

/-- The identities of the used parameters, each one once, in the order of their characters. -/
def usedParameterIds (parameters : List Parameter) (calculations : List Calculation) :
    List String :=
  Text.arranged (fun first second ↦ decide (first ≤ second))
    (usedIds parameters calculations).eraseDups

/-- The identities of the parameters that are not used, in the order of the parameters. -/
def unusedParameterIds (parameters : List Parameter) (calculations : List Calculation) :
    List String :=
  let used := usedIds parameters calculations
  (parameters.map (·.id)).filter fun id ↦ !used.contains id

end Formulary
