import Propfirm.Rules.Theorems.Utilization

/-!
# Early warnings

An early warning is due once a fraction of the limit is used up. Each drawdown rule has its own way of
telling when that is.
-/

namespace Propfirm

open Threshold

variable {params : Option RuleParams} {ctx : RuleContext} {equity : Money}

inductive DrawdownRule where
  | total
  | daily
  | trailing
deriving DecidableEq

namespace DrawdownRule

def rule : DrawdownRule → Option RuleParams → StdRule
  | .total => maxDrawdownRule
  | .daily => dailyDrawdownRule
  | .trailing => trailingDrawdownRule

def Warns (k : DrawdownRule) (params : Option RuleParams) (ctx : RuleContext) : Prop :=
  (k.rule params).isEnabled ctx = true ∧ (k.rule params).WarnsEarly ctx

end DrawdownRule

end Propfirm
