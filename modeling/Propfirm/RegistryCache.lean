import Propfirm.Hashing
import Propfirm.Lib.Memo
import Propfirm.Rules.Registry

/-!
# The cache of registries

One registry is kept for each cache key of a plan. The 64-bit hasher is a parameter.
-/

namespace Propfirm

abbrev RegistryCache := Memo.Table UInt64 RuleRegistry

variable (hash : List FieldValue → UInt64)

def ChallengePlan.planCacheKey (plan : ChallengePlan) : UInt64 := hash plan.cacheFields

namespace RegistryCache

def empty : RegistryCache := fun _ => none

/-- The cached registry of a plan, or a new one, which is then stored. -/
def getOrBuild (cache : RegistryCache) (plan : ChallengePlan) : RuleRegistry × RegistryCache :=
  Memo.get (ChallengePlan.planCacheKey hash) RuleRegistry.withDefaultRulesForPlan cache plan

def after (plans : List ChallengePlan) : RegistryCache :=
  plans.foldl (fun cache plan => (getOrBuild hash cache plan).2) empty

end RegistryCache

end Propfirm
