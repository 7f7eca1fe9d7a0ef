import Propfirm.Engine.Lemmas.Estimates
import Propfirm.Engine.Theorems.Promotion

/-!
# Estimated ticks do not interfere

Two series of calls whose estimated ticks carry other prices give the same verdicts, and accounts that
differ in nothing but the estimate.
-/

namespace Propfirm

open Fallible

variable {p : Pipeline}

/-- The account a caller goes on with: an event that is refused leaves it as it was. -/
def Account.after (a : Account) : Outcome PipelineResult → Account
  | .ok r => r.account
  | .error _ => a

/-- The events in turn, and what was decided on each. -/
def Pipeline.feed (p : Pipeline) : Account → List (Env × PipelineEvent) →
    Account × List (Outcome EvaluationResult)
  | a, [] => (a, [])
  | a, (env, ev) :: rest =>
      let outcome := p.process env a ev
      let (b, results) := p.feed (a.after outcome) rest
      (b, outcome.map PipelineResult.result :: results)

def withoutQuotes (calls : List (Env × PipelineEvent)) : List (Env × PipelineEvent) :=
  calls.map fun call => (call.1, call.2.withoutQuote)

/-- The account at the end, its estimate apart, and all the verdicts on the way. -/
def Pipeline.observedFeed (p : Pipeline) (a : Account) (calls : List (Env × PipelineEvent)) :
    Account × List (Outcome EvaluationResult) :=
  ((p.feed a calls).1.withoutEstimate, (p.feed a calls).2)

theorem after_congr {a b : Account} {x y : Outcome PipelineResult}
    (hab : a.withoutEstimate = b.withoutEstimate)
    (h : x.map PipelineResult.observed = y.map PipelineResult.observed) :
    (a.after x).withoutEstimate = (b.after y).withoutEstimate ∧
      x.map PipelineResult.result = y.map PipelineResult.result := by
  cases x with
  | error f =>
      cases y with
      | error f' => exact ⟨hab, congrArg Except.error (Except.error.inj h)⟩
      | ok r' => cases h
  | ok r =>
      cases y with
      | error f' => cases h
      | ok r' =>
          obtain ⟨haccount, hresult⟩ := Prod.mk.inj (Except.ok.inj h)
          exact ⟨haccount, congrArg Except.ok hresult⟩

theorem observedFeed_congr (hp : p.registry.IsDefault) {a b : Account}
    {calls calls' : List (Env × PipelineEvent)} (hab : a.withoutEstimate = b.withoutEstimate)
    (hcalls : withoutQuotes calls = withoutQuotes calls') :
    p.observedFeed a calls = p.observedFeed b calls' := by
  induction calls generalizing a b calls' with
  | nil =>
      obtain rfl := List.map_eq_nil_iff.mp hcalls.symm
      exact congrArg (·, []) hab
  | cons call calls ih =>
      obtain ⟨⟨env', ev'⟩, calls', rfl, hcall, htail⟩ := List.map_eq_cons_iff.mp hcalls.symm
      obtain ⟨env, ev⟩ := call
      obtain ⟨rfl, hev⟩ := Prod.mk.inj hcall
      obtain ⟨hafter, hresult⟩ := after_congr hab (process_congr hp hab hev.symm)
      obtain ⟨hend, hrest⟩ := Prod.mk.inj (ih hafter htail.symm)
      exact Prod.ext hend (congrArg₂ List.cons hresult hrest)

/-- The price of an estimated tick changes neither what is decided on it nor the account, its estimate
apart; a series of such prices changes no verdict on any event in between or after. -/
theorem estimates_do_not_interfere (hp : p.registry.IsDefault) :
    (∀ (env : Env) (a : Account) (tick tick' : Tick), tick.symbol = tick'.symbol →
      tick.quote.ts = tick'.quote.ts →
        (p.process env a (.tickEstimated tick)).map PipelineResult.observed =
          (p.process env a (.tickEstimated tick')).map PipelineResult.observed) ∧
      ∀ (a : Account) (calls calls' : List (Env × PipelineEvent)),
        withoutQuotes calls = withoutQuotes calls' → p.observedFeed a calls = p.observedFeed a calls' := by
  refine ⟨fun env a tick tick' hsymbol hts => process_congr hp rfl ?_, fun a calls calls' hcalls =>
    observedFeed_congr hp rfl hcalls⟩
  simp only [PipelineEvent.withoutQuote, hsymbol, hts]

def longAccount : Account :=
  { Account.new ⟨1⟩ ⟨1⟩ promptPlan with
    status := .active
    openPositions := [.open ⟨1⟩ ⟨1⟩ ⟨"EURUSD"⟩ .long 1 10000 0 0] }

def estimateAt (second : ℤ) (price : Price) : Env × PipelineEvent :=
  (.at (Duration.seconds second), .tickEstimated ⟨⟨"EURUSD"⟩, ⟨price, price, Duration.seconds second⟩⟩)

/-- One price wipes the account out, the other doubles it, and the broker's tick is judged the same. -/
theorem estimates_do_not_interfere_extremes :
    ((Pipeline.ofPlan promptPlan).feed longAccount [estimateAt 1 0]).1.estimatedEquity = 0 ∧
      ((Pipeline.ofPlan promptPlan).feed longAccount [estimateAt 1 2]).1.estimatedEquity = 20000 ∧
      (Pipeline.ofPlan promptPlan).observedFeed longAccount [estimateAt 1 0, brokerTick 2 10000] =
        (Pipeline.ofPlan promptPlan).observedFeed longAccount [estimateAt 1 2, brokerTick 2 10000] :=
  ⟨by decide +kernel, by decide +kernel,
    (estimates_do_not_interfere (.inr ⟨promptPlan, rfl⟩)).2 _ _ _ rfl⟩

end Propfirm
