import Propfirm.Risk.Metrics

/-!
# Drawdown helpers
-/

namespace Propfirm.Drawdown

def maxDrawdown (equity : List Money) : Decimal := (equity.foldl DrawdownScan.money .zero).maxDd

/-- The peak so far, the sample a drawdown started from and the longest one that is over. -/
structure DurationScan where
  peak : Decimal
  start : Option ℕ
  longest : ℕ
deriving DecidableEq

namespace DurationScan

def zero : DurationScan := ⟨0, none, 0⟩

/-- The drawdown that has started ends before the sample, its length a 32-bit number. -/
def finish (s : DurationScan) (i : ℕ) : ℕ :=
  match s.start with
  | none => s.longest
  | some start =>
      let len := (i - start) % 2 ^ 32
      if s.longest < len then len else s.longest

def step (s : DurationScan) (sample : Money × ℕ) : DurationScan :=
  let (m, i) := sample
  if s.peak < m then ⟨m, none, s.finish i⟩
  else if s.start = none ∧ 0 < s.peak then { s with start := some (i - 1) }
  else s

end DurationScan

def maxDrawdownDuration (equity : List Money) : ℕ :=
  (equity.zipIdx.foldl DurationScan.step .zero).finish equity.length

end Propfirm.Drawdown
