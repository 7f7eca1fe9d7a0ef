import Propfirm.Core.Types

/-!
# Risk metrics

Metrics of a curve of equity samples and of a list of trade results.
-/

namespace Propfirm

/-! ## Drawdown -/

/-- The peak so far and the largest drawdown from it. -/
structure DrawdownScan where
  peak : Decimal
  maxDd : Decimal
deriving DecidableEq

namespace DrawdownScan

def zero : DrawdownScan := ⟨0, 0⟩

def lift (s : DrawdownScan) (m : Money) : DrawdownScan :=
  if s.peak < m then { s with peak := m } else s

def note (s : DrawdownScan) (dd : Decimal) : DrawdownScan :=
  if s.maxDd < dd then { s with maxDd := dd } else s

def money (s : DrawdownScan) (m : Money) : DrawdownScan :=
  let s := s.lift m
  s.note (s.peak - m)

/-- A peak of zero has no percentage. -/
def pct (s : DrawdownScan) (m : Money) : DrawdownScan :=
  let s := s.lift m
  if s.peak = 0 then s else s.note ((s.peak - m) / s.peak)

end DrawdownScan

namespace Metrics

def maxDrawdown (equity : List Money) : Decimal := (equity.foldl DrawdownScan.money .zero).maxDd

def maxDrawdownPct (equity : List Money) : Decimal := (equity.foldl DrawdownScan.pct .zero).maxDd

/-! ## Returns -/

def returns (equity : List Money) : List Decimal :=
  (equity.zip equity.tail).filterMap fun (prev, curr) =>
    if prev = 0 then none else some ((curr - prev) / prev)

def mean (xs : List Decimal) : Decimal := xs.sum / xs.length

def annualization : Decimal := (Decimal.sqrt? 252).getD 1

/-- Zero where the variance has no root or a root of zero. -/
def ratio (mean var : Decimal) : Decimal :=
  let std := var.sqrt?.getD 0
  if std = 0 then 0 else mean / std * annualization

def sharpeRatio (equity : List Money) : Decimal :=
  let rets := returns equity
  if rets = [] then 0
  else ratio (mean rets) (mean (rets.map fun r => (r - mean rets) * (r - mean rets)))

/-- Gains enter the variance as zero. -/
def sortinoRatio (equity : List Money) : Decimal :=
  let rets := returns equity
  if rets = [] then 0
  else
    let downside := rets.map fun r => if r < 0 then r - 0 else 0
    if downside.length = 0 then 0 else ratio (mean rets) (mean (downside.map fun d => d * d))

def first (equity : List Money) : Money := equity.head?.getD 0
def last (equity : List Money) : Money := equity.getLast?.getD 0

def calmarRatio (equity : List Money) : Decimal :=
  let maxDd := maxDrawdownPct equity
  if maxDd = 0 then 0
  else if equity.length < 2 then 0
  else if first equity = 0 then 0
  else
    let totalRet := (last equity - first equity) / first equity
    if equity.length = 0 then 0 else totalRet * (252 / equity.length) / maxDd

def recoveryFactor (equity : List Money) : Decimal :=
  if equity.length < 2 then 0
  else
    let mdd := maxDrawdown equity
    if mdd = 0 then 0 else (last equity - first equity) / mdd

/-! ## Trades -/

def wins (trades : List Money) : List Money := trades.filter fun p => 0 < p
def losses (trades : List Money) : List Money := trades.filter fun p => p < 0

def grossProfit (trades : List Money) : Decimal := (wins trades).sum
def grossLoss (trades : List Money) : Decimal := ((losses trades).map abs).sum

/-- Without losses it is the profit. -/
def profitFactor (trades : List Money) : Decimal :=
  if grossLoss trades = 0 then
    if grossProfit trades = 0 then 0 else grossProfit trades
  else grossProfit trades / grossLoss trades

def expectancy (trades : List Money) : Decimal :=
  if trades = [] then 0 else trades.sum / trades.length

/-- The number of runs of wins and of other results. -/
def streaks (trades : List Money) : ℕ :=
  (trades.foldl
    (fun (streaks, prev) t =>
      let win := decide (0 < t)
      (if prev = some win then streaks else streaks + 1, some win))
    ((0, none) : ℕ × Option Bool)).1

def zScore (trades : List Money) : Decimal :=
  if trades.length < 10 then 0
  else
    let n : Decimal := trades.length
    let w : Decimal := (wins trades).length
    let p := w / n
    let q := 1 - p
    if p = 0 ∨ q = 0 then 0
    else
      let r : Decimal := streaks trades
      let expected := 2 * w * (n - w) / n + 1
      let varR := 2 * w * (n - w) * (2 * n - 3) / (n * n * (n - 1))
      let stdR := varR.sqrt?.getD 0
      if stdR = 0 then 0 else (r - expected) / stdR

structure TradeStats where
  profitFactor : Decimal
  total : ℕ
  wins : ℕ
  losses : ℕ
  avgWin : Decimal
  avgLoss : Decimal
  largestWin : Decimal
  largestLoss : Decimal
  expectancy : Decimal
  winRate : Decimal
  zScore : Decimal
deriving DecidableEq

/-- Without losses the profit factor is 100. -/
def tradeStats (trades : List Money) : TradeStats :=
  if trades = [] then ⟨0, 0, 0, 0, 0, 0, 0, 0, 0, 0, 0⟩
  else
    let gp := grossProfit trades
    let gl := grossLoss trades
    let nWins := (wins trades).length
    let nLosses := (losses trades).length
    { profitFactor := if gl = 0 then if gp = 0 then 0 else 100 else gp / gl
      total := trades.length
      wins := nWins
      losses := nLosses
      avgWin := if nWins = 0 then 0 else gp / nWins
      avgLoss := if nLosses = 0 then 0 else gl / nLosses
      largestWin := (wins trades).max?.getD 0
      largestLoss := ((losses trades).map abs).max?.getD 0
      expectancy := expectancy trades
      winRate := if trades.length = 0 then 0 else nWins / trades.length
      zScore := zScore trades }

/-! ## Validation -/

def validate (equity : List Money) : Outcome Unit :=
  if equity = [] then raise (.invalidState [.lit "equity curve is empty"])
  else if equity.any fun m => m < 0 then
    raise (.invalidState [.lit "equity curve contains negative values"])
  else .ok ()

end Metrics

structure RiskMetrics where
  sharpe : Decimal
  sortino : Decimal
  calmar : Decimal
  profitFactor : Decimal
  maxDrawdown : Decimal
  maxDrawdownPct : Decimal
  expectancy : Decimal
  winRate : Decimal
  totalTrades : ℕ
  winningTrades : ℕ
  losingTrades : ℕ
  avgWin : Decimal
  avgLoss : Decimal
  largestWin : Decimal
  largestLoss : Decimal
  avgHoldingTimeMinutes : Decimal
  zScore : Decimal
  recoveryFactor : Decimal
deriving DecidableEq

def RiskMetrics.compute (equityCurve tradesPnl : List Money) : RiskMetrics :=
  let stats := Metrics.tradeStats tradesPnl
  { sharpe := Metrics.sharpeRatio equityCurve
    sortino := Metrics.sortinoRatio equityCurve
    calmar := Metrics.calmarRatio equityCurve
    profitFactor := stats.profitFactor
    maxDrawdown := Metrics.maxDrawdown equityCurve
    maxDrawdownPct := Metrics.maxDrawdownPct equityCurve
    expectancy := stats.expectancy
    winRate := stats.winRate
    totalTrades := stats.total
    winningTrades := stats.wins
    losingTrades := stats.losses
    avgWin := stats.avgWin
    avgLoss := stats.avgLoss
    largestWin := stats.largestWin
    largestLoss := stats.largestLoss
    avgHoldingTimeMinutes := 0
    zScore := stats.zScore
    recoveryFactor := Metrics.recoveryFactor equityCurve }

end Propfirm
