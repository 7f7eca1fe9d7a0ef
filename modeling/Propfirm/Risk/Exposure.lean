import Propfirm.Core.Market
import Propfirm.Lib.Amounts
import Propfirm.Lib.Select

/-!
# Exposure of a book of positions

The positions that are open and have a quote, at the middle of it.
-/

namespace Propfirm

open Amounts

structure Exposure where
  gross : Money
  net : Money
  longCount : ℕ
  shortCount : ℕ
  longVolume : Decimal
  shortVolume : Decimal
  netVolume : Decimal
  symbolConcentration : Sheet String Decimal

namespace Exposure

def empty : Exposure := ⟨0, 0, 0, 0, 0, 0, 0, ∅⟩

def add (e : Exposure) (p : Position) (quote : Quote) : Exposure :=
  let notional := quote.mid * p.openQuantity
  match p.side with
  | .long =>
      { e with
        gross := e.gross + notional
        net := e.net + notional
        longCount := e.longCount + 1
        longVolume := e.longVolume + p.openQuantity
        netVolume := e.netVolume + p.openQuantity
        symbolConcentration := e.symbolConcentration.add p.symbol.text notional }
  | .short =>
      { e with
        gross := e.gross + notional
        net := e.net - notional
        shortCount := e.shortCount + 1
        shortVolume := e.shortVolume + p.openQuantity
        netVolume := e.netVolume - p.openQuantity
        symbolConcentration := e.symbolConcentration.add p.symbol.text notional }

def visit (quotes : String → Option Quote) (e : Exposure) (p : Position) : Exposure :=
  match quotes p.symbol.text with
  | some quote => e.add p quote
  | none => e

def compute (positions : List Position) (quotes : String → Option Quote) : Exposure :=
  (positions.filter Position.isOpen).foldl (visit quotes) empty

/-- The shares of the symbols, in the order in which the map is iterated. -/
def shares (e : Exposure) (iter : List (String × Decimal)) : List (String × Decimal) :=
  iter.map fun (k, v) => (k, v / e.gross)

/-- The last symbol of the largest share. -/
def topSymbol (e : Exposure) (iter : List (String × Decimal)) : Option (String × Decimal) :=
  if e.gross = 0 then none
  else
    match (e.shares iter).map Prod.swap with
    | [] => none
    | x :: xs => some (xs.foldl Select.later x).swap

end Exposure

end Propfirm
