import Mathlib.Algebra.Order.Ring.Rat
import Mathlib.Data.Nat.Sqrt

/-!
# Numbers, identifiers, times and failures

Decimals are rationals, and the rules compute with them exactly unless an arithmetic is given.
Timestamps and durations are nanoseconds since the Unix epoch. Identifiers are opaque numbers.
-/

namespace Propfirm

/-! ## Decimals -/

abbrev Decimal := ℚ
abbrev Money := Decimal
abbrev Price := Decimal
abbrev Quantity := Decimal
abbrev Lots := Decimal
abbrev Pct := Decimal

/-- Conversion to an unsigned integer: truncation, undefined below zero and from `bound` on. -/
def Decimal.toUnsigned? (bound : ℕ) (d : Decimal) : Option ℕ :=
  if d < 0 then none
  else
    let n := (d.num / d.den).toNat
    if n < bound then some n else none

def Decimal.toU32? (d : Decimal) : Option ℕ := d.toUnsigned? (2 ^ 32)
def Decimal.toU64? (d : Decimal) : Option ℕ := d.toUnsigned? (2 ^ 64)

/-- Conversion to a signed 64-bit integer, truncating towards zero. -/
def Decimal.toI64? (d : Decimal) : Option ℤ :=
  let n := d.num.tdiv d.den
  if -2 ^ 63 ≤ n ∧ n < 2 ^ 63 then some n else none

/-- An unsigned 64-bit number reread as a signed one. -/
def asI64 (n : ℕ) : ℤ := if n < 2 ^ 63 then n else n - 2 ^ 64

def asUsize (n : ℤ) : ℕ := (if 0 ≤ n then n else n + 2 ^ 64).toNat

/-- The square root, to 28 decimal places. -/
def Decimal.sqrt? (d : Decimal) : Option Decimal :=
  if d < 0 then none
  else some (Nat.sqrt (d.num.toNat * d.den * 10 ^ 56) / (d.den * 10 ^ 28))

/-- The operations of a decimal type, which may round their results. -/
structure Arithmetic where
  add : Decimal → Decimal → Decimal
  sub : Decimal → Decimal → Decimal
  mul : Decimal → Decimal → Decimal
  div : Decimal → Decimal → Decimal

def Arithmetic.exact : Arithmetic where
  add := (· + ·)
  sub := (· - ·)
  mul := (· * ·)
  div := (· / ·)

/-- The number at a scale, rounded half to even. -/
def Decimal.mantissa (d : Decimal) (scale : ℕ) : ℤ :=
  let n := (d * 10 ^ scale).floor
  let rest := d * 10 ^ scale - n
  if rest < 1 / 2 ∨ rest = 1 / 2 ∧ n % 2 = 0 then n else n + 1

/-- The nearest number of 96 bits with at most 28 decimal places. -/
def Decimal.rounded (d : Decimal) : Decimal :=
  match (List.range 29).reverse.find? fun scale => decide (|d.mantissa scale| < 2 ^ 96) with
  | some scale => d.mantissa scale / 10 ^ scale
  | none => d

/-- Every result is rounded to 96 bits and 28 places. -/
def Arithmetic.rounded : Arithmetic where
  add a b := (a + b).rounded
  sub a b := (a - b).rounded
  mul a b := (a * b).rounded
  div a b := (a / b).rounded

/-! ## Times -/

abbrev Timestamp := ℤ
abbrev Duration := ℤ

namespace Duration

def seconds (n : ℤ) : Duration := n * 1000000000
def minutes (n : ℤ) : Duration := n * 60000000000
def hours (n : ℤ) : Duration := n * 3600000000000
def days (n : ℤ) : Duration := n * 86400000000000

/-- Whole seconds, minutes and days of a duration, rounded towards zero. -/
def numSeconds (d : Duration) : ℤ := d.tdiv 1000000000
def numMinutes (d : Duration) : ℤ := d.tdiv 60000000000
def numDays (d : Duration) : ℤ := d.tdiv 86400000000000

end Duration

namespace Timestamp

def date (t : Timestamp) : ℤ := t / Duration.days 1

def timeOfDay (t : Timestamp) : ℤ := t % Duration.days 1

def hour (t : Timestamp) : ℕ := (t.timeOfDay / Duration.hours 1).toNat

/-- Days from Monday; the epoch is a Thursday. -/
def weekday (t : Timestamp) : ℕ := ((t.date + 3) % 7).toNat

end Timestamp

/-! ## Identifiers -/

structure AccountId where
  raw : ℕ
deriving DecidableEq

structure TenantId where
  raw : ℕ
deriving DecidableEq

structure OrderId where
  raw : ℕ
deriving DecidableEq

structure TradeId where
  raw : ℕ
deriving DecidableEq

structure PositionId where
  raw : ℕ
deriving DecidableEq

structure ChallengeId where
  raw : ℕ
deriving DecidableEq

structure ViolationId where
  raw : ℕ
deriving DecidableEq

structure Symbol where
  text : String
deriving DecidableEq

/-! ## Texts -/

/-- One piece of a formatted text. Numbers and times stay values: their rendering is left open. -/
inductive Fragment where
  | lit (s : String)
  | dec (d : Decimal)
  | rounded (places : ℕ) (d : Decimal)
  | int (i : ℤ)
  | time (t : Timestamp)
  | accountId (a : AccountId)
deriving DecidableEq

abbrev Text := List Fragment

/-- The white space of Unicode. -/
def isWhiteSpace (c : Char) : Bool :=
  (9 ≤ c.toNat && c.toNat ≤ 13) || (0x2000 ≤ c.toNat && c.toNat ≤ 0x200a) ||
    [0x20, 0x85, 0xa0, 0x1680, 0x2028, 0x2029, 0x202f, 0x205f, 0x3000].contains c.toNat

/-- Whether only white space is left of a string (`trim().is_empty()`). -/
def isBlank (s : String) : Bool := s.toList.all isWhiteSpace

/-! ## Failures -/

inductive Error where
  | invalidConfig (msg : Text)
  | numericConversion (msg : Text)
  | notFound (msg : Text)
  | persistence (msg : Text)
  | serialization (msg : Text)
  | invalidState (msg : Text)
  | ruleEval (msg : Text)
  | tickRejected (msg : Text)
  | missingMetric (msg : Text)
deriving DecidableEq

def Error.display : Error → Text
  | .invalidConfig msg => .lit "invalid configuration: " :: msg
  | .numericConversion msg => .lit "numeric conversion error: " :: msg
  | .notFound msg => .lit "entity not found: " :: msg
  | .persistence msg => .lit "persistence error: " :: msg
  | .serialization msg => .lit "serialization error: " :: msg
  | .invalidState msg => .lit "invalid state: " :: msg
  | .ruleEval msg => .lit "rule evaluation error: " :: msg
  | .tickRejected msg => .lit "tick rejected: " :: msg
  | .missingMetric msg => .lit "missing metric: " :: msg

/-- How a computation can end without a value: an error it returns, or a panic. The panic of a time
that is out of range is kept apart. -/
inductive Fault where
  | error (e : Error)
  | panic (msg : String)
  | overflow (msg : String)
deriving DecidableEq

abbrev Outcome (α : Type) := Except Fault α

def raise {α : Type} (e : Error) : Outcome α := .error (.error e)
def panicWith {α : Type} (msg : String) : Outcome α := .error (.panic msg)

def expect {α : Type} (msg : String) : Option α → Outcome α
  | some a => .ok a
  | none => panicWith msg

def Decimal.div (a b : Decimal) : Outcome Decimal :=
  if b = 0 then panicWith "Division by zero" else .ok (a / b)

/-! ## Ranges of times -/

namespace Duration

/-- The whole seconds of the longest duration, whose milliseconds are a signed 64-bit number. -/
def maxSeconds : ℤ := 9223372036854775

def bounded (unit : String) (secs : ℤ) : Outcome Duration :=
  if |secs| ≤ maxSeconds then .ok (seconds secs)
  else .error (.overflow ("TimeDelta::" ++ unit ++ " out of bounds"))

def trySeconds (n : ℤ) : Outcome Duration := bounded "seconds" n
def tryMinutes (n : ℤ) : Outcome Duration := bounded "minutes" (n * 60)
def tryDays (n : ℤ) : Outcome Duration := bounded "days" (n * 86400)

end Duration

namespace Timestamp

/-- The first and the last instant of the years -262143 to 262142. -/
def first : Timestamp := Duration.seconds (-8334601228800)
def last : Timestamp := Duration.seconds 8210266876800 - 1

def Representable (t : Timestamp) : Prop := first ≤ t ∧ t ≤ last

instance decidableRepresentable (t : Timestamp) : Decidable t.Representable :=
  inferInstanceAs (Decidable (_ ∧ _))

/-- The instants of the code are representable, and a step out of the range panics. -/
def moved (msg : String) (t t' : Timestamp) : Outcome Timestamp :=
  if t.Representable ∧ ¬t'.Representable then .error (.overflow msg) else .ok t'

def plus (t : Timestamp) (d : Duration) : Outcome Timestamp :=
  t.moved "`DateTime + TimeDelta` overflowed" (t + d)

def minus (t : Timestamp) (d : Duration) : Outcome Timestamp :=
  t.moved "`DateTime - TimeDelta` overflowed" (t - d)

end Timestamp

end Propfirm
