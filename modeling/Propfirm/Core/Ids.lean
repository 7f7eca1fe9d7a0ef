import Mathlib.Data.Set.Function
import Propfirm.Core.Violation

/-!
# Identifiers from names

A rule and a tenant may be known by a name. The identifier is made of the 64-bit hash of the name, which is a
parameter here: twice its bytes, with the version and the variant of a UUID written over.
-/

namespace Propfirm

/-! ## Bytes -/

def toBeBytes (bits : UInt64) : List UInt8 :=
  [(bits >>> 56).toUInt8, (bits >>> 48).toUInt8, (bits >>> 40).toUInt8, (bits >>> 32).toUInt8,
    (bits >>> 24).toUInt8, (bits >>> 16).toUInt8, (bits >>> 8).toUInt8, bits.toUInt8]

def namedBytes (bits : UInt64) : List UInt8 :=
  ((toBeBytes bits ++ toBeBytes bits).modify 6 fun b => (b &&& 0x0F) ||| 0x50).modify 8
    fun b => (b &&& 0x3F) ||| 0x80

def uuidFromBytes (bytes : List UInt8) : ℕ := bytes.foldl (fun n b => 256 * n + b.toNat) 0

def namedUuid (bits : UInt64) : ℕ := uuidFromBytes (namedBytes bits)

/-- The upper half of the seventh byte; that of a random identifier is 4. -/
def uuidVersion (raw : ℕ) : ℕ := raw / 2 ^ 76 % 16

theorem toBeBytes_injective : Function.Injective toBeBytes := by
  intro x y h
  simp only [toBeBytes, List.cons.injEq, ← UInt8.toNat_inj, UInt64.toNat_toUInt8, UInt64.toNat_shiftRight,
    Nat.shiftRight_eq_div_pow, and_true] at h
  have hx := x.toNat_lt
  have hy := y.toNat_lt
  apply UInt64.toNat_inj.mp
  simp at h
  omega

theorem foldl_bytes_injective {xs ys : List UInt8} {m n : ℕ} (hlength : xs.length = ys.length)
    (h : xs.foldl (fun n b => 256 * n + b.toNat) m = ys.foldl (fun n b => 256 * n + b.toNat) n) :
    m = n ∧ xs = ys := by
  induction xs generalizing ys m n with
  | nil =>
      cases ys with
      | nil => exact ⟨h, rfl⟩
      | cons y ys => cases hlength
  | cons x xs ih =>
      cases ys with
      | nil => cases hlength
      | cons y ys =>
          obtain ⟨hnumber, rfl⟩ := ih (Nat.succ.inj hlength) h
          change 256 * m + x.toNat = 256 * n + y.toNat at hnumber
          have hx := x.toNat_lt
          have hy := y.toNat_lt
          have hbyte : x = y := UInt8.toNat_inj.mp (by omega)
          exact ⟨by omega, by rw [hbyte]⟩

/-- What is written over in one copy of the hash is still in the other. -/
theorem namedBytes_injective : Function.Injective namedBytes := by
  intro x y h
  apply toBeBytes_injective
  simp only [namedBytes, toBeBytes, List.cons_append, List.nil_append, List.modify_succ_cons,
    List.modify_zero_cons, List.cons.injEq, and_true] at h ⊢
  tauto

theorem namedBytes_length (bits : UInt64) : (namedBytes bits).length = 16 := by
  simp [namedBytes, toBeBytes]

theorem namedUuid_injective : Function.Injective namedUuid := by
  intro x y h
  unfold namedUuid uuidFromBytes at h
  have hlength : (namedBytes x).length = (namedBytes y).length := by rw [namedBytes_length, namedBytes_length]
  exact namedBytes_injective (foldl_bytes_injective hlength h).2

theorem foldl_bytes_div (bytes : List UInt8) (m : ℕ) :
    bytes.foldl (fun n b => 256 * n + b.toNat) m / 256 ^ bytes.length = m := by
  induction bytes generalizing m with
  | nil => simp
  | cons b bytes ih =>
      have hb := b.toNat_lt
      rw [List.foldl_cons, List.length_cons, pow_succ, ← Nat.div_div_eq_div_mul, ih]
      omega

theorem version_byte (b : UInt8) : ((b &&& 0x0F) ||| 0x50).toNat / 16 = 5 := by
  have hall : ∀ n < 256, ((UInt8.ofNat n &&& 0x0F) ||| 0x50).toNat / 16 = 5 := by decide +kernel
  have hb := hall b.toNat b.toNat_lt
  rwa [UInt8.ofNat_toNat] at hb

theorem uuidVersion_namedUuid (bits : UInt64) : uuidVersion (namedUuid bits) = 5 := by
  -- the seventh byte is the last of those that a shift by nine bytes leaves
  have hsplit : namedBytes bits =
      ((toBeBytes bits).take 6 ++ [((bits >>> 8).toUInt8 &&& 0x0F) ||| 0x50]) ++ (namedBytes bits).drop 7 := by
    simp [namedBytes, toBeBytes]
  have hlength : ((namedBytes bits).drop 7).length = 9 := by rw [List.length_drop, namedBytes_length]
  have hshift : namedUuid bits / 256 ^ 9 =
      256 * uuidFromBytes ((toBeBytes bits).take 6) + (((bits >>> 8).toUInt8 &&& 0x0F) ||| 0x50).toNat := by
    have hdiv := foldl_bytes_div ((namedBytes bits).drop 7)
      (uuidFromBytes ((toBeBytes bits).take 6 ++ [((bits >>> 8).toUInt8 &&& 0x0F) ||| 0x50]))
    rw [hlength, uuidFromBytes, ← List.foldl_append, ← hsplit, List.foldl_append] at hdiv
    exact hdiv
  have hversion := version_byte (bits >>> 8).toUInt8
  unfold uuidVersion
  omega

/-! ## Rules and tenants -/

section Named

variable (hash : String → UInt64)

def TenantId.named (name : String) : TenantId := ⟨namedUuid (hash name)⟩

def RuleName.text : RuleName → String
  | .dailyDrawdown => "daily_drawdown"
  | .maxDrawdown => "max_drawdown"
  | .trailingDrawdown => "trailing_drawdown"
  | .profitTarget => "profit_target"
  | .minTradingDays => "min_trading_days"
  | .minProfitableDays => "min_profitable_days"
  | .consistency => "consistency"
  | .newsTrading => "news_trading"
  | .overnightHolding => "overnight_holding"
  | .weekendHolding => "weekend_holding"
  | .maxPositionSize => "max_position_size"
  | .maxOpenPositions => "max_open_positions"
  | .maxDailyTrades => "max_daily_trades"
  | .timeLimit => "time_limit"
  | .cooldown => "cooldown"
  | .hedging => "hedging"
  | .gridTrading => "grid_trading"
  | .copyTrading => "copy_trading"
  | .slRequired => "sl_required"
  | .tpRequired => "tp_required"
  | .hftScalping => "hft_scalping"
  | .perTradeMaxLoss => "per_trade_max_loss"
  | .inactivity => "inactivity"
  | .maxTotalLots => "max_total_lots"
  | .tradingHours => "trading_hours"
  | .margin => "margin"
  | .crossAccountHedging => "cross_account_hedging"
  | .lowcapExposure => "lowcap_exposure"

/-- The identifier that the code computes for a rule. -/
def RuleId.toUuid : RuleId → ℕ
  | .named name => namedUuid (hash name.text)
  | .uuid raw => raw

end Named

/-- The identifier of a custom rule is not made from a name. -/
def RuleId.Drawn (id : RuleId) : Prop := ∀ raw, id = .uuid raw → uuidVersion raw ≠ 5

/-- Rules are told apart by their identifiers as they are by their names: where the hash tells the standard
names apart, no two of them get one identifier, and none gets one that was drawn for a custom rule. -/
theorem rule_ids_represented {hash : String → UInt64}
    (hhash : ∀ m n : RuleName, hash m.text = hash n.text → m = n) :
    Set.InjOn (RuleId.toUuid hash) {id | id.Drawn} := by
  intro id hid id' hid' h
  cases id with
  | named name =>
      cases id' with
      | named name' => rw [hhash name name' (namedUuid_injective h)]
      | uuid raw =>
          obtain rfl : namedUuid (hash name.text) = raw := h
          exact absurd (uuidVersion_namedUuid _) (hid' _ rfl)
  | uuid raw =>
      cases id' with
      | named name =>
          obtain rfl : raw = namedUuid (hash name.text) := h
          exact absurd (uuidVersion_namedUuid _) (hid _ rfl)
      | uuid raw' => exact congrArg RuleId.uuid h

def ruleTexts : List String := (List.range 28).map fun i => (RuleName.ofNat i).text

/-- A hash by the place in the list of names. -/
theorem rule_ids_represented_by_place :
    Set.InjOn (RuleId.toUuid fun s => UInt64.ofNat (ruleTexts.idxOf s)) {id | id.Drawn} := by
  have hplace : ∀ name : RuleName, RuleName.ofNat (UInt64.ofNat (ruleTexts.idxOf name.text)).toNat = name := by
    intro name
    cases name <;> decide +kernel
  refine rule_ids_represented fun m n h => ?_
  rw [← hplace m, ← hplace n, h]

end Propfirm
