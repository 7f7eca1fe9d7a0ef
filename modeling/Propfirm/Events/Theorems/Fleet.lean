import Propfirm.Engine.Theorems.Promotion
import Propfirm.Events.Theorems.Books

/-!
# Many accounts, one store

The events of all accounts go to one store, in the order in which the calls happen to be made. Each account
is replayed from its own.
-/

namespace Propfirm

open Fallible Replay

variable {p : Pipeline} {env : Env} {a b acc : Account} {ev : PipelineEvent} {r : PipelineResult}
  {d : Decision} {t : Timestamp} {actorId : String} {id : AccountId} {tenantId : TenantId}
  {plan : ChallengePlan} {evs : List DomainEvent}

/-! ## What the log keeps -/

/-- The part of an account that every event that writes it is logged with. -/
structure AccountRecord where
  accountType : AccountType
  initialBalance : Money
  startedAt : Option Timestamp
  deadline : Option Timestamp
  totalRealizedPnl : Money
  payoutCount : ℕ
  lastPayoutAt : Option Timestamp
  refundUsed : Bool
deriving DecidableEq

def Account.record (a : Account) : AccountRecord where
  accountType := a.accountType
  initialBalance := a.initialBalance
  startedAt := a.startedAt
  deadline := a.deadline
  totalRealizedPnl := a.totalRealizedPnl
  payoutCount := a.payoutCount
  lastPayoutAt := a.lastPayoutAt
  refundUsed := a.refundUsed

def DomainEventKind.isPosition : DomainEventKind → Bool
  | .positionOpened .. | .positionClosed .. => true
  | _ => false

def DomainEvent.recordAfter (x : AccountRecord) (e : DomainEvent) : AccountRecord :=
  match e.kind with
  | .tradeFilled trade => { x with totalRealizedPnl := x.totalRealizedPnl + trade.netPnl }
  | .planUpgraded _ toPhase => { x with accountType := .ofPhase toPhase }
  | .payoutApproved _ feeRefund =>
      { x with
        payoutCount := x.payoutCount + 1
        lastPayoutAt := some e.occurredAt
        refundUsed := if 0 < feeRefund then true else x.refundUsed }
  | _ => x

/-- Events that take one record to another, without a start and without a position. -/
structure Logs (evs : List DomainEvent) (x y : AccountRecord) : Prop where
  record_eq : evs.foldl DomainEvent.recordAfter x = y
  plain : ∀ e ∈ evs, e.kind.isStart = false ∧ e.kind.isPosition = false

theorem Logs.append {xs ys : List DomainEvent} {x y z : AccountRecord} (h : Logs xs x y) (h' : Logs ys y z) :
    Logs (xs ++ ys) x z where
  record_eq := by rw [List.foldl_append, h.record_eq, h'.record_eq]
  plain := List.forall_mem_append.mpr ⟨h.plain, h'.plain⟩

theorem Logs.nil {x : AccountRecord} : Logs [] x x := ⟨rfl, fun _ h => by cases h⟩

theorem Logs.of_eq {x y : AccountRecord} (h : x = y) : Logs [] x y := h ▸ .nil

theorem Logs.cons {e : DomainEvent} {x y : AccountRecord} (h : Logs evs (e.recordAfter x) y)
    (hstart : e.kind.isStart = false) (hposition : e.kind.isPosition = false) : Logs (e :: evs) x y :=
  ⟨h.record_eq, List.forall_mem_cons.mpr ⟨⟨hstart, hposition⟩, h.plain⟩⟩

/-! ## What a call logs -/

theorem route_logs (h : route env a ev = .ok (b, evs)) : Logs evs a.record b.record := by
  rw [eq_of_outsideDays (route_outsideDays h) Account.record fun _ => rfl]
  rcases route_events h with ⟨-, rfl⟩ | ⟨ts, rfl⟩
  · exact .nil
  · exact .cons .nil rfl rfl

theorem Effect.logs (h : Effect env a ev b evs) (hev : ev.isStart = false) :
    Logs evs a.record b.record := by
  cases h with
  | accountStarted h => cases hev
  | orderSubmitted | endOfDay | onDemand => exact .nil
  | tradeFilled hnet =>
      rw [eq_of_outsideDays markActiveTradingDay_outsideDays Account.record fun _ => rfl]
      refine .cons (.of_eq ?_) rfl rfl
      simp [Account.record, Account.applyRealizedPnl, DomainEvent.recordAfter, hnet]
  | tick | tickEstimated | emergencyStop => exact .cons .nil rfl rfl
  | dayRollover h =>
      rw [eq_of_outsideDays (rolloverDay_outsideDays h) Account.record fun _ => rfl]
      exact .cons .nil rfl rfl
  | overrideBreach h =>
      obtain ⟨-, rfl⟩ := Account.clearBreach_eq h
      exact .cons (.cons .nil rfl rfl) rfl rfl
  | payoutRequest hq h =>
      obtain ⟨-, rfl⟩ := Account.markPayoutPending_ok h
      refine .cons ?_ rfl rfl
      split
      · exact .cons .nil rfl rfl
      · exact .nil
  | payoutApprove hq h =>
      obtain ⟨-, rfl⟩ := recordPayout_eq h
      refine .cons (.of_eq ?_) rfl rfl
      simp only [Account.record, DomainEvent.recordAfter, AccountRecord.mk.injEq, true_and]
      split <;> simp_all

theorem applyPromotion_logs (h : applyPromotion a t = .ok (b, evs)) : Logs evs a.record b.record := by
  rcases applyPromotion_ok h with ⟨-, rfl, rfl⟩ | ⟨-, -, rfl, rfl⟩
  · exact .nil
  · exact .cons (.cons .nil rfl rfl) rfl rfl

theorem applyTargetHit_logs : Logs (applyTargetHit a d t).2 a.record (applyTargetHit a d t).1.record := by
  rw [applyTargetHit_reading Account.record fun _ _ _ _ => rfl]
  unfold applyTargetHit
  split
  · exact .cons .nil rfl rfl
  · exact .nil

theorem applyTermination_logs :
    Logs (applyTermination a d t actorId).2 a.record (applyTermination a d t actorId).1.record := by
  unfold applyTermination
  cases d.accountStatusTarget with
  | none => exact .nil
  | some target =>
      refine .cons ?_ rfl rfl
      dsimp only
      split
      · exact .cons .nil rfl rfl
      · exact .nil

theorem decisionEvents_logs {x : AccountRecord} : Logs (decisionEvents id d t) x x := by
  unfold decisionEvents
  split
  · exact .cons .nil rfl rfl
  · exact .nil

theorem violations_logs {x : AccountRecord} (vs : List Violation) :
    Logs (vs.map fun v => ⟨id, .ruleViolated v, t⟩) x x := by
  induction vs with
  | nil => exact .nil
  | cons v vs ih => exact .cons ih rfl rfl

namespace Passage

theorem decisionLog_logs (s : Passage p env a ev r) :
    Logs s.decisionLog s.applied.account.record r.account.record := by
  have hfilled : s.filled.record = s.applied.account.record := by
    rw [Evaluated.filled]
    cases s.applied.tradeFill <;> rfl
  have hterminated : (applyTermination s.promoted (s.decision p) env.contextNow ev.actorId).1.record =
      r.account.record := by
    rw [s.account_eq]
    cases ev <;> rfl
  have hmarked := applyTargetHit_logs (a := s.filled) (d := s.decision p) (t := env.contextNow)
  rw [hfilled] at hmarked
  have htermination : Logs (applyTermination s.promoted (s.decision p) env.contextNow ev.actorId).2
      s.promoted.record r.account.record := by
    rw [← hterminated]
    exact applyTermination_logs
  exact (((hmarked.append (applyPromotion_logs s.promotion_eq)).append htermination).append
    decisionEvents_logs).append (violations_logs _)

theorem events_logs (s : Passage p env a ev r) (hev : ev.isStart = false) :
    Logs r.events a.record r.account.record := by
  obtain ⟨trades, heffect⟩ := applyEvent_effect s.apply_eq
  have happlied : Logs s.applied.events s.routed.record s.applied.account.record := heffect.logs hev
  rw [s.events_split]
  exact ((route_logs s.route_eq).append happlied).append s.decisionLog_logs

end Passage

/-! ## Replay -/

/-- The replayed account has the record of the account, and no position. -/
structure Recovers (a acc : Account) : Prop where
  record_eq : acc.record = a.record
  positions_eq : acc.openPositions = []

theorem replayEvent_recovers {e : DomainEvent} (hstart : e.kind.isStart = false)
    (hposition : e.kind.isPosition = false) (hacc : acc.openPositions = []) :
    ∃ acc', replayEvent id acc e = .ok acc' ∧ acc'.openPositions = [] ∧
      acc'.record = e.recordAfter acc.record := by
  unfold replayEvent DomainEvent.recordAfter
  cases hkind : e.kind with
  | accountStarted plan => rw [hkind] at hstart; cases hstart
  | positionOpened positionId symbol side qty => rw [hkind] at hposition; cases hposition
  | positionClosed positionId realizedPnl => rw [hkind] at hposition; cases hposition
  | _ => exact ⟨_, rfl, hacc, rfl⟩

theorem Logs.reproduces (h : Logs evs a.record b.record) (hacc : Recovers a acc) :
    Reproduces (replayEvent id) Recovers acc b evs := by
  obtain ⟨acc', hacc', hpositions, hrecord⟩ :=
    replay_reading (fun x => x.openPositions = []) Account.record DomainEvent.recordAfter
      (fun e he x hx => replayEvent_recovers (h.plain e he).1 (h.plain e he).2 hx)
      hacc.positions_eq
  exact ⟨acc', hacc', by rw [hrecord, hacc.record_eq, h.record_eq], hpositions⟩

theorem Passage.reproduces_first_record {tenantId' : TenantId}
    (s : Passage p env (.new id tenantId plan) (.accountStarted t) r)
    (hacc : (Account.new id tenantId' plan).start t = .ok acc) :
    Reproduces (replayEvent id) Recovers acc r.account s.decisionLog := by
  obtain ⟨-, _, -, rfl⟩ := Account.start_eq hacc
  obtain ⟨⟨trades, hstart⟩, -⟩ := s.first
  obtain ⟨-, _, -, happlied⟩ := Account.start_eq hstart
  exact s.decisionLog_logs.reproduces ⟨by rw [happlied]; rfl, rfl⟩

theorem InMemoryEventStore.replay_all {s : InMemoryEventStore}
    (hhead : (s.all id).head?.map DomainEvent.kind = some (.accountStarted plan)) :
    s.replay id tenantId = Replay.replay (replayEvent id) (.new id tenantId plan) (s.all id) := by
  simp only [replay, hhead]

/-! ## Fleets -/

/-- The accounts that were started, and the store that all of them share. -/
structure Fleet where
  accounts : AccountId → Option Account
  store : InMemoryEventStore

def Fleet.empty : Fleet := ⟨fun _ => none, .empty⟩

def Fleet.commit (f : Fleet) (id : AccountId) (r : PipelineResult) : Fleet where
  accounts := Function.update f.accounts id (some r.account)
  store := f.store.appendAll r.events

/-- One call: the start of a new account, or any event on one that was started. -/
inductive FleetStep : Fleet → Fleet → Prop
  | start {f p env id tenantId plan t r} :
      f.accounts id = none → Pipeline.process p env (.new id tenantId plan) (.accountStarted t) = .ok r →
        FleetStep f (f.commit id r)
  | call {f p env id a ev r} :
      f.accounts id = some a → Pipeline.process p env a ev = .ok r → FleetStep f (f.commit id r)

structure Fleet.Sound (f : Fleet) (tenantId : TenantId) : Prop where
  fresh : ∀ id, f.accounts id = none → f.store.all id = []
  recorded : ∀ id a, f.accounts id = some a → ∃ plan, Recorded Recovers id tenantId plan a (f.store.all id)

theorem Fleet.commit_sound {f : Fleet} (h : f.Sound tenantId) (hid : ∀ e ∈ r.events, e.accountId = id)
    (hrecorded : ∃ plan, Recorded Recovers id tenantId plan r.account (f.store.all id ++ r.events)) :
    (f.commit id r).Sound tenantId := by
  have hown : (f.commit id r).store.all id = f.store.all id ++ r.events := by
    rw [commit, InMemoryEventStore.all_appendAll, List.filter_eq_self.mpr (by simpa using hid)]
  have hother : ∀ id', id' ≠ id → (f.commit id r).store.all id' = f.store.all id' := by
    intro id' hne
    rw [commit, InMemoryEventStore.all_appendAll, List.filter_eq_nil_iff.mpr, List.append_nil]
    intro e he
    simpa [hid e he] using hne.symm
  constructor
  · intro id' hnone
    by_cases hne : id' = id
    · subst hne
      simp [commit] at hnone
    · rw [hother id' hne]
      exact h.fresh id' (by simpa [commit, hne] using hnone)
  · intro id' a hsome
    by_cases hne : id' = id
    · subst hne
      obtain rfl : r.account = a := by simpa [commit] using hsome
      rwa [hown]
    · rw [hother id' hne]
      exact h.recorded id' a (by simpa [commit, hne] using hsome)

theorem FleetStep.sound {f g : Fleet} (h : f.Sound tenantId) (hstep : FleetStep f g) :
    g.Sound tenantId := by
  cases hstep with
  | start hnone hp =>
      obtain ⟨s⟩ := Pipeline.process_passage hp
      refine Fleet.commit_sound h s.events_accountId ?_
      rw [h.fresh _ hnone]
      exact ⟨_, .first s fun acc hacc => s.reproduces_first_record hacc⟩
  | call hsome hp =>
      obtain ⟨s⟩ := Pipeline.process_passage hp
      obtain ⟨plan, hrecorded⟩ := h.recorded _ _ hsome
      have hid := hrecorded.id_eq
      refine Fleet.commit_sound h (fun e he => (s.events_accountId e he).trans hid) ⟨plan, ?_⟩
      have hlogs := s.events_logs (s.not_start hrecorded.started)
      exact hrecorded.extend s fun acc hacc => hlogs.reproduces hacc

/-- However the calls on the accounts of a fleet are interleaved, each account that was started is replayed to
its record, without its positions, and one that was not is refused. -/
theorem fleet_replayed {f : Fleet} (h : Relation.ReflTransGen FleetStep .empty f) (id : AccountId)
    (replayTenant : TenantId) :
    (∀ a, f.accounts id = some a →
      ∃ acc, f.store.replay id replayTenant = .ok acc ∧ acc.record = a.record ∧ acc.openPositions = []) ∧
      (f.accounts id = none → f.store.replay id replayTenant =
        raise (.notFound [.lit "no AccountStarted event for account ", .accountId id])) := by
  have hempty : Fleet.empty.Sound replayTenant := ⟨fun _ _ => rfl, fun _ _ h => by cases h⟩
  have hsound : f.Sound replayTenant :=
    invariant_of_run (fun g => g.Sound replayTenant) (fun _ _ hg hstep => hstep.sound hg) h hempty
  constructor
  · intro a ha
    obtain ⟨plan, hrecorded⟩ := hsound.recorded id a ha
    obtain ⟨acc, hacc, hrecovers⟩ := hrecorded.reproduces
    exact ⟨acc, (InMemoryEventStore.replay_all hrecorded.head_eq).trans hacc, hrecovers.record_eq,
      hrecovers.positions_eq⟩
  · intro hnone
    simp [InMemoryEventStore.replay, hsound.fresh id hnone]

/-- A fill of the first account between the start of the second one and a tick of it. -/
theorem fleet_replayed_interleaved :
    ∃ (f : Fleet) (a : Account) (acc : Account), Relation.ReflTransGen FleetStep .empty f ∧
      f.accounts ⟨1⟩ = some a ∧ (f.accounts ⟨2⟩).isSome ∧ a.totalRealizedPnl = 100 ∧
        f.store.replay ⟨1⟩ ⟨7⟩ = .ok acc ∧ acc.record = a.record := by
  have hrun :
      (do
        let r₁ ← (Pipeline.ofPlan calmPlan).process (.at 0) (.new ⟨1⟩ ⟨1⟩ calmPlan) (.accountStarted 0)
        let r₂ ← (Pipeline.ofPlan calmPlan).process (.at 0) (.new ⟨2⟩ ⟨1⟩ calmPlan) (.accountStarted 0)
        let r₃ ← (Pipeline.ofPlan calmPlan).process (.at 1) r₁.account (.tradeFilled (closingFill 100 1))
        let _ ← (Pipeline.ofPlan calmPlan).process (.at (Duration.seconds 1)) r₂.account
          (.tick (tickAt 1) 10000 10000)
        pure r₃.account.totalRealizedPnl) = .ok 100 := by
    decide +kernel
  obtain ⟨r₁, h₁, hrun⟩ := bind_eq_ok.mp hrun
  obtain ⟨r₂, h₂, hrun⟩ := bind_eq_ok.mp hrun
  obtain ⟨r₃, h₃, hrun⟩ := bind_eq_ok.mp hrun
  obtain ⟨r₄, h₄, hrun⟩ := bind_eq_ok.mp hrun
  have hpnl := pure_eq_ok.mp hrun
  have hsteps : Relation.ReflTransGen FleetStep .empty
      ((((Fleet.empty.commit ⟨1⟩ r₁).commit ⟨2⟩ r₂).commit ⟨1⟩ r₃).commit ⟨2⟩ r₄) :=
    .tail (.tail (.tail (.single (.start rfl h₁)) (.start (by simp [Fleet.commit, Fleet.empty]) h₂))
      (.call (by simp [Fleet.commit]) h₃)) (.call (by simp [Fleet.commit]) h₄)
  obtain ⟨hreplay, -⟩ := fleet_replayed hsteps ⟨1⟩ ⟨7⟩
  obtain ⟨acc, hacc, hrecord, -⟩ := hreplay r₃.account (by simp [Fleet.commit])
  exact ⟨_, r₃.account, acc, hsteps, by simp [Fleet.commit], by simp [Fleet.commit], hpnl, hacc, hrecord⟩

end Propfirm
