import Propfirm.Engine.Lemmas.Status
import Propfirm.Events.Store

/-!
# The log of a run and its replay
-/

namespace Propfirm

open Fallible Replay

variable {p : Pipeline} {env : Env} {a b acc : Account} {ev : PipelineEvent} {r : PipelineResult}
  {d : Decision} {t : Timestamp} {actorId : String} {id : AccountId} {tenantId : TenantId}
  {plan : ChallengePlan} {log evs : List DomainEvent}

/-! ## The store -/

def InMemoryEventStore.appendAll (s : InMemoryEventStore) (evs : List DomainEvent) :
    InMemoryEventStore :=
  evs.foldl append s

theorem InMemoryEventStore.all_append (s : InMemoryEventStore) (e : DomainEvent) :
    (s.append e).all id = s.all id ++ if e.accountId = id then [e] else [] := by
  by_cases h : e.accountId = id
  · subst h
    simp [append, all]
  · rw [if_neg h, List.append_nil]
    exact Function.update_of_ne (Ne.symm h) _ _

/-- The store keeps the events of each account in the order of their arrival. -/
theorem InMemoryEventStore.all_appendAll (s : InMemoryEventStore) (evs : List DomainEvent) :
    (s.appendAll evs).all id = s.all id ++ evs.filter fun e => decide (e.accountId = id) := by
  induction evs generalizing s with
  | nil => simp [appendAll]
  | cons e evs ih =>
      refine (ih (s.append e)).trans ?_
      rw [all_append, List.append_assoc, List.filter_cons]
      by_cases h : e.accountId = id <;> simp [h]

/-- A log of one account that begins with its start is replayed from a new account. -/
theorem InMemoryEventStore.replay_appendAll (hid : ∀ e ∈ log, e.accountId = id)
    (hhead : log.head?.map DomainEvent.kind = some (.accountStarted plan)) :
    (empty.appendAll log).replay id tenantId =
      Replay.replay (replayEvent id) (.new id tenantId plan) log := by
  have hall : (empty.appendAll log).all id = log := by
    rw [all_appendAll, List.filter_eq_self.mpr (by simpa using hid)]
    rfl
  simp only [replay, hall, hhead]

/-! ## Whose events a call emits -/

def DomainEventKind.isStart : DomainEventKind → Bool
  | .accountStarted _ => true
  | _ => false

def DomainEventKind.isSnapshot : DomainEventKind → Bool
  | .accountSnapshotted _ => true
  | _ => false

/-- The event carries a figure of the account. -/
def DomainEventKind.isBooked : DomainEventKind → Bool
  | .tradeFilled _ | .dayRollover _ _ | .tickEvaluated _ | .payoutApproved _ _ => true
  | .accountSnapshotted _ => true
  | _ => false

def PipelineEvent.isStart : PipelineEvent → Bool
  | .accountStarted _ => true
  | _ => false

/-- An event of the account `id`, its start or not; the pipeline emits no snapshots. -/
structure DomainEvent.IsOf (e : DomainEvent) (id : AccountId) (start : Bool) : Prop where
  accountId_eq : e.accountId = id
  start_eq : e.kind.isStart = start
  not_snapshot : e.kind.isSnapshot = false

/-- An event of the account `id` that reports a decision. -/
structure DomainEvent.IsDecision (e : DomainEvent) (id : AccountId) : Prop where
  isOf : e.IsOf id false
  not_booked : e.kind.isBooked = false

theorem Effect.isOf (h : Effect env a ev b evs) : ∀ e ∈ evs, e.IsOf a.id ev.isStart := by
  have hid : b.id = a.id := h.transition.reading Account.id fun _ => rfl
  cases h with
  | accountStarted h =>
      intro e he
      rw [List.mem_singleton.mp he]
      exact ⟨hid, rfl, rfl⟩
  | payoutRequest hq h =>
      intro e he
      rcases List.mem_cons.mp he with rfl | he
      · exact ⟨rfl, rfl, rfl⟩
      · split at he
        · rw [List.mem_singleton.mp he]
          exact ⟨rfl, rfl, rfl⟩
        · cases he
  | overrideBreach h =>
      intro e he
      rcases List.mem_pair.mp he with rfl | rfl
      · exact ⟨rfl, rfl, rfl⟩
      · exact ⟨rfl, rfl, rfl⟩
  | orderSubmitted => simp
  | endOfDay => simp
  | onDemand => simp
  | _ =>
      intro e he
      rw [List.mem_singleton.mp he]
      exact ⟨rfl, rfl, rfl⟩

theorem route_isOf (h : route env a ev = .ok (b, evs)) : ∀ e ∈ evs, e.IsOf a.id false := by
  intro e he
  rcases route_events h with ⟨-, rfl⟩ | ⟨ts, rfl⟩
  · cases he
  · rw [List.mem_singleton.mp he]
    exact ⟨rfl, rfl, rfl⟩

theorem applyTargetHit_isDecision : ∀ e ∈ (applyTargetHit a d t).2, e.IsDecision a.id := by
  unfold applyTargetHit
  split
  · intro e he
    rw [List.mem_singleton.mp he]
    exact ⟨⟨rfl, rfl, rfl⟩, rfl⟩
  · simp

theorem applyPromotion_isDecision (h : applyPromotion a t = .ok (b, evs)) :
    b.id = a.id ∧ ∀ e ∈ evs, e.IsDecision a.id := by
  rcases applyPromotion_ok h with ⟨-, rfl, rfl⟩ | ⟨-, -, rfl, rfl⟩
  · simp
  · refine ⟨rfl, fun e he => ?_⟩
    rcases List.mem_pair.mp he with rfl | rfl
    · exact ⟨⟨rfl, rfl, rfl⟩, rfl⟩
    · exact ⟨⟨rfl, rfl, rfl⟩, rfl⟩

theorem applyTermination_isDecision : ∀ e ∈ (applyTermination a d t actorId).2, e.IsDecision a.id := by
  unfold applyTermination
  cases d.accountStatusTarget with
  | none => simp
  | some target =>
      intro e he
      rcases List.mem_cons.mp he with rfl | he
      · exact ⟨⟨rfl, rfl, rfl⟩, rfl⟩
      · split at he
        · rw [List.mem_singleton.mp he]
          exact ⟨⟨rfl, rfl, rfl⟩, rfl⟩
        · cases he

theorem decisionEvents_isDecision : ∀ e ∈ decisionEvents id d t, e.IsDecision id := by
  unfold decisionEvents
  split
  · intro e he
    rw [List.mem_singleton.mp he]
    exact ⟨⟨rfl, rfl, rfl⟩, rfl⟩
  · simp

theorem Evaluated.applied_id (s : Evaluated env a ev) : s.applied.account.id = a.id :=
  s.event_reading Account.id (fun _ => rfl) fun _ => rfl

namespace Passage

theorem account_id (s : Passage p env a ev r) : r.account.id = a.id :=
  (s.applied_reading Account.id (fun _ _ _ _ _ _ => rfl) (fun _ _ => rfl) fun _ _ _ _ => rfl).trans
    s.applied_id

/-- The events after the one a call is made for: what the decision does, and the violations. -/
def decisionLog (s : Passage p env a ev r) : List DomainEvent :=
  (applyTargetHit s.filled (s.decision p) env.contextNow).2 ++ s.promotionEvents ++
    (applyTermination s.promoted (s.decision p) env.contextNow ev.actorId).2 ++
    decisionEvents a.id (s.decision p) env.emitNow ++
    (r.result.violations.map fun v => ⟨a.id, .ruleViolated v, env.contextNow⟩)

theorem events_split (s : Passage p env a ev r) :
    r.events = s.rolloverEvents ++ s.applied.events ++ s.decisionLog := by
  simp only [s.events_eq, decisionLog, List.append_assoc]

theorem decisionLog_isDecision (s : Passage p env a ev r) : ∀ e ∈ s.decisionLog, e.IsDecision a.id := by
  have hmarked : (s.marked p).id = a.id :=
    (s.marked_reading p Account.id fun _ _ _ _ _ _ => rfl).trans s.applied_id
  have hfilled : s.filled.id = a.id := by
    rw [← hmarked]
    exact (applyTargetHit_reading Account.id fun _ _ _ _ => rfl).symm
  obtain ⟨hpromoted, hpromotion⟩ := applyPromotion_isDecision s.promotion_eq
  rw [hmarked] at hpromoted hpromotion
  rw [decisionLog]
  simp only [List.mem_append]
  rintro e ((((he | he) | he) | he) | he)
  · exact hfilled ▸ applyTargetHit_isDecision e he
  · exact hpromotion e he
  · exact hpromoted ▸ applyTermination_isDecision e he
  · exact decisionEvents_isDecision e he
  · obtain ⟨v, -, rfl⟩ := List.mem_map.mp he
    exact ⟨⟨rfl, rfl, rfl⟩, rfl⟩

theorem decisionLog_isOf (s : Passage p env a ev r) : ∀ e ∈ s.decisionLog, e.IsOf a.id false :=
  fun e he => (s.decisionLog_isDecision e he).isOf

theorem applied_isOf (s : Passage p env a ev r) : ∀ e ∈ s.applied.events, e.IsOf a.id ev.isStart := by
  obtain ⟨trades, heffect⟩ := applyEvent_effect s.apply_eq
  have hrouted : s.routed.id = a.id :=
    s.routed_reading Account.id fun _ => rfl
  exact hrouted ▸ heffect.isOf

theorem events_isOf (s : Passage p env a ev r) :
    ∀ e ∈ r.events, e.IsOf a.id false ∨ e.IsOf a.id ev.isStart := by
  rw [s.events_split]
  simp only [List.mem_append]
  rintro e ((he | he) | he)
  · exact .inl (route_isOf s.route_eq e he)
  · exact .inr (s.applied_isOf e he)
  · exact .inl (s.decisionLog_isOf e he)

theorem events_accountId (s : Passage p env a ev r) : ∀ e ∈ r.events, e.accountId = a.id :=
  fun e he => (s.events_isOf e he).elim DomainEvent.IsOf.accountId_eq DomainEvent.IsOf.accountId_eq

/-- Only the start of an account emits a start. -/
theorem events_isOf_not_start (s : Passage p env a ev r) (hev : ev.isStart = false) :
    ∀ e ∈ r.events, e.IsOf a.id false :=
  fun e he => (s.events_isOf e he).elim (fun h => h) fun h => hev ▸ h

end Passage

theorem Passage.not_start (s : Passage p env a ev r) (ha : a.Started) : ev.isStart = false := by
  obtain ⟨trades, htr⟩ := applyEvent_transition s.apply_eq
  cases ev with
  | accountStarted at_ =>
      cases htr with
      | accountStarted h =>
          have hpending : s.routed.status = .pending := (Account.start_ok h).1
          exact absurd (s.routed_status.symm.trans hpending) ha.status_ne
  | _ => rfl

/-! ## The start of a run -/

theorem Effect.accountStarted_eq (h : Effect env a (.accountStarted t) b evs) :
    a.start t = .ok b ∧ evs = [⟨a.id, .accountStarted a.plan, t⟩] := by
  have hid : b.id = a.id := h.transition.reading Account.id fun _ => rfl
  cases h with
  | accountStarted h => exact ⟨h, by rw [hid]⟩

/-- A new account is started with no day to catch up with. -/
theorem Passage.first (s : Passage p env (.new id tenantId plan) (.accountStarted t) r) :
    (∃ trades, ({ Account.new id tenantId plan with todayTrades := trades }).start t =
        .ok s.applied.account) ∧
      r.events = ⟨id, .accountStarted plan, t⟩ :: s.decisionLog := by
  have hroute := s.route_eq
  rw [route_eq_map, if_neg (by simp [PipelineEvent.isDayRollover])] at hroute
  obtain ⟨starts, hstarts, hrouted⟩ := map_eq_ok.mp hroute
  obtain ⟨day, -, hstarts⟩ := bind_eq_ok.mp hstarts
  obtain rfl : [] = starts := pure_eq_ok.mp hstarts
  obtain ⟨hrouted, hevs⟩ := Prod.mk.inj hrouted
  obtain ⟨trades, heffect⟩ := applyEvent_effect s.apply_eq
  rw [← hrouted] at heffect
  obtain ⟨hstart, happlied⟩ := heffect.accountStarted_eq
  refine ⟨⟨trades, hstart⟩, ?_⟩
  rw [s.events_split, ← hevs, happlied]
  rfl

/-! ## Recorded runs -/

/-- The events of a run from a new account, all of them its own and the first its start, replay to an
account that agrees with the one the run has arrived at. -/
structure Recorded (Agrees : Account → Account → Prop) (id : AccountId) (tenantId : TenantId)
    (plan : ChallengePlan) (a : Account) (log : List DomainEvent) : Prop where
  started : a.Started
  id_eq : a.id = id
  log_id : ∀ e ∈ log, e.accountId = id
  head_eq : log.head?.map DomainEvent.kind = some (.accountStarted plan)
  reproduces : Reproduces (replayEvent id) Agrees (.new id tenantId plan) a log

namespace Recorded

variable {Agrees Agrees' : Account → Account → Prop}

theorem replay (h : Recorded Agrees id tenantId plan a log) :
    ∃ acc, (InMemoryEventStore.empty.appendAll log).replay id tenantId = .ok acc ∧ Agrees a acc := by
  obtain ⟨acc, hacc, hagrees⟩ := h.reproduces
  exact ⟨acc, (InMemoryEventStore.replay_appendAll h.log_id h.head_eq).trans hacc, hagrees⟩

theorem first {tenantId' : TenantId} (s : Passage p env (.new id tenantId' plan) (.accountStarted t) r)
    (h : ∀ acc, (Account.new id tenantId plan).start t = .ok acc →
      Reproduces (replayEvent id) Agrees acc r.account s.decisionLog) :
    Recorded Agrees id tenantId plan r.account r.events := by
  obtain ⟨⟨trades, hstart⟩, hevents⟩ := s.first
  obtain ⟨-, dayStart, hday, happlied⟩ := Account.start_eq hstart
  obtain ⟨acc, hacc⟩ : ∃ acc, (Account.new id tenantId plan).start t = .ok acc := by
    have hday' : (Account.new id tenantId plan).plan.tradingDayStart t = .ok dayStart := hday
    have hpending : (Account.new id tenantId plan).status = .pending := rfl
    rw [Account.start, if_pos hpending, hday']
    exact ⟨_, rfl⟩
  obtain ⟨final, hfinal, hagrees⟩ := h acc hacc
  refine ⟨?_, s.account_id, s.events_accountId, by rw [hevents]; rfl, final, ?_, hagrees⟩
  · exact s.started_of_applied (by rw [happlied]; exact ⟨nofun, nofun⟩)
  · rw [hevents, replay_cons]
    exact bind_eq_ok.mpr ⟨acc, hacc, hfinal⟩

theorem extend (h : Recorded Agrees id tenantId plan a log) (s : Passage p env a ev r)
    (hstep : ∀ acc, Agrees a acc → Reproduces (replayEvent id) Agrees' acc r.account r.events) :
    Recorded Agrees' id tenantId plan r.account (log ++ r.events) where
  started := s.started h.started
  id_eq := s.account_id.trans h.id_eq
  log_id := by
    intro e he
    rcases List.mem_append.mp he with he | he
    · exact h.log_id e he
    · exact (s.events_accountId e he).trans h.id_eq
  head_eq := by
    cases log with
    | nil => cases h.head_eq
    | cons e log => exact h.head_eq
  reproduces := h.reproduces.extend hstep

end Recorded

/-! ## The replayed status -/

/-- The status after an event is replayed; the start is left out. -/
def DomainEventKind.statusAfter (status : AccountStatus) : DomainEventKind → AccountStatus
  | .accountStatusChanged _ to_ => to_
  | .accountSnapshotted snapshot => snapshot.status
  | .ruleViolated violation => violation.kind.terminal.getD status
  | .payoutRequested _ _ => .payoutPending
  | .payoutApproved _ _ => .funded
  | .liquidationRequested _ => .closed
  | .overrideCleared .. => .active
  | _ => status

def statusThrough (status : AccountStatus) (evs : List DomainEvent) : AccountStatus :=
  evs.foldl (fun st e => e.kind.statusAfter st) status

theorem replayEvent_status {e : DomainEvent} (he : e.kind.isStart = false) (acc : Account) :
    ∃ acc', replayEvent id acc e = .ok acc' ∧ acc'.status = e.kind.statusAfter acc.status := by
  unfold replayEvent
  cases hkind : e.kind with
  | accountStarted plan => rw [hkind] at he; cases he
  | positionOpened positionId symbol side qty =>
      dsimp only
      split
      · exact ⟨_, rfl, rfl⟩
      · exact ⟨_, rfl, rfl⟩
  | _ => exact ⟨_, rfl, rfl⟩

theorem replay_status (h : ∀ e ∈ evs, e.kind.isStart = false) (acc : Account) :
    ∃ acc', Replay.replay (replayEvent id) acc evs = .ok acc' ∧
      acc'.status = statusThrough acc.status evs := by
  have hread : ∀ e ∈ evs, ∀ x : Account, True → ∃ x', replayEvent id x e = .ok x' ∧ True ∧
      x'.status = e.kind.statusAfter x.status := by
    intro e he x _
    obtain ⟨x', hx', hstatus⟩ := replayEvent_status (h e he) x
    exact ⟨x', hx', trivial, hstatus⟩
  obtain ⟨acc', hacc', -, hstatus⟩ :=
    replay_reading (fun _ => True) Account.status
      (fun st (e : DomainEvent) => e.kind.statusAfter st) hread (s := acc) trivial
  exact ⟨acc', hacc', hstatus⟩

theorem statusThrough_append (status : AccountStatus) (xs ys : List DomainEvent) :
    statusThrough status (xs ++ ys) = statusThrough (statusThrough status xs) ys := List.foldl_append

end Propfirm
