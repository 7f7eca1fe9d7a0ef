import Propfirm.Engine.Lemmas.Runs
import Propfirm.Payout.Theorems

/-!
# From the request of a payout to its approval

The approval does not read the request: it quotes the account again, as it is then.
-/

namespace Propfirm

open Fallible

variable {p : Pipeline} {env : Env} {a b : Account} {ev : PipelineEvent} {r : PipelineResult}
  {calls : List Processed} {config config' : PayoutConfig} {quote quote' : PayoutQuote} {now now' : Timestamp}
  {label label' : String}

/-! ## Two quotes from one book -/

theorem Accepted.acceptedQuote_eq (h : Accepted a now config quote) (hrejected : quote.rejected = none) :
    acceptedQuote a now label = .ok quote := by
  have hbasis : max (a.balance - a.balanceAtLastPayout) 0 = quote.profitBasis := by
    rw [← h.basis_eq]
    exact max_eq_left h.basis_pos.le
  refine acceptedQuote_ok.mpr ⟨config, h.config_eq, ?_, hrejected⟩
  unfold quotePayout
  simp only [Option.getD_some, hbasis, ← h.share_eq, ← h.refund_eq, ← h.amount_eq,
    if_neg (not_le.mpr h.basis_pos), if_neg (not_lt.mpr h.minimum_le), ← hrejected]
  cases hcycle : config.cycle.minGap with
  | none => rfl
  | some gap =>
      cases hlast : a.lastPayoutAt with
      | none => rfl
      | some last => simp only [if_neg (not_lt.mpr (h.gap_le gap last hcycle hlast))]

theorem payoutBook_config (h : b.payoutBook = a.payoutBook) :
    b.plan.payoutConfig = a.plan.payoutConfig ∧ b.plan.refundFeeAmount = a.plan.refundFeeAmount :=
  ⟨congrArg (fun book => book.terms.payoutConfig) h, congrArg (fun book => book.terms.refundFeeAmount) h⟩

/-- Two accounts with one book are quoted the same refund, and amounts that differ by the trader's share of the
difference between the balances. -/
theorem Accepted.requoted (h : Accepted a now config quote) (h' : Accepted b now' config' quote')
    (hbook : b.payoutBook = a.payoutBook) :
    quote'.feeRefund = quote.feeRefund ∧
      quote'.amount = quote.amount + (b.balance - a.balance) * config.traderShareFor a.payoutCount := by
  obtain ⟨hconfig, hfee⟩ := payoutBook_config hbook
  have hcount : b.payoutCount = a.payoutCount := congrArg PayoutBook.payoutCount hbook
  have hmark : b.balanceAtLastPayout = a.balanceAtLastPayout := congrArg PayoutBook.balanceAtLastPayout hbook
  have hused : b.refundUsed = a.refundUsed := congrArg PayoutBook.refundUsed hbook
  obtain rfl : config' = config :=
    Option.some.inj (h'.config_eq.symm.trans (hconfig.trans h.config_eq))
  have hrefund : quote'.feeRefund = quote.feeRefund := by
    rw [h'.refund_eq, h.refund_eq, hcount, hused, hfee]
  refine ⟨hrefund, ?_⟩
  rw [h'.amount_eq, h.amount_eq, hrefund, h'.basis_eq, h.basis_eq, h'.share_eq, h.share_eq, hmark, hcount]
  ring

/-- What was accepted once is accepted later, of a balance that is no lower. -/
theorem Accepted.later (h : Accepted a now config quote) (hbook : b.payoutBook = a.payoutBook)
    (hbalance : a.balance ≤ b.balance) (hnow : now ≤ now')
    (hshare : 0 ≤ config.traderShareFor a.payoutCount) :
    ∃ quote', Accepted b now' config quote' ∧ quote'.rejected = none := by
  obtain ⟨hconfig, hfee⟩ := payoutBook_config hbook
  have hcount : b.payoutCount = a.payoutCount := congrArg PayoutBook.payoutCount hbook
  have hmark : b.balanceAtLastPayout = a.balanceAtLastPayout := congrArg PayoutBook.balanceAtLastPayout hbook
  have hused : b.refundUsed = a.refundUsed := congrArg PayoutBook.refundUsed hbook
  have hlast : b.lastPayoutAt = a.lastPayoutAt := congrArg PayoutBook.lastPayoutAt hbook
  have hbasis : quote.profitBasis ≤ b.balance - b.balanceAtLastPayout := by
    rw [h.basis_eq, hmark]
    exact sub_le_sub_right hbalance _
  refine ⟨⟨b.balance - b.balanceAtLastPayout, quote.traderShare, quote.feeRefund,
    (b.balance - b.balanceAtLastPayout) * quote.traderShare + quote.feeRefund, none⟩, ?_, rfl⟩
  exact
    { config_eq := hconfig.trans h.config_eq
      basis_eq := rfl
      basis_pos := h.basis_pos.trans_le hbasis
      share_eq := by rw [hcount]; exact h.share_eq
      refund_eq := by rw [hcount, hused, hfee]; exact h.refund_eq
      amount_eq := rfl
      minimum_le := by
        refine h.minimum_le.trans ?_
        rw [h.amount_eq]
        rw [← h.share_eq] at hshare
        have hgain := mul_le_mul_of_nonneg_right hbasis hshare
        simpa using hgain
      gap_le := fun gap last hgap hlast' => (h.gap_le gap last hgap (hlast ▸ hlast')).trans hnow }

/-! ## The wait -/

theorem Run.payoutBook (h : Run a calls b) (hnone : ∀ c ∈ calls, c.ev ≠ .payoutApprove) :
    b.payoutBook = a.payoutBook := by
  refine h.invariant (fun x => x.payoutBook = a.payoutBook) (fun c hc hbook => ?_) hnone rfl
  obtain ⟨s⟩ := c.passage
  exact (s.account_payoutBook hc).trans hbook

/-- The payout is still pending, or the account was breached meanwhile. -/
def AccountStatus.awaitsPayout (st : AccountStatus) : Bool := st == .payoutPending || st.isBreachTerminal

theorem Transition.awaitsPayout (h : Transition env a ev b) (ha : a.status.awaitsPayout = true)
    (hev : ev ≠ .payoutApprove) (hoverride : ev.isOverrideBreach = false) : b.status.awaitsPayout = true := by
  cases h with
  | accountStarted h =>
      rw [(Account.start_ok h).1] at ha
      cases ha
  | orderSubmitted | endOfDay | onDemand | tick | tickEstimated => exact ha
  | tradeFilled => simpa [Account.applyRealizedPnl] using ha
  | dayRollover h =>
      rw [eq_of_outsideDays (rolloverDay_outsideDays h) Account.status fun _ => rfl]
      exact ha
  | emergencyStop => rfl
  | overrideBreach => cases hoverride
  | payoutRequest h =>
      obtain ⟨-, rfl⟩ := Account.markPayoutPending_ok h
      rfl
  | payoutApprove => exact absurd rfl hev

theorem Passage.awaitsPayout (s : Passage p env a ev r) (h : s.applied.account.status.awaitsPayout = true) :
    r.account.status.awaitsPayout = true := by
  -- neither a reached target nor a promotion touches such a status
  have hmarked : (s.marked p).status = s.applied.account.status := by
    refine (s.marked_status p).resolve_right fun hactive => ?_
    rw [hactive.1] at h
    cases h
  have hpromoted : s.promoted.status = s.applied.account.status := by
    refine (s.promoted_status.resolve_right fun hhit => ?_).trans hmarked
    rw [← hmarked, hhit.1] at h
    cases h
  rw [s.account_status]
  cases htarget : (s.decision p).accountStatusTarget with
  | none =>
      rw [Option.getD_none, hpromoted]
      exact h
  | some target =>
      rw [Option.getD_some, AccountStatus.awaitsPayout, accountStatusTarget_isBreachTerminal htarget,
        Bool.or_true]

theorem Processed.awaitsPayout (c : Processed) (h : c.before.status.awaitsPayout = true)
    (hev : c.ev ≠ .payoutApprove) (hoverride : c.ev.isOverrideBreach = false) :
    c.after.status.awaitsPayout = true := by
  obtain ⟨s⟩ := c.passage
  obtain ⟨trades, htr⟩ := applyEvent_transition s.apply_eq
  exact s.awaitsPayout (htr.awaitsPayout (by rw [s.routed_status]; exact h) hev hoverride)

theorem Run.awaitsPayout (h : Run a calls b) (ha : a.status.awaitsPayout = true)
    (hnone : ∀ c ∈ calls, c.ev ≠ .payoutApprove ∧ c.ev.isOverrideBreach = false) :
    b.status.awaitsPayout = true :=
  h.invariant (fun x => x.status.awaitsPayout = true) (fun c hc hx => c.awaitsPayout hx hc.1 hc.2) hnone ha

/-! ## Requests and approvals -/

structure Processed.Requests (c : Processed) (config : PayoutConfig) (quote : PayoutQuote) : Prop where
  accepted : Accepted c.before c.env.branchNow config quote
  logged : ∃ e ∈ c.result.events, e.kind = .payoutRequested quote.profitBasis quote.amount
  balance_eq : c.after.balance = c.before.balance
  payoutBook_eq : c.after.payoutBook = c.before.payoutBook
  awaits : c.after.status.awaitsPayout = true

structure Processed.Approves (c : Processed) (config : PayoutConfig) (quote : PayoutQuote) : Prop where
  accepted : Accepted c.before c.env.branchNow config quote
  logged : ∃ e ∈ c.result.events, e.kind = .payoutApproved quote.amount quote.feeRefund
  balance_eq : c.after.balance = c.before.balance - quote.amount + quote.feeRefund

theorem Passage.mem_events_of_applied (s : Passage p env a ev r) {e : DomainEvent} (h : e ∈ s.applied.events) :
    e ∈ r.events := by
  rw [s.events_eq]
  simp [h]

theorem Evaluated.routed_quote (s : Evaluated env a ev) (trades : List Trade) :
    acceptedQuote { s.routed with todayTrades := trades } = acceptedQuote a :=
  (Prod.mk.inj (Prod.mk.inj (route_payout s.route_eq trades)).2).2

theorem Passage.requests (s : Passage p env a .payoutRequest r) :
    ∃ config quote, Accepted a env.branchNow config quote ∧
      (∃ e ∈ r.events, e.kind = .payoutRequested quote.profitBasis quote.amount) ∧
      r.account.status.awaitsPayout = true := by
  obtain ⟨trades, heffect⟩ := applyEvent_effect s.apply_eq
  generalize hevents : s.applied.events = evs at heffect
  generalize haccount : s.applied.account = after at heffect
  cases heffect with
  | @payoutRequest _ quote b hquote hb =>
      rw [s.routed_quote trades] at hquote
      obtain ⟨config, haccepted⟩ := acceptedQuote_accepted hquote
      refine ⟨config, quote, haccepted, ⟨_, s.mem_events_of_applied (hevents ▸ List.mem_cons_self), rfl⟩,
        s.awaitsPayout ?_⟩
      rw [haccount, (Account.markPayoutPending_ok hb).2]
      rfl

theorem Processed.exists_requests {c : Processed} (hev : c.ev = .payoutRequest) :
    ∃ config quote, c.Requests config quote := by
  obtain ⟨p, env, a, ev, r, hprocess⟩ := c
  obtain rfl : ev = .payoutRequest := hev
  obtain ⟨s⟩ := Pipeline.process_passage hprocess
  obtain ⟨config, quote, haccepted, hlogged, hawaits⟩ := s.requests
  have hne : PipelineEvent.payoutRequest ≠ .payoutApprove := fun h => by cases h
  exact ⟨config, quote, haccepted, hlogged, s.account_balance hne, s.account_payoutBook hne, hawaits⟩

theorem Passage.approves (s : Passage p env a .payoutApprove r) :
    ∃ label quote, acceptedQuote a env.branchNow label = .ok quote ∧
      ∃ e ∈ r.events, e.kind = .payoutApproved quote.amount quote.feeRefund := by
  obtain ⟨trades, heffect⟩ := applyEvent_effect s.apply_eq
  generalize hevents : s.applied.events = evs at heffect
  generalize haccount : s.applied.account = after at heffect
  cases heffect with
  | @payoutApprove label quote b hquote hb =>
      rw [s.routed_quote trades] at hquote
      exact ⟨label, quote, hquote, _, s.mem_events_of_applied (hevents ▸ List.mem_cons_self), rfl⟩

theorem Processed.exists_approves {c : Processed} (hev : c.ev = .payoutApprove) :
    ∃ config quote, c.Approves config quote := by
  obtain ⟨p, env, a, ev, r, hprocess⟩ := c
  obtain rfl : ev = .payoutApprove := hev
  obtain ⟨s⟩ := Pipeline.process_passage hprocess
  obtain ⟨label, quote, hquote, hlogged⟩ := s.approves
  obtain ⟨config, haccepted⟩ := acceptedQuote_accepted hquote
  exact ⟨config, quote, haccepted, hlogged, (s.approved hquote).1⟩

/-- Whatever happens between a request and the approval that follows it, the trader is paid what they requested
and their share of what the balance has gained or lost since. -/
theorem approval_requotes_request {request approval : Processed} (hrequest : request.ev = .payoutRequest)
    (happroval : approval.ev = .payoutApprove) (h : Run request.after calls approval.before)
    (hnone : ∀ c ∈ calls, c.ev ≠ .payoutApprove) :
    ∃ config basis requested paid refund,
      request.before.plan.payoutConfig = some config ∧
        (∃ e ∈ request.result.events, e.kind = .payoutRequested basis requested) ∧
        (∃ e ∈ approval.result.events, e.kind = .payoutApproved paid refund) ∧
        paid = requested + (approval.before.balance - request.before.balance) *
          config.traderShareFor request.before.payoutCount ∧
        approval.after.balance = approval.before.balance - paid + refund := by
  obtain ⟨config, quote, hquote⟩ := Processed.exists_requests hrequest
  obtain ⟨config', quote', hquote'⟩ := Processed.exists_approves happroval
  have hbook : approval.before.payoutBook = request.before.payoutBook :=
    (Run.payoutBook h hnone).trans hquote.payoutBook_eq
  obtain ⟨-, hamount⟩ := hquote.accepted.requoted hquote'.accepted hbook
  exact ⟨config, _, _, _, _, hquote.accepted.config_eq, hquote.logged, hquote'.logged, hamount,
    hquote'.balance_eq⟩

/-- Of a profit of 2000 the trader requests 1600, loses 500 and is paid 1200. -/
theorem approval_requotes_after_loss :
    ∃ request approval : Processed,
      request.ev = .payoutRequest ∧ approval.ev = .payoutApprove ∧
        approval.before.balance - request.before.balance = -500 ∧
        ∃ config basis requested paid refund,
          request.before.plan.payoutConfig = some config ∧
            (∃ e ∈ request.result.events, e.kind = .payoutRequested basis requested) ∧
            (∃ e ∈ approval.result.events, e.kind = .payoutApproved paid refund) ∧
            paid = requested + (approval.before.balance - request.before.balance) *
              config.traderShareFor request.before.payoutCount ∧
            approval.after.balance = approval.before.balance - paid + refund := by
  have hrun :
      (do
        let p := Pipeline.ofPlan (.default ⟨1⟩ 0)
        let r₁ ← p.process (.at 1) (profitableAccount (.default ⟨1⟩ 0)) .payoutRequest
        let r₂ ← p.process (.at 2) r₁.account (.tradeFilled (closingFill (-500) 2))
        let _ ← p.process (.at 3) r₂.account .payoutApprove
        pure (r₂.account.balance - (profitableAccount (.default ⟨1⟩ 0)).balance)) = .ok (-500) := by
    decide +kernel
  obtain ⟨r₁, h₁, hrun⟩ := bind_eq_ok.mp hrun
  obtain ⟨r₂, h₂, hrun⟩ := bind_eq_ok.mp hrun
  obtain ⟨r₃, h₃, hrun⟩ := bind_eq_ok.mp hrun
  have hwait : Run (Processed.of h₁).after [Processed.of h₂] (Processed.of h₃).before :=
    .cons (Processed.of h₂) .nil
  refine ⟨Processed.of h₁, Processed.of h₃, rfl, rfl, pure_eq_ok.mp hrun,
    approval_requotes_request rfl rfl hwait ?_⟩
  rw [List.forall_mem_singleton]
  exact fun h => by cases h

theorem Evaluated.exists_process (s : Evaluated env a ev) (hpromotable : (s.marked p).promotable = false)
    (hnotify : ∀ v, p.notifyViolation v = .ok ()) : ∃ r, p.process env a ev = .ok r := by
  cases hprocess : p.process env a ev with
  | ok r => exact ⟨r, rfl⟩
  | error f =>
      rcases s.process_error hprocess with h | ⟨v, h⟩
      · rw [applyPromotion, hpromotable] at h
        cases h
      · rw [hnotify v] at h
        cases h

theorem Evaluated.exists_approval {quote : PayoutQuote} {routed : Account} {rolled : List DomainEvent}
    (hroute : route env a .payoutApprove = .ok (routed, rolled))
    (hday : ∃ dayStart, a.plan.tradingDayStart env.applyNow = .ok dayStart)
    (hquote : ∀ label, acceptedQuote a env.branchNow label = .ok quote) (hpending : a.status = .payoutPending) :
    ∃ s : Evaluated env a .payoutApprove, s.applied.account.status = .funded ∧
      s.applied.events = [⟨a.id, .payoutApproved quote.amount quote.feeRefund, env.branchNow⟩] := by
  obtain ⟨dayStart, hday⟩ := hday
  have hread : (routed.plan, routed.status, routed.id) = (a.plan, a.status, a.id) :=
    eq_of_outsideDays (route_outsideDays hroute) (fun x => (x.plan, x.status, x.id)) fun _ => rfl
  simp only [Prod.mk.injEq] at hread
  obtain ⟨hplan, hstatus, hid⟩ := hread
  have hprune : routed.plan.tradingDayStart env.applyNow = .ok dayStart := by rw [hplan, hday]
  let trades := routed.todayTrades.filter fun t => decide (dayStart ≤ t.executedAt)
  have hpaid : ∃ paid, recordPayout { routed with todayTrades := trades } quote.amount quote.feeRefund
      env.branchNow = .ok paid := by
    rw [recordPayout, if_pos (.inr (hstatus.trans hpending))]
    exact ⟨_, rfl⟩
  obtain ⟨paid, hpaid⟩ := hpaid
  have hsame : acceptedQuote { routed with todayTrades := trades } = acceptedQuote a :=
    (Prod.mk.inj (Prod.mk.inj (route_payout hroute trades)).2).2
  refine ⟨⟨routed, rolled, _, hroute, bind_eq_ok.mpr ⟨dayStart, hprune, bind_eq_ok.mpr
    ⟨quote, (congrFun (congrFun hsame _) _).trans (hquote _), bind_eq_ok.mpr ⟨paid, hpaid, rfl⟩⟩⟩⟩, ?_, ?_⟩
  · exact (recordPayout_ok hpaid).2.1
  · rw [← hid]

/-- A payout that is pending and quoted is paid, whatever the rules then make of the account. -/
theorem approval_succeeds {quote : PayoutQuote} (hroute : ∃ routed, route env a .payoutApprove = .ok routed)
    (hday : ∃ dayStart, a.plan.tradingDayStart env.applyNow = .ok dayStart)
    (hnotify : ∀ v, p.notifyViolation v = .ok ())
    (hquote : ∀ label, acceptedQuote a env.branchNow label = .ok quote) (hpending : a.status = .payoutPending) :
    ∃ r, p.process env a .payoutApprove = .ok r ∧
      (∃ e ∈ r.events, e.kind = .payoutApproved quote.amount quote.feeRefund) ∧
      r.account.balance = a.balance - quote.amount + quote.feeRefund ∧
      (r.account.status = .funded ∨ r.account.status.isBreachTerminal = true) := by
  obtain ⟨⟨routed, rolled⟩, hroute⟩ := hroute
  obtain ⟨s, hfunded, hevents⟩ := Evaluated.exists_approval hroute hday hquote hpending
  have hmarked : (s.marked p).status = .funded := by
    refine ((s.marked_status p).resolve_right fun hactive => ?_).trans hfunded
    rw [hactive.1] at hfunded
    cases hfunded
  have hpromotable : (s.marked p).promotable = false := by simp [Account.promotable, hmarked]
  obtain ⟨r, hr⟩ := s.exists_process hpromotable hnotify
  obtain ⟨pass⟩ := Pipeline.process_passage hr
  obtain rfl : pass.toEvaluated = s := pass.toEvaluated.subsingleton s
  refine ⟨r, hr, ⟨_, pass.mem_events_of_applied (hevents ▸ List.mem_cons_self), rfl⟩,
    (pass.approved (hquote "")).1, ?_⟩
  rw [pass.account_status, pass.promoted_eq_marked hpromotable, hmarked]
  cases htarget : (pass.decision p).accountStatusTarget with
  | none => exact .inl rfl
  | some target => exact .inr (accountStatusTarget_isBreachTerminal htarget)

/-- A requested payout can be approved at any later time, for no less than was requested, unless the balance
fell below that of the request or the account was breached. -/
theorem request_stays_payable {request : Processed} (hrequest : request.ev = .payoutRequest)
    (h : Run request.after calls b)
    (hnone : ∀ c ∈ calls, c.ev ≠ .payoutApprove ∧ c.ev.isOverrideBreach = false)
    (hconfig : request.before.plan.payoutConfig = some config)
    (htiers : ∀ tier ∈ config.tiers, 0 ≤ tier.traderShare)
    (hbreach : b.status.isBreachTerminal = false) (hbalance : request.before.balance ≤ b.balance)
    (hnow : request.env.branchNow ≤ env.branchNow)
    (hroute : ∃ routed, route env b .payoutApprove = .ok routed)
    (hday : ∃ dayStart, b.plan.tradingDayStart env.applyNow = .ok dayStart)
    (hnotify : ∀ v, p.notifyViolation v = .ok ()) :
    ∃ basis requested paid refund approval,
      (∃ e ∈ request.result.events, e.kind = .payoutRequested basis requested) ∧ requested ≤ paid ∧
        p.process env b .payoutApprove = .ok approval ∧
        (∃ e ∈ approval.events, e.kind = .payoutApproved paid refund) ∧
        approval.account.balance = b.balance - paid + refund ∧
        (approval.account.status = .funded ∨ approval.account.status.isBreachTerminal = true) := by
  obtain ⟨config', quote, hquote⟩ := Processed.exists_requests hrequest
  obtain rfl : config' = config := Option.some.inj (hquote.accepted.config_eq.symm.trans hconfig)
  have hbook : b.payoutBook = request.before.payoutBook :=
    (Run.payoutBook h fun c hc => (hnone c hc).1).trans hquote.payoutBook_eq
  have hshare : 0 ≤ config'.traderShareFor request.before.payoutCount := traderShareFor_nonneg htiers _
  obtain ⟨quote', haccepted, hrejected⟩ := hquote.accepted.later hbook hbalance hnow hshare
  obtain ⟨-, hamount⟩ := hquote.accepted.requoted haccepted hbook
  have hpending : b.status = .payoutPending := by
    have hawaits := Run.awaitsPayout h hquote.awaits hnone
    rw [AccountStatus.awaitsPayout, hbreach, Bool.or_false, beq_iff_eq] at hawaits
    exact hawaits
  have hle : quote.amount ≤ quote'.amount := by
    rw [hamount]
    linarith [mul_nonneg (sub_nonneg.mpr hbalance) hshare]
  obtain ⟨approval, hprocess, hlogged, hcash, hstatus⟩ :=
    approval_succeeds hroute hday hnotify (fun _ => haccepted.acceptedQuote_eq hrejected) hpending
  exact ⟨_, quote.amount, quote'.amount, quote'.feeRefund, approval, hquote.logged, hle, hprocess, hlogged,
    hcash, hstatus⟩

/-- Of a profit of 2000 the trader requests 1600, gains 500 and can be paid. -/
theorem request_stays_payable_after_gain :
    ∃ (request : Processed) (b : Account) (approval : PipelineResult),
      request.ev = .payoutRequest ∧ b.balance = request.before.balance + 500 ∧
        (Pipeline.ofPlan (.default ⟨1⟩ 0)).process (.at 3) b .payoutApprove = .ok approval ∧
        (approval.account.status = .funded ∨ approval.account.status.isBreachTerminal = true) := by
  have hrun :
      (do
        let p := Pipeline.ofPlan (.default ⟨1⟩ 0)
        let r₁ ← p.process (.at 1) (profitableAccount (.default ⟨1⟩ 0)) .payoutRequest
        let r₂ ← p.process (.at 2) r₁.account (.tradeFilled (closingFill 500 2))
        let _ ← route (.at 3) r₂.account .payoutApprove
        let _ ← r₂.account.plan.tradingDayStart 3
        pure (r₂.account.balance, r₂.account.status)) = .ok (12500, .payoutPending) := by
    decide +kernel
  obtain ⟨r₁, h₁, hrun⟩ := bind_eq_ok.mp hrun
  obtain ⟨r₂, h₂, hrun⟩ := bind_eq_ok.mp hrun
  obtain ⟨routed, hroute, hrun⟩ := bind_eq_ok.mp hrun
  obtain ⟨dayStart, hday, hrun⟩ := bind_eq_ok.mp hrun
  obtain ⟨hbalance, hstatus⟩ := Prod.mk.inj (pure_eq_ok.mp hrun)
  have hwait : Run (Processed.of h₁).after [Processed.of h₂] r₂.account := .cons (Processed.of h₂) .nil
  have hnone : ∀ c ∈ [Processed.of h₂], c.ev ≠ .payoutApprove ∧ c.ev.isOverrideBreach = false := by
    rw [List.forall_mem_singleton]
    exact ⟨fun h => (by cases h), rfl⟩
  have htiers : ∀ tier ∈ PayoutConfig.default.tiers, 0 ≤ tier.traderShare := by decide +kernel
  have hgain : (profitableAccount (.default ⟨1⟩ 0)).balance + 500 = 12500 := by decide +kernel
  have hle : (Processed.of h₁).before.balance ≤ r₂.account.balance := by
    rw [hbalance, ← hgain]
    exact le_add_of_nonneg_right (by decide +kernel)
  have hnow : (Env.at 1).branchNow ≤ (Env.at 3).branchNow := by decide +kernel
  have hnotify : ∀ v, (Pipeline.ofPlan (.default ⟨1⟩ 0)).notifyViolation v = .ok () := fun _ => rfl
  obtain ⟨_, _, _, _, approval, -, -, hprocess, -, -, hpaid⟩ :=
    request_stays_payable rfl hwait hnone rfl htiers (by rw [hstatus]; rfl) hle hnow ⟨routed, hroute⟩
      ⟨dayStart, hday⟩ hnotify
  exact ⟨Processed.of h₁, r₂.account, approval, rfl, hbalance.trans hgain.symm, hprocess, hpaid⟩

end Propfirm
