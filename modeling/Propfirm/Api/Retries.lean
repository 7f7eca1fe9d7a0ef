import Propfirm.Api.Lemmas.Idempotency

/-!
# Retries on the idempotency store
-/

namespace Propfirm

variable {wire : WireFormat} {hashBody : String → String}

/-- The outcomes of the calls of one identity when nothing is forgotten, given the first of them if it
was made before. -/
def answersFrom : Option IdempotencyCall → List IdempotencyCall → List IdempotencyOutcome
  | _, [] => []
  | first, call :: calls =>
      first.elim .fresh (fun f => f.answer call) :: answersFrom (some (first.getD call)) calls

theorem answersFrom_some (f : IdempotencyCall) (calls : List IdempotencyCall) :
    answersFrom (some f) calls = calls.map f.answer := by
  induction calls with
  | nil => rfl
  | cons call calls ih => rw [answersFrom, Option.getD_some, ih]; rfl

/-- One call is fresh. The others are answered from it. -/
def answers : List IdempotencyCall → List IdempotencyOutcome
  | [] => []
  | first :: others => .fresh :: others.map first.answer

theorem answersFrom_none (calls : List IdempotencyCall) : answersFrom none calls = answers calls := by
  cases calls with
  | nil => rfl
  | cons call calls => rw [answersFrom, Option.getD_none, answersFrom_some]; rfl

theorem answers_count_fresh {calls : List IdempotencyCall} (h : calls ≠ []) :
    (answers calls).count .fresh = 1 := by
  cases calls with
  | nil => exact absurd rfl h
  | cons first others =>
      have hothers : IdempotencyOutcome.fresh ∉ others.map first.answer := by
        intro hmem
        obtain ⟨call, -, hcall⟩ := List.mem_map.mp hmem
        unfold IdempotencyCall.answer at hcall
        split at hcall <;> cases hcall
      rw [answers, List.count_cons_self, List.count_eq_zero_of_not_mem hothers]

/-- The composite key of an identity. -/
def identKey (wire : WireFormat) (id : TenantId × String × String) : String :=
  compositeKey wire (some id.1) id.2.1 id.2.2

def ofIdent (id : TenantId × String × String) (calls : List IdempotencyCall) : List IdempotencyCall :=
  calls.filter fun call => call.ident = id

theorem ckey_eq_iff (hwire : wire.ShowsUuids) {id : TenantId × String × String} {call : IdempotencyCall}
    (hid : '\x00' ∉ id.2.1.toList) (hcall : '\x00' ∉ call.endpoint.toList) :
    call.ckey wire = identKey wire id ↔ call.ident = id := by
  constructor
  · intro h
    obtain ⟨htenant, hendpoint, hkey⟩ := compositeKey_inj hwire hcall hid h
    exact Prod.ext htenant (Prod.ext hendpoint hkey)
  · rintro rfl
    rfl

namespace IdempotencyStore

/-- Every call of the run keeps the entry of the key. -/
def KeepsAll (wire : WireFormat) (hashBody : String → String) (ckey : String) :
    IdempotencyStore → List IdempotencyCall → Prop
  | _, [] => True
  | store, call :: calls =>
      store.Keeps wire call ckey ∧
        KeepsAll wire hashBody ckey (store.checkAndRemember wire hashBody call).2 calls

instance decidableKeepsAll (wire : WireFormat) (hashBody : String → String) (ckey : String) :
    (store : IdempotencyStore) → (calls : List IdempotencyCall) →
      Decidable (store.KeepsAll wire hashBody ckey calls)
  | _, [] => .isTrue trivial
  | store, call :: calls =>
      haveI := decidableKeepsAll wire hashBody ckey (store.checkAndRemember wire hashBody call).2 calls
      inferInstanceAs (Decidable (_ ∧ _))

/-- What the calls of an identity got. -/
def outcomesOf (id : TenantId × String × String) (outcomes : List (IdempotencyCall × IdempotencyOutcome)) :
    List IdempotencyOutcome :=
  (outcomes.filter fun o => o.1.ident = id).map Prod.snd

variable {store alone : IdempotencyStore} {calls : List IdempotencyCall} {first : Option IdempotencyCall}
  {id : TenantId × String × String}

theorem outcomesOf_eq (hwire : wire.ShowsUuids) (hhash : Function.Injective hashBody)
    (hid : '\x00' ∉ id.2.1.toList) (hcalls : ∀ call ∈ calls, '\x00' ∉ call.endpoint.toList)
    (hkeeps : store.KeepsAll wire hashBody (identKey wire id) calls)
    (hentry : store.inner.entries (identKey wire id) = first.map (IdempotencyCall.entry hashBody)) :
    outcomesOf id (store.outcomes wire hashBody calls) = answersFrom first (ofIdent id calls) := by
  induction calls generalizing store first with
  | nil => rfl
  | cons call calls ih =>
      obtain ⟨hcall, hcalls⟩ := List.forall_mem_cons.mp hcalls
      obtain ⟨hkeep, hkeeps⟩ := hkeeps
      have hkey := ckey_eq_iff hwire hid hcall
      by_cases h : call.ident = id
      · have hrest := ih hcalls hkeeps (hkeep.stored hhash (hkey.mpr h) hentry)
        rw [← hkey.mpr h] at hkeep hentry
        have hout := (hkeep.step hhash hentry).1
        simp only [outcomesOf, ofIdent, outcomes, h, decide_true, List.filter_cons_of_pos, List.map_cons,
          answersFrom, hout] at hrest ⊢
        rw [hrest]
      · have hrest := ih hcalls hkeeps ((hkeep.entries_of_ne fun heq => h (hkey.mp heq)).trans hentry)
        simpa [outcomesOf, ofIdent, outcomes, h] using hrest

/-! ## The calls of one identity alone -/

/-- The second store holds the same under the key, and nothing else. -/
structure Alone (ckey : String) (store alone : IdempotencyStore) : Prop where
  capacity_eq : alone.capacity = store.capacity
  ttl_eq : alone.ttl = store.ttl
  entries_eq : alone.inner.entries ckey = store.inner.entries ckey
  order_eq : ∀ k ∈ alone.inner.order, k = ckey

namespace Alone

variable {ckey : String} {call : IdempotencyCall}

theorem touched_eq (h : Alone ckey store alone) : (alone.pruned call).touched ckey = [ckey] := by
  have hnone : ((alone.pruned call).order.filter fun k => k ≠ ckey) = [] := by
    rw [List.filter_eq_nil_iff]
    intro k hk
    simp [h.order_eq k (List.mem_filter.mp hk).1]
  rw [Inner.touched, hnone, List.nil_append]

/-- Where the store keeps the entry, so does the one that holds nothing else. -/
theorem keeps (h : Alone ckey store alone) (hkey : call.ckey wire = ckey)
    (hkeep : store.Keeps wire call ckey) : alone.Keeps wire call ckey := by
  subst hkey
  have hexpired : ∀ e, alone.inner.entries (call.ckey wire) = some e →
      e.expired alone.ttl call.prunedAt = false := by
    rw [h.entries_eq, h.ttl_eq]
    exact hkeep.not_expired
  refine ⟨hexpired, fun hnone => ?_⟩
  have hentry : store.inner.entries (call.ckey wire) = none := by
    rw [← h.entries_eq]
    cases hsome : alone.inner.entries (call.ckey wire) with
    | none => rfl
    | some e => simp [pruned, Inner.prune, hsome, hexpired e hsome] at hnone
  have hcapacity : store.capacity ≠ 0 := by
    intro hzero
    apply hkeep.not_evicted (hkeep.pruned_entries.trans hentry)
    rw [overflow, hzero, Nat.sub_zero, List.take_length]
    exact List.mem_append_right _ (List.mem_singleton_self _)
  have hone : 1 - store.capacity = 0 := by omega
  rw [h.touched_eq, overflow, h.capacity_eq, List.length_singleton, hone]
  exact List.not_mem_nil

theorem other (h : Alone ckey store alone) (hkeep : store.Keeps wire call ckey)
    (hne : call.ckey wire ≠ ckey) :
    Alone ckey (store.checkAndRemember wire hashBody call).2 alone where
  capacity_eq := by rw [checkAndRemember_capacity, h.capacity_eq]
  ttl_eq := by rw [checkAndRemember_ttl, h.ttl_eq]
  entries_eq := by rw [hkeep.entries_of_ne hne, h.entries_eq]
  order_eq := h.order_eq

theorem order_step (h : Alone ckey store alone) (hkey : call.ckey wire = ckey) :
    ∀ k ∈ (alone.checkAndRemember wire hashBody call).2.inner.order, k = ckey := by
  subst hkey
  cases hentry : (alone.pruned call).entries (call.ckey wire) with
  | none =>
      rw [checkAndRemember_of_none hentry]
      change ∀ k ∈ ((alone.pruned call).insert _ _ _).order, _
      rw [Inner.insert, h.touched_eq, Inner.evict_order]
      exact fun k hk => List.mem_singleton.mp (List.mem_of_mem_drop hk)
  | some e =>
      rw [checkAndRemember_of_some hentry]
      exact fun k hk => h.order_eq k (List.mem_filter.mp hk).1

theorem same (h : Alone ckey store alone) (hkeep : store.Keeps wire call ckey)
    (hhash : Function.Injective hashBody) (hkey : call.ckey wire = ckey)
    (hentry : store.inner.entries ckey = first.map (IdempotencyCall.entry hashBody)) :
    Alone ckey (store.checkAndRemember wire hashBody call).2
      (alone.checkAndRemember wire hashBody call).2 where
  capacity_eq := by rw [checkAndRemember_capacity, checkAndRemember_capacity, h.capacity_eq]
  ttl_eq := by rw [checkAndRemember_ttl, checkAndRemember_ttl, h.ttl_eq]
  entries_eq := by
    have halone := h.keeps hkey hkeep
    have hentry' := h.entries_eq.trans hentry
    subst hkey
    rw [(halone.step hhash hentry').2, (hkeep.step hhash hentry).2]
  order_eq := h.order_step hkey

end Alone

theorem keepsAll_alone (hwire : wire.ShowsUuids) (hhash : Function.Injective hashBody)
    (hid : '\x00' ∉ id.2.1.toList) (hcalls : ∀ call ∈ calls, '\x00' ∉ call.endpoint.toList)
    (hkeeps : store.KeepsAll wire hashBody (identKey wire id) calls)
    (halone : Alone (identKey wire id) store alone)
    (hentry : store.inner.entries (identKey wire id) = first.map (IdempotencyCall.entry hashBody)) :
    alone.KeepsAll wire hashBody (identKey wire id) (ofIdent id calls) := by
  induction calls generalizing store alone first with
  | nil => trivial
  | cons call calls ih =>
      obtain ⟨hcall, hcalls⟩ := List.forall_mem_cons.mp hcalls
      obtain ⟨hkeep, hkeeps⟩ := hkeeps
      have hkey := ckey_eq_iff hwire hid hcall
      by_cases h : call.ident = id
      · rw [ofIdent, List.filter_cons_of_pos (by simpa using h)]
        refine ⟨halone.keeps (hkey.mpr h) hkeep, ih hcalls hkeeps ?_ (hkeep.stored hhash (hkey.mpr h) hentry)⟩
        exact halone.same hkeep hhash (hkey.mpr h) hentry
      · rw [ofIdent, List.filter_cons_of_neg (by simpa using h)]
        have hne : call.ckey wire ≠ identKey wire id := fun heq => h (hkey.mp heq)
        exact ih hcalls hkeeps (halone.other hkeep hne) ((hkeep.entries_of_ne hne).trans hentry)

end IdempotencyStore

open IdempotencyStore

/-- Among the calls of one tenant, endpoint and key, the first to take the lock is fresh, those with its
body replay its response and the others conflict. They get what they would get if no one else called. -/
theorem retries_collapse (hwire : wire.ShowsUuids) (hhash : Function.Injective hashBody)
    (capacity ttl : ℕ) (calls : List IdempotencyCall) (id : TenantId × String × String)
    (hid : '\x00' ∉ id.2.1.toList) (hcalls : ∀ call ∈ calls, '\x00' ∉ call.endpoint.toList)
    (hkeeps : (new capacity ttl).KeepsAll wire hashBody (identKey wire id) calls) :
    outcomesOf id ((new capacity ttl).outcomes wire hashBody calls) = answers (ofIdent id calls) ∧
      (ofIdent id calls ≠ [] →
        (outcomesOf id ((new capacity ttl).outcomes wire hashBody calls)).count .fresh = 1) ∧
      outcomesOf id ((new capacity ttl).outcomes wire hashBody calls) =
        outcomesOf id ((new capacity ttl).outcomes wire hashBody (ofIdent id calls)) := by
  have hentry : (new capacity ttl).inner.entries (identKey wire id) =
      (none : Option IdempotencyCall).map (IdempotencyCall.entry hashBody) := rfl
  have hall := (outcomesOf_eq hwire hhash hid hcalls hkeeps hentry).trans (answersFrom_none _)
  have halone : Alone (identKey wire id) (new capacity ttl) (new capacity ttl) :=
    ⟨rfl, rfl, rfl, by simp [new, Inner.empty]⟩
  have hmem : ∀ call ∈ ofIdent id calls, '\x00' ∉ call.endpoint.toList :=
    fun call hcall => hcalls call (List.mem_filter.mp hcall).1
  have hkeeps' := keepsAll_alone hwire hhash hid hcalls hkeeps halone hentry
  have hself := (outcomesOf_eq hwire hhash hid hmem hkeeps' hentry).trans (answersFrom_none _)
  refine ⟨hall, fun hne => by rw [hall, answers_count_fresh hne], ?_⟩
  rw [hall, hself, ofIdent, ofIdent, List.filter_filter]
  simp

/-- Identifiers in unary. -/
def unaryWire : WireFormat where
  parseUuid := fun s => .ok s.length
  showUuid := fun raw => String.ofList (List.replicate raw 'a')
  fromTimestampMillis := fun millis => some millis
  toUppercase := String.toUpper

theorem unaryWire_showsUuids : unaryWire.ShowsUuids where
  injective := by
    intro raw raw' h
    simpa [unaryWire] using congrArg String.length h
  no_nul := by
    intro raw h
    simp [unaryWire] at h

def retryOf (tenant : ℕ) (body response : String) (t : Instant) : IdempotencyCall :=
  ⟨⟨tenant⟩, "POST /internal/v1/evaluate", "k", body, response, t, t⟩

theorem retries_collapse_two_tenants :
    outcomesOf (⟨1⟩, "POST /internal/v1/evaluate", "k")
        ((new 2 10).outcomes unaryWire (fun body => body)
          [retryOf 1 "x" "r" 1, retryOf 2 "y" "s" 2, retryOf 1 "x" "r'" 3, retryOf 1 "y" "s" 4]) =
      [.fresh, .replay "r", .conflict] :=
  (retries_collapse unaryWire_showsUuids (fun _ _ h => h) 2 10
    [retryOf 1 "x" "r" 1, retryOf 2 "y" "s" 2, retryOf 1 "x" "r'" 3, retryOf 1 "y" "s" 4]
    (⟨1⟩, "POST /internal/v1/evaluate", "k") (by decide) (by decide) (by decide +kernel)).1

end Propfirm
