import Propfirm.Api.Idempotency

/-!
# One entry of the idempotency store
-/

namespace Propfirm

variable {wire : WireFormat} {hashBody : String → String}

/-! ## Keys -/

/-- Printed identifiers are distinct and free of the separator of composite keys. -/
structure WireFormat.ShowsUuids (wire : WireFormat) : Prop where
  injective : Function.Injective wire.showUuid
  no_nul : ∀ raw, '\x00' ∉ (wire.showUuid raw).toList

theorem append_separator_inj {α : Type} {sep : α} {xs xs' ys ys' : List α} (hxs : sep ∉ xs)
    (hxs' : sep ∉ xs') (h : xs ++ sep :: ys = xs' ++ sep :: ys') : xs = xs' ∧ ys = ys' := by
  induction xs generalizing xs' with
  | nil =>
      cases xs' with
      | nil => exact ⟨rfl, (List.cons.inj h).2⟩
      | cons x' xs' => exact absurd (List.cons.inj h).1 (List.ne_of_not_mem_cons hxs')
  | cons x xs ih =>
      cases xs' with
      | nil => exact absurd (List.cons.inj h).1.symm (List.ne_of_not_mem_cons hxs)
      | cons x' xs' =>
          simp only [List.cons_append, List.cons.injEq] at h
          obtain ⟨rfl, hys⟩ :=
            ih (List.not_mem_of_not_mem_cons hxs) (List.not_mem_of_not_mem_cons hxs') h.2
          exact ⟨by rw [h.1], hys⟩

/-- Only the key may hold the separator. -/
theorem compositeKey_inj (hwire : wire.ShowsUuids) {t t' : TenantId} {endpoint endpoint' key key' : String}
    (hendpoint : '\x00' ∉ endpoint.toList) (hendpoint' : '\x00' ∉ endpoint'.toList)
    (h : compositeKey wire (some t) endpoint key = compositeKey wire (some t') endpoint' key') :
    t = t' ∧ endpoint = endpoint' ∧ key = key' := by
  have hlist := congrArg String.toList h
  simp only [compositeKey, String.toList_append, List.append_assoc] at hlist
  obtain ⟨htenant, hrest⟩ := append_separator_inj (hwire.no_nul _) (hwire.no_nul _) hlist
  obtain ⟨hend, hkey⟩ := append_separator_inj hendpoint hendpoint' hrest
  refine ⟨?_, String.toList_inj.mp hend, String.toList_inj.mp hkey⟩
  have hraw := hwire.injective (String.toList_inj.mp htenant)
  cases t
  cases t'
  exact congrArg TenantId.mk hraw

namespace IdempotencyCall

def ident (call : IdempotencyCall) : TenantId × String × String := (call.tenantId, call.endpoint, call.key)

def ckey (wire : WireFormat) (call : IdempotencyCall) : String :=
  compositeKey wire (some call.tenantId) call.endpoint call.key

def entry (hashBody : String → String) (call : IdempotencyCall) : IdempotencyStore.Entry :=
  ⟨hashBody call.requestBody, call.response, call.insertedAt⟩

/-- What a call gets after the first one of its identity. -/
def answer (first call : IdempotencyCall) : IdempotencyOutcome :=
  if first.requestBody = call.requestBody then .replay first.response else .conflict

end IdempotencyCall

namespace IdempotencyStore

variable {store : IdempotencyStore} {call : IdempotencyCall} {ckey : String}

/-! ## Eviction -/

/-- The keys that do not fit. -/
def overflow (capacity : ℕ) (order : List String) : List String := order.take (order.length - capacity)

/-- The oldest keys lose their entries and leave the order. -/
theorem Inner.evict_eq (capacity : ℕ) (entries : Memo.Table String Entry) (order : List String) :
    evict capacity entries order =
      ⟨fun k => if k ∈ overflow capacity order then none else entries k,
        order.drop (order.length - capacity)⟩ := by
  induction order generalizing entries with
  | nil => simp [evict, overflow]
  | cons k order ih =>
      unfold evict
      split
      · rename_i hlt
        have hlen : (k :: order).length - capacity = (order.length - capacity) + 1 := by
          simp only [List.length_cons] at hlt ⊢
          omega
        rw [ih, overflow, overflow, hlen, List.take_succ_cons, List.drop_succ_cons]
        congr 1
        funext k'
        by_cases hk : k' = k
        · simp [hk]
        · simp [hk]
      · rename_i hle
        rw [overflow, Nat.sub_eq_zero_of_le (not_lt.mp hle)]
        simp

theorem Inner.evict_entries (capacity : ℕ) (entries : Memo.Table String Entry) (order : List String)
    (h : ckey ∉ overflow capacity order) : (evict capacity entries order).entries ckey = entries ckey := by
  rw [evict_eq]
  exact if_neg h

theorem Inner.evict_entries_of_mem (capacity : ℕ) (entries : Memo.Table String Entry) (order : List String)
    (h : ckey ∈ overflow capacity order) : (evict capacity entries order).entries ckey = none := by
  rw [evict_eq]
  exact if_pos h

theorem Inner.evict_order (capacity : ℕ) (entries : Memo.Table String Entry) (order : List String) :
    (evict capacity entries order).order = order.drop (order.length - capacity) := by
  rw [evict_eq]

/-! ## A call -/

def pruned (store : IdempotencyStore) (call : IdempotencyCall) : Inner :=
  store.inner.prune store.ttl call.prunedAt

theorem checkAndRemember_of_some {e : Entry}
    (h : (store.pruned call).entries (call.ckey wire) = some e) :
    store.checkAndRemember wire hashBody call =
      (if e.bodyHash = hashBody call.requestBody then .replay e.response else .conflict,
        { store with inner := store.pruned call }) := by
  unfold pruned IdempotencyCall.ckey at h
  simp only [checkAndRemember, h]
  rfl

theorem checkAndRemember_of_none (h : (store.pruned call).entries (call.ckey wire) = none) :
    store.checkAndRemember wire hashBody call =
      (.fresh,
        { store with
          inner := (store.pruned call).insert store.capacity (call.ckey wire) (call.entry hashBody) }) := by
  unfold pruned IdempotencyCall.ckey at h
  simp only [checkAndRemember, h]
  rfl

/-- The call is the two steps that the trait makes it of by default. -/
theorem checkAndRemember_eq :
    store.checkAndRemember wire hashBody call =
      if (store.check wire hashBody call).1 = .fresh then
        (store.check wire hashBody call).2.remember wire hashBody call
      else store.check wire hashBody call := by
  have hcheck : store.check wire hashBody call =
      ((store.pruned call).lookup (call.ckey wire) (hashBody call.requestBody),
        { store with inner := store.pruned call }) := rfl
  rw [hcheck, Inner.lookup]
  cases h : (store.pruned call).entries (call.ckey wire) with
  | none => rw [checkAndRemember_of_none h, if_pos rfl]; rfl
  | some e =>
      rw [checkAndRemember_of_some h]
      dsimp only
      split <;> rfl

@[simp] theorem checkAndRemember_capacity :
    (store.checkAndRemember wire hashBody call).2.capacity = store.capacity := by
  cases h : (store.pruned call).entries (call.ckey wire) with
  | none => rw [checkAndRemember_of_none h]
  | some e => rw [checkAndRemember_of_some h]

@[simp] theorem checkAndRemember_ttl :
    (store.checkAndRemember wire hashBody call).2.ttl = store.ttl := by
  cases h : (store.pruned call).entries (call.ckey wire) with
  | none => rw [checkAndRemember_of_none h]
  | some e => rw [checkAndRemember_of_some h]

/-! ## A call that keeps an entry -/

/-- The call neither finds the entry of the key expired nor evicts it. -/
structure Keeps (wire : WireFormat) (store : IdempotencyStore) (call : IdempotencyCall) (ckey : String) :
    Prop where
  not_expired : ∀ e, store.inner.entries ckey = some e → e.expired store.ttl call.prunedAt = false
  not_evicted : (store.pruned call).entries (call.ckey wire) = none →
    ckey ∉ overflow store.capacity ((store.pruned call).touched (call.ckey wire))

instance : Decidable (store.Keeps wire call ckey) :=
  decidable_of_iff
    ((∀ e ∈ store.inner.entries ckey, e.expired store.ttl call.prunedAt = false) ∧
      ((store.pruned call).entries (call.ckey wire) = none →
        ckey ∉ overflow store.capacity ((store.pruned call).touched (call.ckey wire))))
    ⟨fun h => ⟨h.1, h.2⟩, fun h => ⟨h.1, h.2⟩⟩

namespace Keeps

theorem pruned_entries (h : store.Keeps wire call ckey) :
    (store.pruned call).entries ckey = store.inner.entries ckey := by
  cases hentry : store.inner.entries ckey with
  | none => simp [pruned, Inner.prune, hentry]
  | some e => simp [pruned, Inner.prune, hentry, h.not_expired e hentry]

/-- Calls under other keys leave the entry alone. -/
theorem entries_of_ne (h : store.Keeps wire call ckey) (hne : call.ckey wire ≠ ckey) :
    (store.checkAndRemember wire hashBody call).2.inner.entries ckey = store.inner.entries ckey := by
  cases hentry : (store.pruned call).entries (call.ckey wire) with
  | none =>
      rw [checkAndRemember_of_none hentry]
      change ((store.pruned call).insert _ _ _).entries ckey = _
      rw [Inner.insert, Inner.evict_entries _ _ _ (h.not_evicted hentry),
        Function.update_of_ne (Ne.symm hne), h.pruned_entries]
  | some e => rw [checkAndRemember_of_some hentry, h.pruned_entries]

variable {first : Option IdempotencyCall}

/-- The first call under a key is fresh and stored; the others are answered from it. -/
theorem step (h : store.Keeps wire call (call.ckey wire)) (hhash : Function.Injective hashBody)
    (hentry : store.inner.entries (call.ckey wire) = first.map (IdempotencyCall.entry hashBody)) :
    (store.checkAndRemember wire hashBody call).1 = first.elim .fresh (fun f => f.answer call) ∧
      (store.checkAndRemember wire hashBody call).2.inner.entries (call.ckey wire) =
        some ((first.getD call).entry hashBody) := by
  have hpruned := h.pruned_entries.trans hentry
  cases first with
  | none =>
      rw [checkAndRemember_of_none hpruned]
      refine ⟨rfl, ?_⟩
      change ((store.pruned call).insert _ _ _).entries _ = _
      rw [Inner.insert, Inner.evict_entries _ _ _ (h.not_evicted hpruned), Function.update_self]
      rfl
  | some f =>
      rw [checkAndRemember_of_some hpruned]
      refine ⟨?_, hpruned⟩
      simp only [IdempotencyCall.entry, hhash.eq_iff, Option.elim_some, IdempotencyCall.answer]

theorem stored (h : store.Keeps wire call ckey) (hhash : Function.Injective hashBody)
    (hkey : call.ckey wire = ckey)
    (hentry : store.inner.entries ckey = first.map (IdempotencyCall.entry hashBody)) :
    (store.checkAndRemember wire hashBody call).2.inner.entries ckey =
      (some (first.getD call)).map (IdempotencyCall.entry hashBody) := by
  subst hkey
  exact (h.step hhash hentry).2

end Keeps

end IdempotencyStore

end Propfirm
