import Propfirm.Api.Operations
import Propfirm.Api.Retries
import Propfirm.Lib.Recency

/-!
# What the idempotency store keeps

The order of the keys is that of their latest insertion. A key that is only looked up stays where it is.
-/

namespace Propfirm.IdempotencyStore

open Recency

variable {wire : WireFormat} {hashBody : String → String} {store : IdempotencyStore} {op last : IdempotencyOp}
  {before after ops : List IdempotencyOp} {history : List String} {capacity ttl : ℕ} {inner : Inner}
  {ckey k k' : String} {e : Entry}

/-! ## The order and the entries -/

/-- The order lists the keys of the entries as the history has them, within the capacity. -/
structure Inner.Sound (capacity : ℕ) (history : List String) (inner : Inner) : Prop where
  ordered : Ordered history inner.order
  mem_order_iff : ∀ k, k ∈ inner.order ↔ (inner.entries k).isSome
  length_le : inner.order.length ≤ capacity

namespace Inner.Sound

theorem empty : Sound capacity [] Inner.empty where
  ordered := .nil
  mem_order_iff := by simp [Inner.empty]
  length_le := Nat.zero_le _

theorem prune (h : Sound capacity history inner) (ttl : ℕ) (now : Instant) :
    Sound capacity history (inner.prune ttl now) where
  ordered := h.ordered.sublist List.filter_sublist
  mem_order_iff := by
    intro k
    change k ∈ inner.order.filter _ ↔ ((inner.entries k).filter _).isSome
    rw [List.mem_filter, h.mem_order_iff]
    cases inner.entries k <;> simp [Option.filter]
  length_le := (List.length_filter_le _ _).trans h.length_le

theorem touched (h : Sound capacity history inner) : Ordered (history ++ [k]) (inner.touched k) :=
  h.ordered.enter

theorem mem_touched_iff (h : Sound capacity history inner) (k : String) (e : Entry) :
    k' ∈ inner.touched k ↔ (Function.update inner.entries k (some e) k').isSome := by
  rw [Inner.touched, List.mem_append, List.mem_filter, List.mem_singleton, h.mem_order_iff]
  by_cases hk : k' = k
  · subst hk
    simp
  · simp [hk]

theorem insert (h : Sound capacity history inner) (k : String) (e : Entry) :
    Sound capacity (history ++ [k]) (inner.insert capacity k e) where
  ordered := by
    rw [Inner.insert, evict_order]
    exact h.touched.sublist (List.drop_sublist _ _)
  mem_order_iff := by
    intro k'
    rw [Inner.insert, evict_order]
    by_cases hmem : k' ∈ overflow capacity (inner.touched k)
    · rw [evict_entries_of_mem _ _ _ hmem]
      refine iff_of_false (fun hdrop => ?_) (by simp)
      -- the list has no duplicates, so what is dropped from its front is not in the rest
      exact notMem_since (h.touched.mem_since_of_take hmem hdrop)
    · rw [evict_entries _ _ _ hmem, ← h.mem_touched_iff k e]
      conv_rhs => rw [← List.take_append_drop ((inner.touched k).length - capacity) (inner.touched k)]
      exact (or_iff_right hmem).symm.trans List.mem_append.symm
  length_le := by
    rw [Inner.insert, evict_order, List.length_drop]
    omega

theorem size_eq (h : Sound capacity history inner) : inner.size = inner.order.length := by
  have hmem : ∀ k, k ∈ inner.order.toFinset ↔ (inner.entries k).isSome := fun k =>
    List.mem_toFinset.trans (h.mem_order_iff k)
  calc
    inner.size = Set.ncard (inner.order.toFinset : Set String) :=
      congrArg Set.ncard (Set.ext fun k => (hmem k).symm)
    _ = inner.order.toFinset.card := Set.ncard_coe_finset _
    _ = inner.order.length := List.toFinset_card_of_nodup h.ordered.nodup

end Inner.Sound

/-! ## Runs -/

theorem settled_sound (h : store.inner.Sound store.capacity history) (op : IdempotencyOp) :
    (store.settled op).Sound store.capacity history := by
  unfold settled
  cases op.prunesAt with
  | none => exact h
  | some now => exact h.prune _ _

theorem step_sound (wire : WireFormat) (hashBody : String → String)
    (h : store.inner.Sound store.capacity history) (op : IdempotencyOp) :
    (store.step wire hashBody op).inner.Sound (store.step wire hashBody op).capacity
      (history ++ (store.insertions wire hashBody [op]).map Prod.fst) := by
  rcases step_cases wire hashBody store op with ⟨hnone, hstep⟩ | ⟨k, e, hsome, hstep⟩
  · simpa [insertions, hnone, hstep] using settled_sound h op
  · simpa [insertions, hsome, hstep] using (settled_sound h op).insert k e

theorem run_sound (wire : WireFormat) (hashBody : String → String)
    (h : store.inner.Sound store.capacity history) (ops : List IdempotencyOp) :
    (store.run wire hashBody ops).inner.Sound (store.run wire hashBody ops).capacity
      (history ++ (store.insertions wire hashBody ops).map Prod.fst) := by
  induction ops using List.reverseRecOn with
  | nil => simpa [insertions, run] using h
  | append_singleton ops op ih =>
      rw [run_append, insertions_append, List.map_append, ← List.append_assoc]
      exact step_sound wire hashBody ih op

theorem reached_sound (wire : WireFormat) (hashBody : String → String) (capacity ttl : ℕ)
    (ops : List IdempotencyOp) :
    (reached wire hashBody capacity ttl ops).inner.Sound (reached wire hashBody capacity ttl ops).capacity
      (((new capacity ttl).insertions wire hashBody ops).map Prod.fst) := by
  have hempty : (new capacity ttl).inner.Sound (new capacity ttl).capacity [] := .empty
  exact run_sound wire hashBody hempty ops

/-- The number of keys that `len` returns is the length of the order it leaves. -/
theorem reached_len (wire : WireFormat) (hashBody : String → String) (capacity ttl : ℕ)
    (ops : List IdempotencyOp) (now : Instant) :
    ((reached wire hashBody capacity ttl ops).len now).1 =
      (reached wire hashBody capacity ttl (ops ++ [.len now])).inner.order.length := by
  have hsize := (reached_sound wire hashBody capacity ttl (ops ++ [IdempotencyOp.len now])).size_eq
  rw [← hsize, reached_snoc, ← len_store]
  rfl

/-! ## The end of an entry -/

theorem settled_entries (op : IdempotencyOp) (hentry : store.inner.entries k = some e) :
    (store.settled op).entries k = some e ∨ ∃ t ∈ op.prunesAt, store.ttl < t.durationSince e.insertedAt := by
  unfold settled
  cases op.prunesAt with
  | none => exact .inl hentry
  | some t =>
      by_cases hexpired : store.ttl < t.durationSince e.insertedAt
      · exact .inr ⟨t, rfl, hexpired⟩
      · exact .inl (by simp [Inner.prune, hentry, Entry.expired, hexpired])

/-- The operation finds the entry of the key live and drops it. -/
def Evicts (wire : WireFormat) (hashBody : String → String) (store : IdempotencyStore) (op : IdempotencyOp)
    (ckey : String) : Prop :=
  (store.settled op).entries ckey ≠ none ∧ (store.step wire hashBody op).inner.entries ckey = none

/-- Only an insertion evicts, and only a key that does not fit. -/
theorem Evicts.overflow (h : store.Evicts wire hashBody op k) :
    ∃ k' e, store.inserted wire hashBody op = some (k', e) ∧
      k ∈ overflow store.capacity ((store.settled op).touched k') := by
  obtain ⟨hlive, hgone⟩ := h
  rcases step_cases wire hashBody store op with ⟨-, hstep⟩ | ⟨k', e, hsome, hstep⟩
  · rw [hstep] at hgone
    exact absurd hgone hlive
  · refine ⟨k', e, hsome, ?_⟩
    by_contra hfits
    rw [hstep] at hgone
    change ((store.settled op).insert _ _ _).entries k = none at hgone
    rw [Inner.insert, Inner.evict_entries _ _ _ hfits] at hgone
    by_cases hk : k = k'
    · subst hk
      rw [Function.update_self] at hgone
      cases hgone
    · rw [Function.update_of_ne hk] at hgone
      exact hlive hgone

/-- A live entry under another key than the inserted one stays as it is or is evicted. -/
theorem step_entries (hlive : (store.settled op).entries k = some e)
    (hother : ∀ e', store.inserted wire hashBody op ≠ some (k, e')) :
    (store.step wire hashBody op).inner.entries k = some e ∨ store.Evicts wire hashBody op k := by
  cases hgone : (store.step wire hashBody op).inner.entries k with
  | none => exact .inr ⟨by rw [hlive]; exact Option.some_ne_none e, hgone⟩
  | some e' =>
      refine .inl ?_
      rcases step_cases wire hashBody store op with ⟨-, hstep⟩ | ⟨k', e'', hsome, hstep⟩
      · rw [hstep] at hgone
        exact hgone.symm.trans hlive
      · have hne : k ≠ k' := by
          rintro rfl
          exact hother _ hsome
        rw [hstep] at hgone
        change ((store.settled op).insert _ _ _).entries k = _ at hgone
        by_cases hmem : k ∈ overflow store.capacity ((store.settled op).touched k')
        · rw [Inner.insert, Inner.evict_entries_of_mem _ _ _ hmem] at hgone
          cases hgone
        · rw [Inner.insert, Inner.evict_entries _ _ _ hmem, Function.update_of_ne hne] at hgone
          exact hgone.symm.trans hlive

/-- What is inserted is there, unless the store has room for nothing. -/
theorem step_entries_inserted (hsound : store.inner.Sound store.capacity history)
    (hop : store.inserted wire hashBody op = some (k, e)) :
    (store.step wire hashBody op).inner.entries k = some e ∨ store.capacity = 0 := by
  rw [step_of_inserted hop]
  change ((store.settled op).insert _ _ _).entries k = _ ∨ _
  by_cases hmem : k ∈ overflow store.capacity ((store.settled op).touched k)
  · have hle := ((settled_sound hsound op).touched (k := k)).le_length_since hmem
    rw [since_append_self] at hle
    exact .inr (Nat.le_zero.mp hle)
  · rw [Inner.insert, Inner.evict_entries _ _ _ hmem, Function.update_self]
    exact .inl rfl

/-- The keys inserted since the evicted one fill the store, and only those are left in it. -/
theorem Evicts.since_inserted (hsound : store.inner.Sound store.capacity history)
    (hevicts : store.Evicts wire hashBody op k) :
    store.capacity ≤ (since k (history ++ (store.insertions wire hashBody [op]).map Prod.fst)).length ∧
      ∀ k', (store.step wire hashBody op).inner.entries k' ≠ none →
        k' ∈ since k (history ++ (store.insertions wire hashBody [op]).map Prod.fst) := by
  obtain ⟨j, e, hop, hmem⟩ := hevicts.overflow
  have hkeys : (store.insertions wire hashBody [op]).map Prod.fst = [j] := by simp [insertions, hop]
  have hordered := (settled_sound hsound op).touched (k := j)
  rw [hkeys]
  refine ⟨hordered.le_length_since hmem, fun k' hlive => hordered.mem_since_of_take hmem ?_⟩
  have hmem' := ((step_sound wire hashBody hsound op).mem_order_iff k').mpr
    (Option.isSome_iff_ne_none.mpr hlive)
  rw [step_of_inserted hop] at hmem'
  change k' ∈ ((store.settled op).insert _ _ _).order at hmem'
  rwa [Inner.insert, Inner.evict_order] at hmem'

theorem run_insertion_sound (hsound : store.inner.Sound store.capacity history)
    (hop : store.inserted wire hashBody op = some (k, e)) (after : List IdempotencyOp) :
    ((store.step wire hashBody op).run wire hashBody after).inner.Sound
      ((store.step wire hashBody op).run wire hashBody after).capacity
      (history ++ k :: ((store.step wire hashBody op).insertions wire hashBody after).map Prod.fst) := by
  have hrun := run_sound wire hashBody hsound (op :: after)
  have hkeys : (store.insertions wire hashBody (op :: after)).map Prod.fst =
      k :: ((store.step wire hashBody op).insertions wire hashBody after).map Prod.fst := by
    simp [insertions, hop]
  rwa [hkeys] at hrun

/-- An entry stays until it expires or the store has been filled with others since. -/
theorem run_entries (hsound : store.inner.Sound store.capacity history)
    (hop : store.inserted wire hashBody op = some (k, e))
    (hafter : k ∉ ((store.step wire hashBody op).insertions wire hashBody after).map Prod.fst) :
    ((store.step wire hashBody op).run wire hashBody after).inner.entries k = some e ∨
      (∃ t ∈ after.filterMap IdempotencyOp.prunesAt, store.ttl < t.durationSince e.insertedAt) ∨
      store.capacity ≤ ((store.step wire hashBody op).insertions wire hashBody after).length := by
  induction after using List.reverseRecOn with
  | nil =>
      rcases step_entries_inserted hsound hop with hentry | hzero
      · exact .inl hentry
      · exact .inr (.inr (by rw [hzero]; exact Nat.zero_le _))
  | append_singleton after last ih =>
      rw [insertions_append, List.map_append, List.mem_append, not_or] at hafter
      rw [run_append, List.filterMap_append, insertions_append, List.length_append]
      have hsound' := run_insertion_sound hsound hop after
      -- the store that the last operation finds has the bounds of the first
      generalize hmid : (store.step wire hashBody op).run wire hashBody after = mid at hafter hsound' ih ⊢
      have hcapacity : mid.capacity = store.capacity := by rw [← hmid, run_capacity, step_capacity]
      have httl : mid.ttl = store.ttl := by rw [← hmid, run_ttl, step_ttl]
      rcases ih hafter.1 with hentry | ⟨t, ht, hexpired⟩ | hfilled
      · rcases settled_entries last hentry with hlive | ⟨t, ht, hexpired⟩
        · have hother : ∀ e', mid.inserted wire hashBody last ≠ some (k, e') := by
            intro e' hlast
            exact hafter.2 (by simp [insertions, hlast])
          refine (step_entries hlive hother).imp_right fun hevicts => .inr ?_
          have hle := (hevicts.since_inserted hsound').1
          rw [List.append_assoc, List.cons_append] at hle
          have hsuffix := hle.trans since_suffix.length_le
          rwa [hcapacity, List.length_append, List.length_map, List.length_map] at hsuffix
        · refine .inr (.inl ⟨t, List.mem_append_right _ ?_, httl ▸ hexpired⟩)
          simpa using ht
      · exact .inr (.inl ⟨t, List.mem_append_left _ ht, hexpired⟩)
      · exact .inr (.inr (hfilled.trans (Nat.le_add_right _ _)))

/-! ## The store from its start -/

/-- In every store that operations on an empty one lead to, the order lists each key of the entries once, and
there are at most as many as the capacity. An entry is there as it was last inserted, unless some operation
since found it expired, or as many insertions under other keys as the capacity followed. -/
theorem store_sound_and_bounded (capacity ttl : ℕ) (ops : List IdempotencyOp) :
    (reached wire hashBody capacity ttl ops).inner.order.Nodup ∧
      (∀ k, k ∈ (reached wire hashBody capacity ttl ops).inner.order ↔
        ((reached wire hashBody capacity ttl ops).inner.entries k).isSome) ∧
      (reached wire hashBody capacity ttl ops).inner.size ≤ capacity ∧
      ∀ before op after k e, ops = before ++ op :: after →
        (reached wire hashBody capacity ttl before).inserted wire hashBody op = some (k, e) →
        k ∉ ((reached wire hashBody capacity ttl (before ++ [op])).insertions wire hashBody after).map
          Prod.fst →
        (reached wire hashBody capacity ttl ops).inner.entries k = some e ∨
          (∃ t ∈ after.filterMap IdempotencyOp.prunesAt, ttl < t.durationSince e.insertedAt) ∨
          capacity ≤
            ((reached wire hashBody capacity ttl (before ++ [op])).insertions wire hashBody
              after).length := by
  have hsound := reached_sound wire hashBody capacity ttl ops
  have hcapacity : ∀ ops, (reached wire hashBody capacity ttl ops).capacity = capacity :=
    fun _ => run_capacity
  refine ⟨hsound.ordered.nodup, hsound.mem_order_iff, ?_, ?_⟩
  · exact (hsound.size_eq.trans_le hsound.length_le).trans_eq (hcapacity ops)
  · rintro before op after k e rfl hop hafter
    have httl : (reached wire hashBody capacity ttl before).ttl = ttl := run_ttl
    rw [reached_snoc] at hafter
    have hfate := run_entries (reached_sound wire hashBody capacity ttl before) hop hafter
    rwa [hcapacity, httl, ← reached_snoc, ← reached_split] at hfate

/-- An evicted entry that was not returned since it was inserted is the one used least recently: all that stay
have been used since. -/
theorem eviction_least_recently_used
    (hop : (reached wire hashBody capacity ttl before).inserted wire hashBody op = some (k, e))
    (hafter : k ∉ (reached wire hashBody capacity ttl (before ++ [op])).uses wire hashBody after)
    (hevicts : (reached wire hashBody capacity ttl (before ++ op :: after)).Evicts wire hashBody last k)
    (hstays :
      (reached wire hashBody capacity ttl (before ++ op :: after ++ [last])).inner.entries k' ≠ none) :
    k' ∈ since k ((new capacity ttl).uses wire hashBody (before ++ op :: after ++ [last])) := by
  have hsound := run_insertion_sound (reached_sound wire hashBody capacity ttl before) hop after
  rw [← reached_snoc, ← reached_split] at hsound
  rw [reached_snoc] at hstays
  have hsince := (hevicts.since_inserted hsound).2 k' hstays
  obtain ⟨j, e', hlast, -⟩ := hevicts.overflow
  have hkeys : ((reached wire hashBody capacity ttl (before ++ op :: after)).insertions wire hashBody
      [last]).map Prod.fst = [j] := by
    simp [insertions, hlast]
  have hne : k ≠ j := by
    rintro rfl
    rw [hkeys, since_append_self] at hsince
    exact absurd hsince List.not_mem_nil
  -- the last insertion of the key is its last use
  have huses : (new capacity ttl).uses wire hashBody (before ++ op :: after ++ [last]) =
      (new capacity ttl).uses wire hashBody before ++
        k :: (reached wire hashBody capacity ttl (before ++ [op])).uses wire hashBody (after ++ [last]) := by
    rw [List.append_assoc, List.cons_append, uses_append, uses, used_of_inserted hop, reached_snoc]
    rfl
  have hlater : k ∉ (reached wire hashBody capacity ttl (before ++ [op])).uses wire hashBody
      (after ++ [last]) := by
    rw [uses_append, ← reached_split, uses, used_of_inserted hlast, List.mem_append, not_or]
    exact ⟨hafter, by simpa [uses] using hne⟩
  rw [huses, since_append_of_notMem hlater]
  apply insertions_subset_uses
  rw [insertions_append, ← reached_split, List.map_append]
  rw [List.append_assoc, List.cons_append] at hsince
  exact since_suffix.subset hsince

def callAt (key : String) (t : Instant) : IdempotencyCall :=
  ⟨⟨1⟩, "POST /internal/v1/evaluate", key, "x", "r", t, t⟩

theorem eviction_of_first_of_three :
    (reached unaryWire id 2 10 ([] ++ .remember (callAt "a" 1) :: [.remember (callAt "b" 2)])).Evicts
        unaryWire id (.remember (callAt "c" 3)) ((callAt "a" 1).ckey unaryWire) ∧
      (callAt "b" 2).ckey unaryWire ∈ since ((callAt "a" 1).ckey unaryWire)
        ((new 2 10).uses unaryWire id
          ([] ++ .remember (callAt "a" 1) :: [.remember (callAt "b" 2)] ++ [.remember (callAt "c" 3)])) := by
  have hevicts : (reached unaryWire id 2 10
      ([] ++ .remember (callAt "a" 1) :: [.remember (callAt "b" 2)])).Evicts unaryWire id
        (.remember (callAt "c" 3)) ((callAt "a" 1).ckey unaryWire) := by
    unfold Evicts
    decide +kernel
  exact ⟨hevicts, eviction_least_recently_used rfl (by decide +kernel) hevicts (by decide +kernel)⟩

/-- The entry of `a` was returned after that of `b` was inserted, and is evicted before it. -/
theorem replayed_entry_evicted :
    (new 2 10).uses unaryWire id
        [.remember (callAt "a" 1), .remember (callAt "b" 2), .check (callAt "a" 3)] =
        [(callAt "a" 1).ckey unaryWire, (callAt "b" 2).ckey unaryWire, (callAt "a" 1).ckey unaryWire] ∧
      (reached unaryWire id 2 10
        [.remember (callAt "a" 1), .remember (callAt "b" 2), .check (callAt "a" 3)]).inner.order =
        [(callAt "a" 1).ckey unaryWire, (callAt "b" 2).ckey unaryWire] ∧
      (reached unaryWire id 2 10
        [.remember (callAt "a" 1), .remember (callAt "b" 2), .check (callAt "a" 3)]).Evicts unaryWire id
          (.remember (callAt "c" 4)) ((callAt "a" 1).ckey unaryWire) ∧
      (reached unaryWire id 2 10
        [.remember (callAt "a" 1), .remember (callAt "b" 2), .check (callAt "a" 3),
          .remember (callAt "c" 4)]).inner.order =
        [(callAt "b" 2).ckey unaryWire, (callAt "c" 4).ckey unaryWire] ∧
      (callAt "b" 2).ckey unaryWire ∉ since ((callAt "a" 1).ckey unaryWire)
        ((new 2 10).uses unaryWire id
          [.remember (callAt "a" 1), .remember (callAt "b" 2), .check (callAt "a" 3),
            .remember (callAt "c" 4)]) := by
  unfold Evicts
  decide +kernel

end Propfirm.IdempotencyStore
