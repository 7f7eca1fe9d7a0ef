import Propfirm.Api.Lemmas.Idempotency

/-!
# Operations on the idempotency store

An operation prunes the store, unless it is `remember`, and then inserts at most one entry.
-/

namespace Propfirm

inductive IdempotencyOp where
  | check (call : IdempotencyCall)
  | remember (call : IdempotencyCall)
  | checkAndRemember (call : IdempotencyCall)
  | len (now : Instant)
deriving DecidableEq

/-- What the operation reads off the clock to prune. -/
def IdempotencyOp.prunesAt : IdempotencyOp → Option Instant
  | .check call => some call.prunedAt
  | .remember _ => none
  | .checkAndRemember call => some call.prunedAt
  | .len now => some now

namespace IdempotencyOutcome

def isReplay : IdempotencyOutcome → Bool
  | replay _ => true
  | _ => false

end IdempotencyOutcome

namespace IdempotencyStore

section Runs

variable (wire : WireFormat) (hashBody : String → String)

def step (store : IdempotencyStore) : IdempotencyOp → IdempotencyStore
  | .check call => (store.check wire hashBody call).2
  | .remember call => (store.remember wire hashBody call).2
  | .checkAndRemember call => (store.checkAndRemember wire hashBody call).2
  | .len now => { store with inner := store.inner.prune store.ttl now }

def run (store : IdempotencyStore) (ops : List IdempotencyOp) : IdempotencyStore :=
  ops.foldl (step wire hashBody) store

/-- The store that the operations lead to from an empty one. -/
abbrev reached (capacity ttl : ℕ) (ops : List IdempotencyOp) : IdempotencyStore :=
  (new capacity ttl).run wire hashBody ops

/-- The entry that the operation inserts, with its key. -/
def inserted (store : IdempotencyStore) : IdempotencyOp → Option (String × Entry)
  | .remember call => some (call.ckey wire, call.entry hashBody)
  | .checkAndRemember call =>
      if (store.checkAndRemember wire hashBody call).1 = .fresh then
        some (call.ckey wire, call.entry hashBody)
      else none
  | _ => none

/-- The key of the entry that the operation returns. -/
def replayed (store : IdempotencyStore) : IdempotencyOp → Option String
  | .check call =>
      if (store.check wire hashBody call).1.isReplay then some (call.ckey wire) else none
  | .checkAndRemember call =>
      if (store.checkAndRemember wire hashBody call).1.isReplay then some (call.ckey wire) else none
  | _ => none

/-- The key of the entry that the operation inserts or returns. -/
def used (store : IdempotencyStore) (op : IdempotencyOp) : Option String :=
  ((store.inserted wire hashBody op).map Prod.fst).or (store.replayed wire hashBody op)

/-- What the operations insert, in their order. -/
def insertions (store : IdempotencyStore) : List IdempotencyOp → List (String × Entry)
  | [] => []
  | op :: ops =>
      (store.inserted wire hashBody op).toList ++ insertions (store.step wire hashBody op) ops

def uses (store : IdempotencyStore) : List IdempotencyOp → List String
  | [] => []
  | op :: ops => (store.used wire hashBody op).toList ++ uses (store.step wire hashBody op) ops

end Runs

variable {wire : WireFormat} {hashBody : String → String} {store : IdempotencyStore} {op : IdempotencyOp}
  {ops : List IdempotencyOp} {ckey : String} {e : Entry}

theorem len_store (store : IdempotencyStore) (now : Instant) :
    (store.len now).2 = store.step wire hashBody (.len now) :=
  rfl

/-! ## One operation -/

/-- The entries when the operation has pruned. -/
def settled (store : IdempotencyStore) (op : IdempotencyOp) : Inner :=
  op.prunesAt.elim store.inner (store.inner.prune store.ttl)

theorem step_of_inserted (h : store.inserted wire hashBody op = some (ckey, e)) :
    store.step wire hashBody op =
      { store with inner := (store.settled op).insert store.capacity ckey e } := by
  cases op with
  | check call => cases h
  | remember call =>
      obtain ⟨rfl, rfl⟩ := Prod.mk.inj (Option.some.inj h)
      rfl
  | checkAndRemember call =>
      simp only [inserted] at h
      split at h
      · rename_i hfresh
        obtain ⟨rfl, rfl⟩ := Prod.mk.inj (Option.some.inj h)
        cases hentry : (store.pruned call).entries (call.ckey wire) with
        | none => exact congrArg Prod.snd (checkAndRemember_of_none hentry)
        | some e =>
            rw [checkAndRemember_of_some hentry] at hfresh
            dsimp only at hfresh
            split at hfresh <;> cases hfresh
      · cases h
  | len now => cases h

theorem step_of_not_inserted (h : store.inserted wire hashBody op = none) :
    store.step wire hashBody op = { store with inner := store.settled op } := by
  cases op with
  | check call => rfl
  | remember call => cases h
  | checkAndRemember call =>
      simp only [inserted] at h
      split at h
      · cases h
      · rename_i hfresh
        cases hentry : (store.pruned call).entries (call.ckey wire) with
        | none =>
            rw [checkAndRemember_of_none hentry] at hfresh
            exact absurd rfl hfresh
        | some e => exact congrArg Prod.snd (checkAndRemember_of_some hentry)
  | len now => rfl

/-- The store once the operation has pruned, with what it inserts. -/
theorem step_cases (wire : WireFormat) (hashBody : String → String) (store : IdempotencyStore)
    (op : IdempotencyOp) :
    (store.inserted wire hashBody op = none ∧
        store.step wire hashBody op = { store with inner := store.settled op }) ∨
      ∃ ckey e, store.inserted wire hashBody op = some (ckey, e) ∧
        store.step wire hashBody op =
          { store with inner := (store.settled op).insert store.capacity ckey e } := by
  cases h : store.inserted wire hashBody op with
  | none => exact .inl ⟨rfl, step_of_not_inserted h⟩
  | some p => exact .inr ⟨p.1, p.2, rfl, step_of_inserted h⟩

@[simp] theorem step_capacity (op : IdempotencyOp) :
    (store.step wire hashBody op).capacity = store.capacity := by
  rcases step_cases wire hashBody store op with ⟨-, h⟩ | ⟨_, _, -, h⟩ <;> rw [h]

@[simp] theorem step_ttl (op : IdempotencyOp) : (store.step wire hashBody op).ttl = store.ttl := by
  rcases step_cases wire hashBody store op with ⟨-, h⟩ | ⟨_, _, -, h⟩ <;> rw [h]

theorem run_append (store : IdempotencyStore) (ops ops' : List IdempotencyOp) :
    store.run wire hashBody (ops ++ ops') = (store.run wire hashBody ops).run wire hashBody ops' :=
  List.foldl_append

@[simp] theorem run_capacity : (store.run wire hashBody ops).capacity = store.capacity := by
  induction ops generalizing store with
  | nil => rfl
  | cons op ops ih => exact ih.trans (step_capacity op)

@[simp] theorem run_ttl : (store.run wire hashBody ops).ttl = store.ttl := by
  induction ops generalizing store with
  | nil => rfl
  | cons op ops ih => exact ih.trans (step_ttl op)

theorem reached_snoc (capacity ttl : ℕ) (ops : List IdempotencyOp) (op : IdempotencyOp) :
    reached wire hashBody capacity ttl (ops ++ [op]) =
      (reached wire hashBody capacity ttl ops).step wire hashBody op :=
  run_append _ _ _

theorem reached_split (capacity ttl : ℕ) (before after : List IdempotencyOp) (op : IdempotencyOp) :
    reached wire hashBody capacity ttl (before ++ op :: after) =
      (reached wire hashBody capacity ttl (before ++ [op])).run wire hashBody after := by
  rw [reached, List.append_cons, run_append]

theorem insertions_append (store : IdempotencyStore) (ops ops' : List IdempotencyOp) :
    store.insertions wire hashBody (ops ++ ops') =
      store.insertions wire hashBody ops ++ (store.run wire hashBody ops).insertions wire hashBody ops' := by
  induction ops generalizing store with
  | nil => rfl
  | cons op ops ih =>
      rw [List.cons_append, insertions, ih, insertions, List.append_assoc]
      rfl

theorem uses_append (store : IdempotencyStore) (ops ops' : List IdempotencyOp) :
    store.uses wire hashBody (ops ++ ops') =
      store.uses wire hashBody ops ++ (store.run wire hashBody ops).uses wire hashBody ops' := by
  induction ops generalizing store with
  | nil => rfl
  | cons op ops ih =>
      rw [List.cons_append, uses, ih, uses, List.append_assoc]
      rfl

/-- An insertion is a use. -/
theorem used_of_inserted (h : store.inserted wire hashBody op = some (ckey, e)) :
    store.used wire hashBody op = some ckey := by
  simp [used, h]

theorem insertions_subset_uses (store : IdempotencyStore) (ops : List IdempotencyOp) :
    (store.insertions wire hashBody ops).map Prod.fst ⊆ store.uses wire hashBody ops := by
  induction ops generalizing store with
  | nil => exact List.Subset.refl _
  | cons op ops ih =>
      rw [insertions, List.map_append, uses]
      refine List.append_subset.mpr ⟨?_, List.Subset.trans (ih _) (List.subset_append_right _ _)⟩
      cases h : store.inserted wire hashBody op with
      | none => exact List.nil_subset _
      | some p => simp [used_of_inserted h]

end IdempotencyStore

end Propfirm
