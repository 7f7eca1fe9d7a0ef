import Mathlib.Data.Set.Card
import Propfirm.Api.Wire
import Propfirm.Lib.Memo

/-!
# The idempotency store

A call holds the lock of the store from its first look at the entries to its last, so the calls of all
clients take effect one after another, in the order in which they take the lock.
-/

namespace Propfirm

/-- A reading of the monotonic clock, in nanoseconds. -/
abbrev Instant := ℕ

/-- Zero where the readings are the other way round. -/
def Instant.durationSince (now earlier : Instant) : ℕ := now - earlier

inductive IdempotencyOutcome where
  | fresh
  | replay (response : String)
  | conflict
  | error
deriving DecidableEq

namespace IdempotencyStore

structure Entry where
  bodyHash : String
  response : String
  insertedAt : Instant
deriving DecidableEq

def Entry.expired (ttl : ℕ) (now : Instant) (e : Entry) : Bool :=
  decide (ttl < now.durationSince e.insertedAt)

structure Inner where
  entries : Memo.Table String Entry
  order : List String

namespace Inner

def empty : Inner := ⟨fun _ => none, []⟩

def prune (inner : Inner) (ttl : ℕ) (now : Instant) : Inner where
  entries := fun k => (inner.entries k).filter fun e => !e.expired ttl now
  order := inner.order.filter fun k => !(inner.entries k).any fun e => e.expired ttl now

def lookup (inner : Inner) (ckey bodyHash : String) : IdempotencyOutcome :=
  match inner.entries ckey with
  | some entry => if entry.bodyHash = bodyHash then .replay entry.response else .conflict
  | none => .fresh

/-- The order once the key is its latest. -/
def touched (inner : Inner) (ckey : String) : List String :=
  inner.order.filter (fun k => k ≠ ckey) ++ [ckey]

/-- Drops the oldest keys until the rest fits. -/
def evict (capacity : ℕ) (entries : Memo.Table String Entry) : List String → Inner
  | [] => ⟨entries, []⟩
  | k :: order =>
      if capacity < (k :: order).length then evict capacity (Function.update entries k none) order
      else ⟨entries, k :: order⟩

def insert (inner : Inner) (capacity : ℕ) (ckey : String) (entry : Entry) : Inner :=
  evict capacity (Function.update inner.entries ckey (some entry)) (inner.touched ckey)

/-- The number of entries. -/
noncomputable def size (inner : Inner) : ℕ := Set.ncard {k | (inner.entries k).isSome}

end Inner

end IdempotencyStore

structure IdempotencyStore where
  inner : IdempotencyStore.Inner
  capacity : ℕ
  ttl : ℕ

def compositeKey (wire : WireFormat) (tenant : Option TenantId) (endpoint key : String) : String :=
  match tenant with
  | some t => wire.showUuid t.raw ++ "\x00" ++ endpoint ++ "\x00" ++ key
  | none => endpoint ++ "\x00" ++ key

/-- The arguments of a call, and what it reads off the clock: once to prune, once to insert. -/
structure IdempotencyCall where
  tenantId : TenantId
  endpoint : String
  key : String
  requestBody : String
  response : String
  prunedAt : Instant
  insertedAt : Instant
deriving DecidableEq

namespace IdempotencyStore

def new (capacity ttl : ℕ) : IdempotencyStore := ⟨.empty, capacity, ttl⟩

/-- Prunes, and counts what is left. -/
noncomputable def len (store : IdempotencyStore) (now : Instant) : ℕ × IdempotencyStore :=
  let inner := store.inner.prune store.ttl now
  (inner.size, { store with inner })

section Calls

variable (wire : WireFormat) (hashBody : String → String)

def check (store : IdempotencyStore) (call : IdempotencyCall) : IdempotencyOutcome × IdempotencyStore :=
  let inner := store.inner.prune store.ttl call.prunedAt
  (inner.lookup (compositeKey wire (some call.tenantId) call.endpoint call.key) (hashBody call.requestBody),
    { store with inner })

def remember (store : IdempotencyStore) (call : IdempotencyCall) :
    IdempotencyOutcome × IdempotencyStore :=
  let ckey := compositeKey wire (some call.tenantId) call.endpoint call.key
  let entry := ⟨hashBody call.requestBody, call.response, call.insertedAt⟩
  (.fresh, { store with inner := store.inner.insert store.capacity ckey entry })

def checkAndRemember (store : IdempotencyStore) (call : IdempotencyCall) :
    IdempotencyOutcome × IdempotencyStore :=
  let ckey := compositeKey wire (some call.tenantId) call.endpoint call.key
  let bodyHash := hashBody call.requestBody
  let inner := store.inner.prune store.ttl call.prunedAt
  match inner.entries ckey with
  | some entry =>
      (if entry.bodyHash = bodyHash then .replay entry.response else .conflict, { store with inner })
  | none =>
      let entry := ⟨bodyHash, call.response, call.insertedAt⟩
      (.fresh, { store with inner := inner.insert store.capacity ckey entry })

/-- The calls with their outcomes, in the order in which they take the lock. -/
def outcomes (store : IdempotencyStore) : List IdempotencyCall → List (IdempotencyCall × IdempotencyOutcome)
  | [] => []
  | call :: calls =>
      (call, (store.checkAndRemember wire hashBody call).1) ::
        outcomes (store.checkAndRemember wire hashBody call).2 calls

end Calls

end IdempotencyStore

end Propfirm
