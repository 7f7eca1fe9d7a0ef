import Mathlib.Data.Rat.Encodable
import Propfirm.Api.Handler
import Propfirm.Api.Retries
import Propfirm.Api.Theorems
import Propfirm.Lib.Unary

/-!
# Retries of an evaluation

The endpoint evaluates a request before it asks the store for the response to an earlier one.
-/

namespace Propfirm

open Fallible

variable {wire : WireFormat} {json : JsonFormat} {digest : List FieldValue → String}
  {hash : List FieldValue → UInt64} {hashBody : String → String} {store : IdempotencyStore}
  {call : EvaluateCall} {tenantId : TenantId} {key body responseStr ckey : String}
  {response : InternalEvaluateResponse}

namespace IdempotencyStore

def after (wire : WireFormat) (hashBody : String → String) (store : IdempotencyStore)
    (calls : List IdempotencyCall) : IdempotencyStore :=
  calls.foldl (fun store call => (store.checkAndRemember wire hashBody call).2) store

/-- An entry stays through calls that keep it, whatever key they are under. -/
theorem Keeps.entries_of_some {call : IdempotencyCall} {e : Entry} (h : store.Keeps wire call ckey)
    (hentry : store.inner.entries ckey = some e) :
    (store.checkAndRemember wire hashBody call).2.inner.entries ckey = some e := by
  by_cases hkey : call.ckey wire = ckey
  · have hpruned := h.pruned_entries.trans hentry
    rw [checkAndRemember_of_some (hkey ▸ hpruned)]
    exact hpruned
  · rw [h.entries_of_ne hkey, hentry]

theorem KeepsAll.after_entries {calls : List IdempotencyCall} {e : Entry}
    (h : store.KeepsAll wire hashBody ckey calls) (hentry : store.inner.entries ckey = some e) :
    (store.after wire hashBody calls).inner.entries ckey = some e := by
  induction calls generalizing store with
  | nil => exact hentry
  | cons call calls ih => exact ih h.2 (h.1.entries_of_some hentry)

/-- Eviction takes entries away and changes none. -/
theorem Inner.evict_entries_eq (capacity : ℕ) (entries : Memo.Table String Entry) (order : List String)
    (h : (evict capacity entries order).entries ckey ≠ none) :
    (evict capacity entries order).entries ckey = entries ckey := by
  by_cases hmem : ckey ∈ overflow capacity order
  · exact absurd (evict_entries_of_mem _ _ _ hmem) h
  · exact evict_entries _ _ _ hmem

end IdempotencyStore

/-! ## Cached responses -/

def JsonFormat.RoundTrips (json : JsonFormat) : Prop :=
  ∀ response text, json.showResponse response = .ok text → json.parseResponse text = .ok response

/-- The entry holds the response to the body. -/
structure IdempotencyStore.Entry.Caches (json : JsonFormat) (hashBody : String → String) (body : String)
    (response : InternalEvaluateResponse) (e : IdempotencyStore.Entry) : Prop where
  bodyHash_eq : e.bodyHash = hashBody body
  response_eq : json.parseResponse e.response = .ok response

/-- The key under which the endpoint stores the responses to a tenant. -/
def evaluateKey (wire : WireFormat) (tenantId : TenantId) (key : String) : String :=
  compositeKey wire (some tenantId) "POST /internal/v1/evaluate" key

/-- What the endpoint asks the store, if it gets that far. -/
def EvaluateCall.stored (wire : WireFormat) (json : JsonFormat) (digest : List FieldValue → String)
    (hash : List FieldValue → UInt64) (call : EvaluateCall) : Option IdempotencyCall :=
  match extractTenantId wire call.headers, call.headers.idempotencyKey with
  | .ok tenantId, some key =>
      match call.prepare wire json digest hash tenantId with
      | .ok (body, _, responseStr) => some (call.toStore tenantId key body responseStr)
      | .error _ => none
  | _, _ => none

theorem evaluateHandler_snd :
    (evaluateHandler wire json digest hash hashBody store call).2 =
      store.after wire hashBody (call.stored wire json digest hash).toList := by
  unfold evaluateHandler EvaluateCall.stored
  cases extractTenantId wire call.headers with
  | error f => rfl
  | ok tenantId =>
      cases call.headers.idempotencyKey with
      | none => rfl
      | some key =>
          dsimp only
          cases call.prepare wire json digest hash tenantId with
          | error f => rfl
          | ok prepared => rfl

def serve (wire : WireFormat) (json : JsonFormat) (digest : List FieldValue → String)
    (hash : List FieldValue → UInt64) (hashBody : String → String) (store : IdempotencyStore)
    (calls : List EvaluateCall) : IdempotencyStore :=
  calls.foldl (fun store call => (evaluateHandler wire json digest hash hashBody store call).2) store

theorem serve_eq (calls : List EvaluateCall) :
    serve wire json digest hash hashBody store calls =
      store.after wire hashBody (calls.filterMap (EvaluateCall.stored wire json digest hash)) := by
  induction calls generalizing store with
  | nil => rfl
  | cons call calls ih =>
      change serve wire json digest hash hashBody
        (evaluateHandler wire json digest hash hashBody store call).2 calls = _
      rw [ih, evaluateHandler_snd]
      cases h : call.stored wire json digest hash with
      | none => rw [List.filterMap_cons_none h]; rfl
      | some c => rw [List.filterMap_cons_some h]; rfl

theorem prepare_eq_ok :
    call.prepare wire json digest hash tenantId = .ok (body, response, responseStr) ↔
      json.showRequest call.req = .ok body ∧
        evaluateInternal wire digest hash call.cache call.draws tenantId call.req = .ok response ∧
        json.showResponse response = .ok responseStr := by
  unfold EvaluateCall.prepare
  cases json.showRequest call.req with
  | error e => simp [ApiOutcome.ofText, ApiOutcome.badRequest, bind, Except.bind]
  | ok b =>
      cases evaluateInternal wire digest hash call.cache call.draws tenantId call.req with
      | error f => simp [ApiOutcome.ofText, bind, Except.bind]
      | ok r =>
          cases h : json.showResponse r with
          | error e =>
              simp only [ApiOutcome.ofText, bind, Except.bind, internalError, h]
              constructor
              · intro h'; cases h'
              · rintro ⟨-, hr, hs⟩
                rw [← Except.ok.inj hr, h] at hs
                cases hs
          | ok s =>
              simp only [ApiOutcome.ofText, bind, Except.bind, internalError, h, pure, Except.pure,
                Except.ok.injEq, Prod.mk.injEq]
              constructor
              · rintro ⟨rfl, rfl, rfl⟩; exact ⟨rfl, rfl, h⟩
              · rintro ⟨rfl, rfl, hs⟩
                rw [h] at hs
                exact ⟨rfl, rfl, Except.ok.inj hs⟩

theorem prepare_of_fault {f : ApiFault} (hbody : json.showRequest call.req = .ok body)
    (h : evaluateInternal wire digest hash call.cache call.draws tenantId call.req = .error f) :
    call.prepare wire json digest hash tenantId = .error f := by
  simp only [EvaluateCall.prepare, hbody, ApiOutcome.ofText, h, bind, Except.bind]

section Keyed

variable (htenant : extractTenantId wire call.headers = .ok tenantId)
  (hkey : call.headers.idempotencyKey = some key)

include htenant hkey

theorem evaluateHandler_of_prepared
    (h : call.prepare wire json digest hash tenantId = .ok (body, response, responseStr)) :
    evaluateHandler wire json digest hash hashBody store call =
      (replyTo json response
          (store.checkAndRemember wire hashBody (call.toStore tenantId key body responseStr)).1,
        (store.checkAndRemember wire hashBody (call.toStore tenantId key body responseStr)).2) := by
  simp only [evaluateHandler, htenant, hkey, h]

theorem evaluateHandler_of_fault {f : ApiFault}
    (h : call.prepare wire json digest hash tenantId = .error f) :
    (evaluateHandler wire json digest hash hashBody store call).1 = .error (.fault f) := by
  simp only [evaluateHandler, htenant, hkey, h]

/-- A request that succeeds leaves its response in the store, unless it is evicted at once. -/
theorem evaluateHandler_caches (hround : json.RoundTrips) (hbody : json.showRequest call.req = .ok body)
    (h : (evaluateHandler wire json digest hash hashBody store call).1 = .ok response)
    (hheld : (evaluateHandler wire json digest hash hashBody store call).2.inner.entries
      (evaluateKey wire tenantId key) ≠ none) :
    ∃ e, (evaluateHandler wire json digest hash hashBody store call).2.inner.entries
        (evaluateKey wire tenantId key) = some e ∧ e.Caches json hashBody body response := by
  cases hprepared : call.prepare wire json digest hash tenantId with
  | error f =>
      rw [evaluateHandler_of_fault htenant hkey hprepared] at h
      cases h
  | ok prepared =>
      obtain ⟨body', fresh, responseStr⟩ := prepared
      obtain ⟨hbody', -, hshow⟩ := prepare_eq_ok.mp hprepared
      obtain rfl := Except.ok.inj (hbody'.symm.trans hbody)
      rw [evaluateHandler_of_prepared htenant hkey hprepared] at h hheld ⊢
      let c := call.toStore tenantId key body' responseStr
      change (store.checkAndRemember wire hashBody c).2.inner.entries (c.ckey wire) ≠ none at hheld
      change replyTo json fresh (store.checkAndRemember wire hashBody c).1 = .ok response at h
      change ∃ e, (store.checkAndRemember wire hashBody c).2.inner.entries (c.ckey wire) = some e ∧ _
      cases hentry : (store.pruned c).entries (c.ckey wire) with
      | none =>
          rw [IdempotencyStore.checkAndRemember_of_none hentry] at h hheld ⊢
          refine ⟨c.entry hashBody, ?_, rfl, ?_⟩
          · exact (IdempotencyStore.Inner.evict_entries_eq _ _ _ hheld).trans (Function.update_self ..)
          · rw [← Except.ok.inj h]
            exact hround fresh responseStr hshow
      | some e =>
          rw [IdempotencyStore.checkAndRemember_of_some hentry] at h ⊢
          refine ⟨e, hentry, ?_⟩
          by_cases hhash : e.bodyHash = hashBody c.requestBody
          · rw [if_pos hhash] at h
            refine ⟨hhash, ?_⟩
            cases hparse : json.parseResponse e.response with
            | error msg => simp [replyTo, internalError, hparse, Except.mapError] at h
            | ok r =>
                simp only [replyTo, internalError, hparse, Except.mapError] at h
                exact congrArg Except.ok (Except.ok.inj h)
          · rw [if_neg hhash] at h
            cases h

/-- The reply to a request whose evaluation succeeds, where the store holds a response. -/
theorem evaluateHandler_of_caches (hhash : Function.Injective hashBody) {first : String}
    {cached : InternalEvaluateResponse} {e : IdempotencyStore.Entry}
    (hentry : store.inner.entries (evaluateKey wire tenantId key) = some e)
    (hlive : e.expired store.ttl call.prunedAt = false) (he : e.Caches json hashBody first cached)
    (h : call.prepare wire json digest hash tenantId = .ok (body, response, responseStr)) :
    (evaluateHandler wire json digest hash hashBody store call).1 =
      if body = first then .ok cached
      else .error .keyReused := by
  let c := call.toStore tenantId key body responseStr
  have hpruned : (store.pruned c).entries (c.ckey wire) = some e := by
    change (store.inner.entries (evaluateKey wire tenantId key)).filter _ = _
    simp [hentry, c, EvaluateCall.toStore, hlive]
  rw [evaluateHandler_of_prepared htenant hkey h, IdempotencyStore.checkAndRemember_of_some hpruned,
    he.bodyHash_eq]
  by_cases hsame : body = first
  · subst hsame
    simp [c, EvaluateCall.toStore, replyTo, internalError, he.response_eq, Except.mapError]
  · have hne : hashBody first ≠ hashBody body := fun heq => hsame (hhash heq).symm
    simp [c, EvaluateCall.toStore, replyTo, hne, hsame]

end Keyed

/-- After a request that succeeded, and as long as its response is held, a later one under its key gets
that response or a conflict exactly if its own evaluation succeeds again. -/
theorem evaluate_retry_iff (hround : json.RoundTrips) (hhash : Function.Injective hashBody)
    (first later : EvaluateCall) (between : List EvaluateCall) {held : IdempotencyStore} {body' : String}
    (htenant : extractTenantId wire first.headers = .ok tenantId)
    (htenant' : extractTenantId wire later.headers = .ok tenantId)
    (hkey : first.headers.idempotencyKey = some key) (hkey' : later.headers.idempotencyKey = some key)
    (hbody : json.showRequest first.req = .ok body) (hbody' : json.showRequest later.req = .ok body')
    (hfirst : evaluateHandler wire json digest hash hashBody store first = (.ok response, held))
    (hheld : held.inner.entries (evaluateKey wire tenantId key) ≠ none)
    (hkept : held.KeepsAll wire hashBody (evaluateKey wire tenantId key)
      (between.filterMap (EvaluateCall.stored wire json digest hash)))
    (hlive : ∀ e,
      (serve wire json digest hash hashBody held between).inner.entries (evaluateKey wire tenantId key) =
          some e →
        e.expired (serve wire json digest hash hashBody held between).ttl later.prunedAt = false) :
    (evaluateHandler wire json digest hash hashBody (serve wire json digest hash hashBody held between)
        later).1 = (if body' = body then .ok response else .error .keyReused) ↔
      ∃ response' text,
        evaluateInternal wire digest hash later.cache later.draws tenantId later.req = .ok response' ∧
          json.showResponse response' = .ok text := by
  have hstored := evaluateHandler_caches htenant hkey hround hbody (congrArg Prod.fst hfirst)
    (by rw [hfirst]; exact hheld)
  rw [hfirst] at hstored
  obtain ⟨e, hentry, he⟩ := hstored
  have hentry' := hkept.after_entries hentry
  rw [← serve_eq] at hentry'
  constructor
  · intro h
    cases hprepared : later.prepare wire json digest hash tenantId with
    | error f =>
        rw [evaluateHandler_of_fault htenant' hkey' hprepared] at h
        split at h <;> cases h
    | ok prepared =>
        obtain ⟨-, hevaluated, hshown⟩ := prepare_eq_ok.mp hprepared
        exact ⟨_, _, hevaluated, hshown⟩
  · rintro ⟨response', text, hevaluated, hshown⟩
    exact evaluateHandler_of_caches htenant' hkey' hhash hentry' (hlive e hentry') he
      (prepare_eq_ok.mpr ⟨hbody', hevaluated, hshown⟩)

/-! ## A retry in time and one an hour later -/

/-- An account in its first hour, with the equity and the balance given. -/
def hourRequest (money : Money × Money) : InternalEvaluateRequest :=
  legacyRequest (firstDayAccount none) firstHourTick money.1 money.2

/-- The evaluation of such an account at a time. -/
def hourEvaluation (x : (Money × Money) × Timestamp) : ApiOutcome InternalEvaluateResponse :=
  evaluateInternal plainWire (fun _ => "") (fun _ => 0) .empty (.at x.2) ⟨1⟩ (hourRequest x.1)

/-- A text for every such request and for every response to one. -/
noncomputable def hourJson : JsonFormat where
  showRequest := showMember fun money => (.ok (hourRequest money) : ApiOutcome InternalEvaluateRequest)
  showResponse := showMember hourEvaluation
  parseResponse := parseMember hourEvaluation

theorem hourJson_roundTrips : hourJson.RoundTrips := by
  intro response text h
  unfold hourJson at h ⊢
  dsimp only at h ⊢
  exact parseMember_showMember h

def keyedCall (now : Timestamp) (instant : Instant) : EvaluateCall where
  headers := ⟨some "1", some "k"⟩
  req := hourRequest (10100, 10000)
  draws := .at now
  cache := .empty
  prunedAt := instant
  insertedAt := instant

def keyedStoreCall (body text : String) (instant : Instant) : IdempotencyCall :=
  ⟨⟨1⟩, "POST /internal/v1/evaluate", "k", body, text, instant, instant⟩

/-- The store once the first request was answered. -/
def keyedStore (body text : String) : IdempotencyStore :=
  ((IdempotencyStore.new 2 7200000000000).checkAndRemember plainWire (fun body => body)
    (keyedStoreCall body text 0)).2

theorem keyedStore_entries (body text : String) :
    (keyedStore body text).inner.entries (evaluateKey plainWire ⟨1⟩ "k") = some ⟨body, text, 0⟩ := by
  rw [keyedStore, IdempotencyStore.checkAndRemember_of_none rfl]
  refine (IdempotencyStore.Inner.evict_entries _ _ _ ?_).trans (Function.update_self ..)
  exact List.not_mem_nil

theorem keyedStore_live (body text : String) (instant : Instant) (h : instant ≤ 7200000000000)
    (e : IdempotencyStore.Entry)
    (he : (keyedStore body text).inner.entries (evaluateKey plainWire ⟨1⟩ "k") = some e) :
    e.expired (keyedStore body text).ttl instant = false := by
  rw [keyedStore_entries] at he
  cases he
  have httl : (keyedStore body text).ttl = 7200000000000 := IdempotencyStore.checkAndRemember_ttl
  simp only [IdempotencyStore.Entry.expired, httl, Instant.durationSince, decide_eq_false_iff_not]
  exact not_lt.mpr ((Nat.sub_le _ _).trans h)

/-- The first request is answered by its evaluation, which is stored with it. -/
theorem keyedCall_first :
    ∃ response body text, hourEvaluation ((10100, 10000), Duration.hours 1) = .ok response ∧
      hourJson.showRequest (hourRequest (10100, 10000)) = .ok body ∧
      hourJson.showResponse response = .ok text ∧
      evaluateHandler plainWire hourJson (fun _ => "") (fun _ => 0) (fun body => body)
        (.new 2 7200000000000) (keyedCall (Duration.hours 1) 0) = (.ok response, keyedStore body text) := by
  have hanswered : (hourEvaluation ((10100, 10000), Duration.hours 1)).map (fun r => r.evaluated) = .ok true := by
    decide +kernel
  obtain ⟨response, h, -⟩ := map_eq_ok.mp hanswered
  obtain ⟨body, hbody⟩ : ∃ body, hourJson.showRequest (hourRequest (10100, 10000)) = .ok body :=
    exists_showMember rfl
  obtain ⟨text, htext⟩ : ∃ text, hourJson.showResponse response = .ok text := exists_showMember h
  refine ⟨response, body, text, h, hbody, htext, ?_⟩
  have hprepared : (keyedCall (Duration.hours 1) 0).prepare plainWire hourJson (fun _ => "") (fun _ => 0) ⟨1⟩ =
      .ok (body, response, text) := prepare_eq_ok.mpr ⟨hbody, h, htext⟩
  rw [evaluateHandler_of_prepared rfl rfl hprepared]
  exact congrArg₂ Prod.mk (by rw [IdempotencyStore.checkAndRemember_of_none rfl]; rfl) rfl

theorem evaluate_retry_in_time :
    ∃ response held,
      evaluateHandler plainWire hourJson (fun _ => "") (fun _ => 0) (fun body => body)
          (.new 2 7200000000000) (keyedCall (Duration.hours 1) 0) = (.ok response, held) ∧
        (evaluateHandler plainWire hourJson (fun _ => "") (fun _ => 0) (fun body => body) held
          (keyedCall (Duration.hours 1) 1)).1 = .ok response := by
  obtain ⟨response, body, text, h, hbody, htext, hfirst⟩ := keyedCall_first
  refine ⟨response, keyedStore body text, hfirst, ?_⟩
  have hretry := (evaluate_retry_iff hourJson_roundTrips (fun _ _ h => h)
    (keyedCall (Duration.hours 1) 0) (keyedCall (Duration.hours 1) 1) [] rfl rfl rfl rfl hbody hbody hfirst
    (by rw [keyedStore_entries]; exact Option.some_ne_none _) trivial
    (keyedStore_live body text 1 (by decide))).mpr ⟨response, text, h, htext⟩
  exact hretry.trans (if_pos rfl)

/-- An hour later, in half the time that the store keeps it, the response is not replayed: the request
is evaluated again and refused as stale. -/
theorem evaluate_retry_refused :
    ∃ response held,
      hourJson.RoundTrips ∧
        evaluateHandler plainWire hourJson (fun _ => "") (fun _ => 0) (fun body => body)
          (.new 2 7200000000000) (keyedCall (Duration.hours 1) 0) = (.ok response, held) ∧
        (∀ e, held.inner.entries (evaluateKey plainWire ⟨1⟩ "k") = some e →
          e.expired held.ttl 3600000000000 = false) ∧
        (evaluateHandler plainWire hourJson (fun _ => "") (fun _ => 0) (fun body => body) held
          (keyedCall (Duration.hours 2) 3600000000000)).1 =
            .error (.fault (.status .unprocessableEntity
              [.lit "tick rejected: server_time is ", .int 3600, .lit " seconds old (threshold: ", .int 600,
                .lit "s)"])) := by
  obtain ⟨response, body, text, -, hbody, -, hfirst⟩ := keyedCall_first
  have hstale : (hourEvaluation ((10100, 10000), Duration.hours 2)).map (fun r => r.evaluated) =
      .error (.status .unprocessableEntity
        [.lit "tick rejected: server_time is ", .int 3600, .lit " seconds old (threshold: ", .int 600,
          .lit "s)"]) := by
    decide +kernel
  refine ⟨response, keyedStore body text, hourJson_roundTrips, hfirst,
    keyedStore_live body text 3600000000000 (by decide), evaluateHandler_of_fault rfl rfl ?_⟩
  exact prepare_of_fault hbody (map_eq_error.mp hstale)

end Propfirm
