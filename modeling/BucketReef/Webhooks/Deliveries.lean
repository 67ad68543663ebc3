import BucketReef.Effects.Transitions
import BucketReef.Lists.Sorted
import Mathlib

/-!
# Webhook deliveries

What one attempt makes of a delivery row, and any number of dispatchers that select due rows under a
lease and then read, post and write each of them in its own transaction. A write stores the columns whose
values differ from those that were read; it does not look at the row it finds.

Times are microseconds.
-/

namespace BucketReef
namespace Webhooks

open Lists Transitions

/-! ## Rows and settings -/

inductive Status
  | pending
  | retrying
  | delivered
  | failed
  deriving DecidableEq, Repr

/-- `delivery.status in {"pending", "retrying"}`. -/
def Status.isOpen : Status → Bool
  | .pending | .retrying => true
  | .delivered | .failed => false

/-- The columns of `WebhookDelivery` that the worker reads or writes. -/
structure WebhookDelivery where
  endpointId : ℕ
  isTest : Bool
  status : Status := .pending
  attemptCount : ℕ := 0
  nextAttemptAt : ℕ
  lastHttpStatus : Option ℕ := none
  lastError : Option String := none
  deliveredAt : Option ℕ := none
  updatedAt : ℕ
  deriving DecidableEq, Repr

/-- The columns of `WebhookEndpoint` that an attempt reads; `target` is the error of
`validate_webhook_target_url`. -/
structure WebhookEndpoint where
  enabled : Bool
  hasSigningSecret : Bool
  target : Except String Unit

structure WebhookRuntimeConfig where
  workers : ℕ
  maxAttempts : ℕ
  retryInitialSeconds : ℕ
  retryMaxSeconds : ℕ
  retentionDays : ℕ
  leaseSeconds : ℕ
  /-- `sanitized_error_log_detail`. -/
  sanitizedErrorLogDetail : String → String
  maxAttempts_pos : 0 < maxAttempts

/-- What the POST returns or raises; `retryAfter` is what `_retry_after_seconds` reads in the header. -/
inductive Reply
  | response (statusCode : ℕ) (retryAfter : Option ℕ)
  | exception (error : String)
  deriving DecidableEq, Repr

def seconds (n : ℕ) : ℕ := n * 1000000

/-! ## One attempt -/

section Attempt

variable (runtime : WebhookRuntimeConfig) (now : ℕ) (delivery : WebhookDelivery)

def safeError (value : String) : String :=
  String.ofList
    ((runtime.sanitizedErrorLogDetail (if value = "" then "Webhook delivery failed" else value)).toList.take
      2048)

def failTerminal (error : String) : WebhookDelivery :=
  { delivery with
    status := .failed
    lastError := some (safeError runtime error)
    updatedAt := now
    nextAttemptAt := now }

/-- The back-off after an attempt, in seconds. -/
def retryDelay (attempts : ℕ) (retryAfterSeconds : Option ℕ) : ℕ :=
  let delay := min (runtime.retryInitialSeconds * 2 ^ (attempts - 1)) runtime.retryMaxSeconds
  match retryAfterSeconds with
  | none => delay
  | some retryAfter => min (max delay retryAfter) runtime.retryMaxSeconds

def retryOrFail (error : String) (retryAfterSeconds : Option ℕ) : WebhookDelivery :=
  let attempts := delivery.attemptCount + 1
  let counted := { delivery with attemptCount := attempts }
  if runtime.maxAttempts ≤ attempts then failTerminal runtime now counted error
  else
    { counted with
      status := .retrying
      nextAttemptAt := now + seconds (retryDelay runtime attempts retryAfterSeconds)
      lastError := some (safeError runtime error)
      updatedAt := now }

def applyDeliveryResponse (statusCode : ℕ) (retryAfter : Option ℕ) : WebhookDelivery :=
  let delivery :=
    { delivery with lastHttpStatus := if statusCode = 0 then none else some statusCode }
  if 200 ≤ statusCode ∧ statusCode < 300 then
    { delivery with
      status := .delivered
      attemptCount := delivery.attemptCount + 1
      lastError := none
      deliveredAt := some now
      updatedAt := now }
  else if statusCode ∈ [408, 425, 429] ∨ statusCode = 503 ∨ 500 ≤ statusCode then
    retryOrFail runtime now delivery s!"HTTP {statusCode}" retryAfter
  else
    failTerminal runtime now { delivery with attemptCount := delivery.attemptCount + 1 }
      s!"HTTP {statusCode}"

def applyReply : Reply → WebhookDelivery
  | .response statusCode retryAfter => applyDeliveryResponse runtime now delivery statusCode retryAfter
  | .exception error => retryOrFail runtime now delivery error none

/-- Why `_deliver_one` gives up without a POST. -/
def refusal (endpoint : WebhookEndpoint) : Option String :=
  if (!endpoint.enabled && !delivery.isTest) || !endpoint.hasSigningSecret then
    some "Webhook endpoint is disabled or has no signing secret"
  else
    match endpoint.target with
    | .error error => some error
    | .ok _ => none

end Attempt

/-- The value a column has after the flush of `changed`, which was read as `loaded`. -/
def flushed {α : Type} [DecidableEq α] (column : WebhookDelivery → α)
    (loaded changed row : WebhookDelivery) : α :=
  if column changed = column loaded then column row else column changed

/-- The update of a flush: it sets the columns that changed since they were read. -/
def writeColumns (loaded changed row : WebhookDelivery) : WebhookDelivery where
  endpointId := row.endpointId
  isTest := row.isTest
  status := flushed WebhookDelivery.status loaded changed row
  attemptCount := flushed WebhookDelivery.attemptCount loaded changed row
  nextAttemptAt := flushed WebhookDelivery.nextAttemptAt loaded changed row
  lastHttpStatus := flushed WebhookDelivery.lastHttpStatus loaded changed row
  lastError := flushed WebhookDelivery.lastError loaded changed row
  deliveredAt := flushed WebhookDelivery.deliveredAt loaded changed row
  updatedAt := flushed WebhookDelivery.updatedAt loaded changed row

/-! ## Dispatchers -/

/-- A row under its id, with its last contents once it has been deleted. -/
structure Record where
  delivery : WebhookDelivery
  deleted : Bool := false
  deriving DecidableEq, Repr

/-- `_deliver_one` for one id. -/
inductive Job
  | absent
  | selected
  /-- The row was read and found deliverable; the POST is next. -/
  | ready (loaded : WebhookDelivery)
  | posting (loaded : WebhookDelivery)
  /-- The object was changed, by the outcome of an attempt or without one; the commit is next. -/
  | saving (loaded changed : WebhookDelivery) (attempt : Bool)
  deriving DecidableEq, Repr

inductive Dispatcher
  | idle
  | leased
  | dispatching (ids : List ℕ)
  deriving DecidableEq, Repr

/-- What happened to the deliveries. -/
inductive Event
  /-- A POST started. -/
  | post (id time : ℕ)
  /-- A commit left the row with this status and due time, counting an attempt or not. -/
  | save (id : ℕ) (status : Status) (attempt : Bool) (nextAttemptAt : ℕ)
  deriving DecidableEq, Repr

structure State where
  clock : ℕ
  /-- Delivery `id` is the record at that position. -/
  records : List Record
  /-- Owner and end of the dispatch lease. -/
  lease : Option (ℕ × ℕ)
  dispatcher : ℕ → Dispatcher
  job : ℕ → ℕ → Job
  log : List Event

def State.init (clock : ℕ) : State := ⟨clock, [], none, fun _ => .idle, fun _ _ => .absent, []⟩

inductive Label
  | tick (elapsed : ℕ)
  | queue (endpointId : ℕ) (isTest : Bool)
  | deleteEndpoint (endpointId : ℕ)
  | purge
  | acquire (dispatcher : ℕ)
  | release (dispatcher : ℕ)
  /-- `_dispatch_due` selects, with a clock read up to `lag` ago. -/
  | dispatch (dispatcher lag : ℕ)
  | load (dispatcher id : ℕ) (endpoint : Option WebhookEndpoint)
  | post (dispatcher id : ℕ)
  | reply (dispatcher id : ℕ) (reply : Reply)
  | commit (dispatcher id : ℕ) (succeeds : Bool)
  /-- Every job of the iteration has returned. -/
  | join (dispatcher : ℕ)
  | crash (dispatcher : ℕ)

namespace State

def setJob (s : State) (dispatcher id : ℕ) (job : Job) : State :=
  { s with
    job := Function.update s.job dispatcher (Function.update (s.job dispatcher) id job) }

def setDispatcher (s : State) (dispatcher : ℕ) (phase : Dispatcher) : State :=
  { s with dispatcher := Function.update s.dispatcher dispatcher phase }

/-- The row of an id that is in the table. -/
def row (s : State) (id : ℕ) : Option WebhookDelivery :=
  (s.records[id]?.filter fun record => !record.deleted).map Record.delivery

end State

def isDue (now : ℕ) (record : Record) : Bool :=
  !record.deleted && record.delivery.status.isOpen && record.delivery.nextAttemptAt ≤ now

/-- The ids `_dispatch_due` selects. -/
def dueIds (runtime : WebhookRuntimeConfig) (records : List Record) (now : ℕ) : List ℕ :=
  let due := (List.range records.length).filter fun id => records[id]?.any (isDue now)
  (sortedBy (fun id => (records[id]?.map fun record => record.delivery.nextAttemptAt).getD 0) due).take
    runtime.workers

/-- `_deliver_one` up to the POST: reads the row and its endpoint. -/
def loadJob (runtime : WebhookRuntimeConfig) (now : ℕ) (row : Option WebhookDelivery)
    (endpoint : Option WebhookEndpoint) : Job :=
  match row, endpoint with
  | some delivery, some endpoint =>
    if delivery.status.isOpen then
      match refusal delivery endpoint with
      | some error => .saving delivery (failTerminal runtime now delivery error) false
      | none => .ready delivery
    else .absent
  | _, _ => .absent

/-- The commit of a job. An update that finds no row raises and leaves nothing. -/
def commitJob (s : State) (dispatcher id : ℕ) (loaded changed : WebhookDelivery) (attempt : Bool) :
    State :=
  match s.row id with
  | none => s.setJob dispatcher id .absent
  | some row =>
    let written := writeColumns loaded changed row
    ({ s with
      records := s.records.set id ⟨written, false⟩
      log := s.log ++ [.save id written.status attempt written.nextAttemptAt] } : State).setJob
        dispatcher id .absent

def step (runtime : WebhookRuntimeConfig) (s : State) : Label → Option State
  | .tick elapsed => some { s with clock := s.clock + elapsed }
  | .queue endpointId isTest =>
    let delivery : WebhookDelivery :=
      { endpointId := endpointId, isTest := isTest, nextAttemptAt := s.clock, updatedAt := s.clock }
    some { s with records := s.records ++ [⟨delivery, false⟩] }
  | .deleteEndpoint endpointId =>
    some { s with
      records := s.records.map fun record =>
        if record.delivery.endpointId = endpointId then { record with deleted := true } else record }
  | .purge =>
    if runtime.retentionDays = 0 then some s
    else some { s with
      records := s.records.map fun record =>
        if !record.delivery.status.isOpen &&
            record.delivery.updatedAt + seconds (runtime.retentionDays * 86400) < s.clock then
          { record with deleted := true }
        else record }
  | .acquire dispatcher =>
    if s.dispatcher dispatcher = .idle ∧
        s.lease.all (fun lease => lease.2 ≤ s.clock || lease.1 = dispatcher) = true then
      let lease := (dispatcher, s.clock + seconds (max 15 runtime.leaseSeconds))
      some (({ s with lease := some lease } : State).setDispatcher dispatcher .leased)
    else none
  | .release dispatcher =>
    if s.dispatcher dispatcher = .idle then
      some { s with
        lease := s.lease.map fun lease => if lease.1 = dispatcher then (lease.1, s.clock) else lease }
    else none
  | .dispatch dispatcher lag =>
    if s.dispatcher dispatcher = .leased then
      let ids := dueIds runtime s.records (s.clock - lag)
      some { s.setDispatcher dispatcher (.dispatching ids) with
        job := Function.update s.job dispatcher fun id => if id ∈ ids then .selected else .absent }
    else none
  | .load dispatcher id endpoint =>
    match s.job dispatcher id with
    | .selected => some (s.setJob dispatcher id (loadJob runtime s.clock (s.row id) endpoint))
    | _ => none
  | .post dispatcher id =>
    match s.job dispatcher id with
    | .ready loaded =>
      some (({ s with log := s.log ++ [.post id s.clock] } : State).setJob dispatcher id
        (.posting loaded))
    | _ => none
  | .reply dispatcher id reply =>
    match s.job dispatcher id with
    | .posting loaded =>
      some (s.setJob dispatcher id (.saving loaded (applyReply runtime s.clock loaded reply) true))
    | _ => none
  | .commit dispatcher id succeeds =>
    match s.job dispatcher id with
    | .saving loaded changed attempt =>
      if succeeds then some (commitJob s dispatcher id loaded changed attempt)
      else some (s.setJob dispatcher id .absent)
    | _ => none
  | .join dispatcher =>
    match s.dispatcher dispatcher with
    | .dispatching ids =>
      if ids.all (fun id => s.job dispatcher id = .absent) = true then
        some (s.setDispatcher dispatcher .idle)
      else none
    | _ => none
  | .crash dispatcher =>
    some { s.setDispatcher dispatcher .idle with
      job := Function.update s.job dispatcher fun _ => .absent }

/-- The states of all runs on an empty table. -/
def Reachable (runtime : WebhookRuntimeConfig) (clock : ℕ) (s : State) : Prop :=
  Reached (step runtime) anyStep (State.init clock) s

end Webhooks
end BucketReef
