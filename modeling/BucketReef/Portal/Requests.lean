import BucketReef.Effects.Identities
import BucketReef.Portal.Rows

/-!
# Portal requests

A Portal user creates a request, and an admin approves or rejects it; a request within what a
project delegates to its managers is executed at once. Every call runs in a session of its own,
which reads a row once and writes back, at its next commit, the columns it changed.
-/

namespace BucketReef
namespace PortalRequests

open Effects
open Portal (PortalAccountRole)

inductive RequestStatus
  | pending | processing | approved | rejected | failed
  deriving DecidableEq, Repr

/-- `REQUEST_FINAL_STATUSES` -/
def RequestStatus.final : RequestStatus → Bool
  | .approved | .rejected | .failed => true
  | .pending | .processing => false

/-- The typed payload of a request. -/
inductive Payload
  | addition (targetName targetEmail : String) (portalRole : PortalAccountRole)
  | roleChange (targetUserId : ℕ) (currentPortalRole portalRole : PortalAccountRole)
  | removal (targetEmail : String)
  | quotaChange (targetQuotaValue : ℕ) (increase : Bool)
  | settingChange (setting : String)
  deriving DecidableEq, Repr

structure User where
  id : ℕ
  email : String
  deriving DecidableEq, Repr

structure PortalAdminRequest where
  accountId : ℕ
  requesterUserId : ℕ
  payload : Payload
  status : RequestStatus := .pending
  result : Option String := none
  errorMessage : Option String := none
  decidedBy : Option User := none
  /-- The rows of `PortalAdminRequestMessage`, with their authors. -/
  messages : List (ℕ × String) := []
  deriving DecidableEq, Repr

/-- What an account delegates to its Portal managers. -/
structure Account where
  id : ℕ
  portalCollaboratorAdditionDelegated : Bool
  portalCollaboratorRoleManagementDelegated : Bool
  deriving DecidableEq, Repr

def isDelegatedExecution (account : Account) : Payload → Bool
  | .roleChange .. => account.portalCollaboratorRoleManagementDelegated
  | .addition _ _ requestedRole =>
    account.portalCollaboratorAdditionDelegated &&
      match requestedRole with
      | .portalManager => account.portalCollaboratorRoleManagementDelegated
      | .portalUser => true
  | _ => false

/-! ## The rows and the sessions -/

structure World where
  requests : ℕ → Option PortalAdminRequest := fun _ => none
  nextRequestId : ℕ := 0
  /-- How often `_execute_request` was called for a request; not stored anywhere. -/
  executions : ℕ → ℕ := fun _ => 0
  /-- The session that moved a request to `processing` or began to execute it; not stored
  anywhere. -/
  executor : ℕ → Option ℕ := fun _ => none
  sessions : ℕ := 0

/-- The object of a row: what was loaded and what it is now. -/
structure Loaded where
  id : ℕ
  base : PortalAdminRequest
  current : PortalAdminRequest
  deriving DecidableEq, Repr

structure Session where
  me : ℕ
  /-- A row that was added and not committed yet. -/
  adding : Option PortalAdminRequest := none
  /-- The id of the row it inserted. -/
  inserted : ℕ := 0
  /-- The object of the request it works on; none when it is expired. -/
  object : Option Loaded := none

/-- The column after a flush: an unchanged attribute is not written. -/
def pick {α : Type} [DecidableEq α] (base current row : α) : α :=
  if current = base then row else current

/-- The row after the update of a flush. -/
def Loaded.flushed (object : Loaded) (row : PortalAdminRequest) : PortalAdminRequest :=
  { row with
    status := pick object.base.status object.current.status row.status
    result := pick object.base.result object.current.result row.result
    errorMessage := pick object.base.errorMessage object.current.errorMessage row.errorMessage
    decidedBy := pick object.base.decidedBy object.current.decidedBy row.decidedBy
    messages := row.messages ++ object.current.messages.drop object.base.messages.length }

/-- The object has a new status to write. -/
def Loaded.moves (object : Loaded) : Bool := object.current.status ≠ object.base.status

namespace World

/-- The update of an object, on a flush. -/
def update (w : World) (me : ℕ) (object : Loaded) : World :=
  { w with
    requests := Function.update w.requests object.id ((w.requests object.id).map object.flushed)
    executor :=
      if object.moves = true ∧ object.current.status = .processing then
        Function.update w.executor object.id (some me)
      else w.executor }

def insert (w : World) (row : PortalAdminRequest) : World :=
  { w with
    requests := Function.update w.requests w.nextRequestId (some row)
    nextRequestId := w.nextRequestId + 1 }

/-- The rows after a commit of the session. -/
def committed (w : World) (s : Session) : World :=
  let w := s.object.elim w (w.update s.me)
  s.adding.elim w w.insert

/-- `_execute_request` is called for a request. -/
def executing (w : World) (me id : ℕ) : World :=
  { w with
    executions := Function.update w.executions id (w.executions id + 1)
    executor := Function.update w.executor id (some me) }

end World

namespace Session

/-- The session after a commit. -/
def committed (s : Session) (w : World) : Session :=
  { s with
    adding := none
    inserted := if s.adding.isSome then w.nextRequestId else s.inserted
    object := none }

def rolledBack (s : Session) : Session := { s with adding := none, object := none }

/-- The object of a row, loaded now unless the session holds it already. -/
def loaded (s : Session) (id : ℕ) (row : PortalAdminRequest) : Loaded :=
  match s.object with
  | some object => if object.id = id then object else ⟨id, row, row⟩
  | none => ⟨id, row, row⟩

end Session

inductive Error
  | notFound | conflict (message : String) | execution (detail : String) | failure (message : String)
  deriving DecidableEq, Repr

inductive Fault
  | none | before | after
  deriving DecidableEq, Repr

structure Choice where
  fault : Fault := .none
  /-- What an execution returns. -/
  result : String := ""
  deriving DecidableEq, Repr

inductive Op
  /-- A read that may reject the call. -/
  | validate
  | add (row : PortalAdminRequest)
  | insertedId
  /-- The select of `_load_request`: an object the session holds already is not read again. -/
  | select (id : ℕ)
  | refresh (id : ℕ)
  | assign (id : ℕ) (f : PortalAdminRequest → PortalAdminRequest)
  | commit
  | rollback
  /-- Call `_execute_request`; the services it runs commit the session. -/
  | execute (id : ℕ)
  /-- Add the notifications of an event. -/
  | notify (event : String)
  /-- `AuditService.record_action`: it commits, and a failed commit is only logged. -/
  | recordAction (action : String)

def Reply : Op → Type
  | .insertedId => ℕ
  | .select _ => Option PortalAdminRequest
  | .execute _ => String
  | _ => Unit

abbrev Service (α : Type) : Type := Prog Op Reply Error α

def failed {α : Type} (w : World) (s : Session) : World × Session × Except Error α :=
  (w, s, .error (.failure "call failed"))

def exec : (op : Op) → Choice → World → Session → World × Session × Except Error (Reply op)
  | .validate, choice, w, s => if choice.fault = .none then (w, s, .ok ()) else failed w s
  | .add row, _, w, s => (w, { s with adding := some row }, .ok ())
  | .insertedId, _, w, s => (w, s, .ok s.inserted)
  | .select id, choice, w, s =>
    if choice.fault = .none then
      match w.requests id with
      | none => (w, s, .ok none)
      | some row => (w, { s with object := some (s.loaded id row) }, .ok (some (s.loaded id row).current))
    else failed w s
  | .refresh id, choice, w, s =>
    match choice.fault, w.requests id with
    | .none, some row => (w, { s with object := some ⟨id, row, row⟩ }, .ok ())
    | _, _ => failed w s
  | .assign id f, choice, w, s =>
    match choice.fault, w.requests id with
    | .none, some row =>
      let object := s.loaded id row
      (w, { s with object := some { object with current := f object.current } }, .ok ())
    | _, _ => failed w s
  | .commit, choice, w, s =>
    match choice.fault with
    | .none => (w.committed s, s.committed w, .ok ())
    | .before => failed w s
    | .after => failed (w.committed s) (s.committed w)
  | .rollback, _, w, s => (w, s.rolledBack, .ok ())
  | .execute id, choice, w, s =>
    match choice.fault with
    | .none => ((w.committed s).executing s.me id, s.committed w, .ok choice.result)
    | .before => failed (w.executing s.me id) s
    | .after => failed ((w.committed s).executing s.me id) (s.committed w)
  | .notify _, choice, w, s => if choice.fault = .none then (w, s, .ok ()) else failed w s
  | .recordAction _, choice, w, s =>
    if choice.fault = .before then (w, s.rolledBack, .ok ()) else (w.committed s, s.committed w, .ok ())

/-! ## PortalRequestsService -/

/-- `commit_or_rollback` -/
def commitOrRollback : Service Unit :=
  (Prog.perform Op.commit).tryCatch fun e => do
    Prog.perform Op.rollback
    Prog.raise e

def commitRequest (id : ℕ) : Service Unit := do
  commitOrRollback
  Prog.perform (Op.refresh id)

def loadRequest (id : ℕ) : Service PortalAdminRequest := do
  match ← Prog.perform (Op.select id) with
  | none => Prog.raise .notFound
  | some row => pure row

def ensurePending (row : PortalAdminRequest) : Service Unit :=
  match row.status with
  | .pending => pure ()
  | .processing => Prog.raise (.conflict "Request is already being processed")
  | .approved | .rejected | .failed => Prog.raise (.conflict "Request has already been decided")

/-- The words of a text, with one blank between them. -/
def cleanMessage (message : String) : String :=
  " ".intercalate ((message.splitToList Char.isWhitespace).filter (· ≠ ""))

/-- `_add_message`, on the row it is given. -/
def addMessage (actor : User) (message : Option String) (row : PortalAdminRequest) :
    PortalAdminRequest :=
  match message.map cleanMessage with
  | none | some "" => row
  | some message => { row with messages := row.messages ++ [(actor.id, message)] }

def finalizeFailedRequest (id : ℕ) (actor : User) (detail : String) : Service Unit := do
  let _ ← loadRequest id
  Prog.perform (Op.assign id fun row =>
    { row with status := .failed, errorMessage := some detail, decidedBy := some actor })
  commitOrRollback

def finalizeApprovedRequest (id : ℕ) (actor : User) (result : String) (message : Option String) :
    Service Unit := do
  let _ ← loadRequest id
  Prog.perform (Op.assign id fun row => addMessage actor message
    { row with
      status := .approved, result := some result, errorMessage := none, decidedBy := some actor })
  commitRequest id

/-- The text of an error that is kept with the request. -/
def Error.detail : Error → String
  | .notFound => "Request not found"
  | .conflict message | .execution message | .failure message => message

def raiseExecutionFailure (id : ℕ) (actor : User) (e : Error) (action : String)
    (notifyRequester : Bool) : Service Unit := do
  Prog.perform Op.rollback
  finalizeFailedRequest id actor e.detail
  Prog.when notifyRequester (do
    Prog.perform (Op.notify "failed")
    commitOrRollback)
  Prog.perform (Op.recordAction action)
  Prog.raise (.execution e.detail)

def executeDelegatedRequest (id : ℕ) (actor : User) : Service Unit := do
  match ← (Prog.perform (Op.execute id)).attempt with
  | .error e => raiseExecutionFailure id actor e "execute_delegated_portal_request" false
  | .ok result =>
    finalizeApprovedRequest id actor result none
    Prog.perform (Op.recordAction "execute_delegated_portal_request")

def createRequest (actor : User) (account : Account) (payload : Payload) : Service Unit := do
  Prog.perform Op.validate
  Prog.perform (Op.add { accountId := account.id, requesterUserId := actor.id, payload := payload })
  commitOrRollback
  let id ← Prog.perform Op.insertedId
  Prog.perform (Op.refresh id)
  Prog.perform (Op.recordAction "create_portal_request")
  if isDelegatedExecution account payload then
    executeDelegatedRequest id actor
  else (do
    Prog.perform (Op.notify "created")
    commitOrRollback)

def rejectRequest (id : ℕ) (actor : User) (message : Option String) : Service Unit := do
  let row ← loadRequest id
  ensurePending row
  Prog.perform (Op.assign id fun row => addMessage actor message
    { row with status := .rejected, decidedBy := some actor })
  commitRequest id
  Prog.perform (Op.notify "rejected")
  commitOrRollback
  Prog.perform (Op.recordAction "reject_portal_request")

def approveRequest (id : ℕ) (actor : User) (message : Option String) : Service Unit := do
  let row ← loadRequest id
  ensurePending row
  Prog.perform (Op.assign id fun row => { row with status := .processing })
  commitRequest id
  match ← (Prog.perform (Op.execute id)).attempt with
  | .error e => raiseExecutionFailure id actor e "approve_portal_request" true
  | .ok result => (do
    finalizeApprovedRequest id actor result message
    Prog.perform (Op.notify "approved")
    commitOrRollback
    Prog.perform (Op.recordAction "approve_portal_request"))

/-! ## The calls as threads -/

/-- A call of the API. -/
inductive Job
  | create (actor : User) (account : Account) (payload : Payload)
  | approve (id : ℕ) (actor : User) (message : Option String)
  | reject (id : ℕ) (actor : User) (message : Option String)
  deriving DecidableEq, Repr

def Job.service : Job → Service Unit
  | .create actor account payload => createRequest actor account payload
  | .approve id actor message => approveRequest id actor message
  | .reject id actor message => rejectRequest id actor message

/-- Every call gets a session of its own. -/
def system : System Op Reply Error World Session Choice Empty Job where
  exec := exec
  apply event _ := event.elim
  start job w := some ({ w with sessions := w.sessions + 1 }, { me := w.sessions }, job.service)

abbrev SystemState : Type := State Op Reply Error World Session
abbrev SystemLabel : Type := Label Choice Empty Job

end PortalRequests
end BucketReef
