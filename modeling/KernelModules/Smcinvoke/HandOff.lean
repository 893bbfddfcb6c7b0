import Mathlib.Data.List.Basic
import KernelModules.Data.Run

namespace KernelModules.Smcinvoke

open Data List Function

/-! # The hand-off of callback requests

A step is a section under `g_smcinvoke_lock`, or one access to a transaction outside.  A transaction goes by its
call of `process_tzcb_req`.
-/

def objectErrorDefunct : Int := -90
def objectErrorAbort : Int := -91
def objectErrorUnavail : Int := -96
def objectErrorTimeout : Int := -103
def cbobjMaxRetries : Nat := 50

inductive CbTxnState where
  | placed
  | processing
  | processed
deriving DecidableEq

/-- What `marshal_out_tzcb_req` copies of a response: the contents of a buffer, or an object, which may come with a
file for the array of the invoke thread -/
inductive ResponsePart where
  | buffer (content : Nat)
  | object (handle : Nat) (filp : Option Nat)
deriving DecidableEq

def ResponsePart.filp : ResponsePart → Option Nat
  | .buffer _ => none
  | .object _ filp => filp

/-- `struct smcinvoke_accept` when it has a response -/
structure CbResponse where
  txnId : UInt64
  result : Int
  /-- `OBJECT_COUNTS_NUM_OO(counts)` -/
  numOO : Nat
  parts : List ResponsePart
deriving DecidableEq

/-- What a response leaves in `struct smcinvoke_tzcb_req` -/
structure CbReply where
  result : Int
  parts : List ResponsePart
deriving DecidableEq

def CbResponse.reply (response : CbResponse) : CbReply :=
  ⟨response.result, if response.result = 0 then response.parts else []⟩

def CbResponse.filps (response : CbResponse) : List Nat :=
  response.reply.parts.filterMap ResponsePart.filp

/-- `ret` in `process_tzcb_req`: 0, `-ERESTARTSYS`, or anything else -/
inductive WaitEnd where
  | timedOut
  | restartsys
  | other
deriving DecidableEq

/-- How far `process_tzcb_req` is -/
inductive TzcbStage where
  | idle
  | waiting (cbobjRetries : Nat) (waitInterrupted : Bool)
  /-- `wait_event` has not timed out. -/
  | woken (ret : WaitEnd) (cbobjRetries : Nat) (waitInterrupted : Bool)
  | counting (ret : WaitEnd) (cbobjRetries : Nat) (waitInterrupted : Bool)
  | finishing (ret : WaitEnd) (server : Bool)
  | returned (reply : CbReply)
deriving DecidableEq

def TzcbStage.active : TzcbStage → Bool
  | .idle | .returned _ => false
  | .waiting .. | .woken .. | .counting .. | .finishing .. => true

/-- A call of `process_tzcb_req` with its `struct smcinvoke_cb_txn`, and what has happened to it -/
structure TzcbCall where
  stage : TzcbStage
  txnId : UInt32
  state : CbTxnState
  cbReq : CbReply
  refCnt : Nat
  filps : List Nat
  /-- A file has been put there after the call has returned. -/
  late : Bool
  frees : Nat
  takes : Nat
  applied : List CbResponse
  /-- The responses that `marshal_out_tzcb_req` has taken over without an error -/
  told : List CbResponse

def TzcbCall.fresh : TzcbCall := ⟨.idle, 0, .placed, ⟨0, []⟩, 0, [], false, 0, 0, [], []⟩

inductive CbWork where
  | taken
  | marshalling
  /-- `marshal_in_tzcb_req` has failed. -/
  | refusing
  | refused
  | dropping
  | placing
  | found (response : CbResponse)
  | resulted (response : CbResponse)
  | copying (response : CbResponse) (copied : Nat)
  /-- `marshal_out_tzcb_req` has failed. -/
  | failed (response : CbResponse)
  | unavailing (response : CbResponse)
  | answered (leaves : Bool)
  | releasing (leaves : Bool)
deriving DecidableEq

inductive AcceptStage where
  | idle
  | entered (response : CbResponse)
  | waiting
  | working (call : Nat) (work : CbWork)
deriving DecidableEq

def CbWork.next : CbWork → AcceptStage
  | .releasing false => .waiting
  | _ => .idle

structure HandOff where
  defunct : Bool
  txnId : UInt32
  isServerSuspended : BitVec 8
  reqsTable : List Nat
  responsesTable : List Nat
  calls : Nat → TzcbCall
  accepts : Nat → AcceptStage

inductive HandOffAction where
  | place (call : Nat) (server : Bool)
  | wait (call : Nat) (ret : WaitEnd)
  | look (call : Nat)
  | count (call : Nat)
  | finish (call : Nat)
  | accept (thread pid : Nat) (response : Option CbResponse)
  | find (thread : Nat)
  | interrupt (thread pid : Nat) (freezing : Bool)
  | take (thread call : Nat)
  | work (thread : Nat) (fails : Bool)

def threadBit (pid : Nat) : BitVec 8 := 1#8 <<< (pid % 4)

namespace TzcbCall

/-- `kref_put` with `delete_cb_txn_locked` -/
def put (call : TzcbCall) : TzcbCall :=
  { call with refCnt := call.refCnt - 1, frees := if call.refCnt = 1 then call.frees + 1 else call.frees }

def setResult (call : TzcbCall) (result : Int) : TzcbCall :=
  { call with cbReq := { call.cbReq with result := result } }

def wait (call : TzcbCall) (defunct : Bool) (ret : WaitEnd) : Option TzcbCall :=
  match call.stage with
  | .waiting cbobjRetries waitInterrupted =>
    let met := call.state = .processed ∨ defunct = true
    match ret with
    | .other => if met then some { call with stage := .woken .other cbobjRetries waitInterrupted } else none
    | .timedOut => if met then none else some { call with stage := .counting .timedOut cbobjRetries waitInterrupted }
    | .restartsys =>
      if met ∨ waitInterrupted = true then none
      else some { call with stage := .woken .restartsys cbobjRetries waitInterrupted }
  | _ => none

def look (call : TzcbCall) (defunct : Bool) : Option TzcbCall :=
  match call.stage with
  | .woken ret cbobjRetries _ => some
      (if defunct = false ∧ call.state ≠ .processed then { call with stage := .counting ret cbobjRetries true }
      else { call with stage := .finishing ret true })
  | _ => none

def count (call : TzcbCall) (suspended : Bool) : Option TzcbCall :=
  match call.stage with
  | .counting ret cbobjRetries waitInterrupted =>
    let retries := if suspended then 0 else cbobjRetries + 1
    some (if retries < cbobjMaxRetries then { call with stage := .waiting retries waitInterrupted }
      else { call with stage := .finishing ret true })
  | _ => none

/-- The result that the last section of `process_tzcb_req` gives -/
def lastResult (call : TzcbCall) (defunct : Bool) (ret : WaitEnd) (server : Bool) : Int :=
  match ret with
  | .timedOut => objectErrorTimeout
  | .restartsys => objectErrorAbort
  | .other =>
    if call.state = .processed then call.cbReq.result
    else if server = false ∨ defunct = true then objectErrorDefunct else objectErrorAbort

def finish (call : TzcbCall) (result : Int) : TzcbCall :=
  { (call.setResult result).put with stage := .returned { call.cbReq with result := result } }

def copy (call : TzcbCall) (part : ResponsePart) : TzcbCall :=
  { call with
    cbReq := { call.cbReq with parts := call.cbReq.parts ++ [part] }
    filps := call.filps ++ part.filp.toList
    late := call.late || part.filp.isSome && !call.stage.active }

def serve (call : TzcbCall) (fails : Bool) : CbWork → TzcbCall × Option CbWork
  | .taken => ({ call with state := .processing }, some .marshalling)
  | .marshalling => (call, some (if fails then .refusing else .placing))
  | .refusing => (call.setResult objectErrorUnavail, some .refused)
  | .refused => ({ call with state := .processed }, some .dropping)
  | .dropping | .placing | .releasing _ => (call.put, none)
  | .found response => (call.setResult response.result, some (.resulted response))
  | .resulted response =>
    if call.cbReq.result ≠ 0 then ({ call with told := response :: call.told }, some (.answered false))
    else (call, some (.copying response 0))
  | .copying response copied =>
    if fails then (call, some (.failed response))
    else match response.parts[copied]? with
      | some part => (call.copy part, some (.copying response (copied + 1)))
      | none => ({ call with told := response :: call.told }, some (.answered false))
  | .failed response =>
    (call, some (if call.cbReq.result = 0 then .unavailing response else .answered (response.numOO ≠ 0)))
  | .unavailing response => (call.setResult objectErrorUnavail, some (.answered (response.numOO ≠ 0)))
  | .answered leaves => ({ call with state := .processed }, some (.releasing leaves))

end TzcbCall

namespace HandOff

def init (txnId : UInt32) (defunct : Bool) : HandOff :=
  ⟨defunct, txnId, 0#8, [], [], fun _ => .fresh, fun _ => .idle⟩

def setCall (handOff : HandOff) (call : Nat) (after : TzcbCall) : HandOff :=
  { handOff with calls := Function.update handOff.calls call after }

def setAccept (handOff : HandOff) (thread : Nat) (stage : AcceptStage) : HandOff :=
  { handOff with accepts := Function.update handOff.accepts thread stage }

/-- `hash_del` -/
def unlist (handOff : HandOff) (call : Nat) : HandOff :=
  { handOff with
    reqsTable := handOff.reqsTable.filter (· ≠ call)
    responsesTable := handOff.responsesTable.filter (· ≠ call) }

/-- The transaction that `find_cbtxn_locked` finds for an id -/
def answers (handOff : HandOff) (response : CbResponse) : Option Nat :=
  handOff.responsesTable.find? fun call => (handOff.calls call).txnId = response.txnId.toUInt32

def step (handOff : HandOff) : HandOffAction → Option HandOff
  | .place call server =>
    if (handOff.calls call).stage = .idle then if server = true ∧ handOff.defunct = false then some ({ handOff with
          txnId := handOff.txnId + 1
          reqsTable := call :: handOff.reqsTable }.setCall call
            { TzcbCall.fresh with stage := .waiting 0 false, txnId := handOff.txnId + 1, refCnt := 1 })
      else some (handOff.setCall call { TzcbCall.fresh with stage := .finishing .other server, refCnt := 1 })
    else none
  | .wait call ret => ((handOff.calls call).wait handOff.defunct ret).map (handOff.setCall call)
  | .look call => ((handOff.calls call).look handOff.defunct).map (handOff.setCall call)
  | .count call => ((handOff.calls call).count (handOff.isServerSuspended ≠ 0#8)).map (handOff.setCall call)
  | .finish call =>
    match (handOff.calls call).stage with
    | .finishing ret server => some ((handOff.unlist call).setCall call
        ((handOff.calls call).finish ((handOff.calls call).lastResult handOff.defunct ret server)))
    | _ => none
  | .accept thread pid response =>
    if handOff.accepts thread = .idle then some ({ handOff with
        defunct := false
        isServerSuspended := handOff.isServerSuspended &&& ~~~threadBit pid }.setAccept thread
          (response.elim .waiting .entered))
    else none
  | .find thread =>
    match handOff.accepts thread with
    | .entered response =>
      match handOff.answers response with
      | some call =>
        let found := handOff.calls call
        some (((handOff.unlist call).setCall call
          { found with refCnt := found.refCnt + 1, applied := response :: found.applied }).setAccept thread
            (.working call (.found response)))
      | none => some (handOff.setAccept thread .waiting)
    | _ => none
  | .interrupt thread pid freezing =>
    if handOff.accepts thread = .waiting then
      some ((if freezing then { handOff with isServerSuspended := handOff.isServerSuspended ||| threadBit pid }
        else { handOff with defunct := true }).setAccept thread .idle)
    else none
  | .take thread call =>
    if handOff.accepts thread = .waiting ∧ call ∈ handOff.reqsTable then let taken := handOff.calls call
      some (((handOff.unlist call).setCall call
        { taken with refCnt := taken.refCnt + 1, takes := taken.takes + 1 }).setAccept thread (.working call .taken))
    else none
  | .work thread fails =>
    match handOff.accepts thread with
    | .working call work =>
      let served := (handOff.calls call).serve fails work
      let handOff := handOff.setCall call served.1
      match served.2 with
      | some work => some (handOff.setAccept thread (.working call work))
      | none =>
        -- a transaction that waits for its response is listed, unless that was the last reference
        some ({ handOff with
          responsesTable := if work = CbWork.placing ∧ served.1.refCnt ≠ 0 then call :: handOff.responsesTable
            else handOff.responsesTable }.setAccept thread work.next)
    | _ => none

end HandOff

inductive TxnPlace where
  | unlisted
  | requested
  | awaited
  | hand (work : CbWork)

def TxnPlace.inHand : TxnPlace → Bool
  | .hand _ => true
  | .unlisted | .requested | .awaited => false

def TxnPlace.unlist : TxnPlace → TxnPlace
  | .hand work => .hand work
  | .unlisted | .requested | .awaited => .unlisted

namespace TzcbCall

/-- What the invoke thread has is the response in full, if that has been taken over, and else an error. -/
def Agreed (call : TzcbCall) (reply : CbReply) : Prop :=
  (∃ response, call.told = [response] ∧ reply = response.reply ∧ call.filps = response.filps) ∨
    call.told = [] ∧ reply.result ≠ 0

def Bare (call : TzcbCall) : Prop := call.applied = [] ∧ call.cbReq.parts = [] ∧ call.filps = []

def Answering (call : TzcbCall) (response : CbResponse) : Prop :=
  call.applied = [response] ∧ call.told = [] ∧ call.stage.active = true ∧ call.state ≠ .processed

def At (call : TzcbCall) : TxnPlace → Prop
  | .requested => call.Bare ∧ call.state ≠ .processed ∧ call.stage.active = true ∧ call.takes = 0
  | .awaited => call.Bare ∧ call.state ≠ .processed ∧ call.stage.active = true
  | .hand .taken | .hand .marshalling | .hand .placing | .hand .refusing => call.Bare ∧ call.state ≠ .processed
  | .hand .refused => call.Bare ∧ call.cbReq.result ≠ 0
  | .hand (.found response) => call.Answering response ∧ call.cbReq.parts = [] ∧ call.filps = []
  | .hand (.resulted response) => call.Answering response ∧ call.cbReq = ⟨response.result, []⟩ ∧ call.filps = []
  | .hand (.copying response copied) => call.Answering response ∧ response.result = 0 ∧
      call.cbReq = ⟨0, response.parts.take copied⟩ ∧
      call.filps = (response.parts.take copied).filterMap ResponsePart.filp
  | .hand (.failed response) => call.Answering response ∧ call.cbReq.result = 0
  | .hand (.unavailing response) => call.Answering response
  | .hand (.answered _) => call.applied ≠ [] ∧ call.state ≠ .processed ∧ call.stage.active = true ∧
      call.Agreed call.cbReq
  | .unlisted | .hand .dropping | .hand (.releasing _) => True

structure Kept (call : TzcbCall) (place : TxnPlace) : Prop where
  refs : call.refCnt = (if call.stage.active then 1 else 0) + if place.inHand then 1 else 0
  frees : call.frees = if call.stage = .idle ∨ 0 < call.refCnt then 0 else 1
  idle : call.stage = .idle → call = .fresh ∧ place = .unlisted
  takes : call.takes ≤ 1
  applied : call.applied.length ≤ 1 ∧ ∀ response ∈ call.applied, response.txnId.toNat = call.txnId.toNat
  told : call.told = [] ∨ call.told = call.applied
  late : call.late = false
  settled : call.told ≠ [] ∨ call.state = .processed → call.Agreed call.cbReq
  returned : ∀ reply, call.stage = .returned reply → call.Agreed reply
  work : call.At place

theorem Kept.fresh : Kept .fresh .unlisted where
  refs := rfl
  frees := rfl
  idle _ := ⟨rfl, rfl⟩
  takes := Nat.zero_le _
  applied := ⟨Nat.zero_le _, fun _ mem => absurd mem not_mem_nil⟩
  told := .inl rfl
  late := rfl
  settled some := some.elim (absurd rfl) CbTxnState.noConfusion
  returned _ is := TzcbStage.noConfusion is
  work := trivial

theorem Kept.stage {call : TzcbCall} {stage : TzcbStage} (kept : call.Kept place)
    (was : call.stage.active = true) (active : stage.active = true) : Kept { call with stage := stage } place := by
  have alive : stage ≠ .idle := fun is => by simp [is, TzcbStage.active] at active
  have begun : call.stage ≠ .idle := fun is => by simp [is, TzcbStage.active] at was
  obtain ⟨refs, frees, -, takes, applied, told, late, settled, -, work⟩ := kept
  refine ⟨?_, ?_, fun is => absurd is alive, takes, applied, told, late, settled, fun reply is => ?_, ?_⟩
  · simpa [was, active] using refs
  · simpa [alive, begun] using frees
  · simp [show stage = .returned reply from is, TzcbStage.active] at active
  · cases place with
    | hand cbWork => cases cbWork <;> simp_all [At, Answering, Bare, Agreed]
    | unlisted | requested | awaited => simp_all [At, Bare]

end TzcbCall

namespace TzcbCall

variable {call : TzcbCall} {place : TxnPlace} {response : CbResponse}

theorem Kept.started {stage : TzcbStage} {txnId : UInt32} (active : stage.active = true) (out : place.inHand = false)
    (at_ : At { TzcbCall.fresh with stage := stage, txnId := txnId, refCnt := 1 } place) :
    Kept { TzcbCall.fresh with stage := stage, txnId := txnId, refCnt := 1 } place where
  refs := by simp [active, out]
  frees := by simp [TzcbCall.fresh]
  idle is := by simp [show stage = .idle from is, TzcbStage.active] at active
  takes := Nat.zero_le _
  applied := ⟨Nat.zero_le _, fun _ mem => absurd mem not_mem_nil⟩
  told := .inl rfl
  late := rfl
  settled some := some.elim (absurd rfl) CbTxnState.noConfusion
  returned reply is := by simp [show stage = .returned reply from is, TzcbStage.active] at active
  work := at_

theorem Kept.take (kept : call.Kept .requested) :
    Kept { call with refCnt := call.refCnt + 1, takes := call.takes + 1 } (.hand .taken) := by
  obtain ⟨refs, frees, idle, -, applied, told, late, settled, ret, bare, unprocessed, active, none⟩ := kept
  have begun : call.stage ≠ .idle := fun is => TxnPlace.noConfusion (idle is).2
  refine ⟨?_, ?_, fun is => absurd is begun, ?_, applied, told, late, settled, ret, bare, unprocessed⟩
  · simp [refs, TxnPlace.inHand]
  · simp [frees, begun, refs, active]
  · simp [none]

theorem Kept.find (kept : call.Kept .awaited) (same : response.txnId.toNat = call.txnId.toNat) :
    Kept { call with refCnt := call.refCnt + 1, applied := response :: call.applied }
      (.hand (.found response)) := by
  obtain ⟨refs, frees, idle, takes, -, told, late, settled, ret, bare, unprocessed, active⟩ := kept
  obtain ⟨none, parts, filps⟩ := bare
  have begun : call.stage ≠ .idle := fun is => TxnPlace.noConfusion (idle is).2
  have untold : call.told = [] := told.elim id fun same => same.trans none
  refine ⟨?_, ?_, fun is => absurd is begun, takes, ?_, .inl untold, late, settled, ret, ?_, parts, filps⟩
  · simp [refs, TxnPlace.inHand]
  · simp [frees, begun, refs, active]
  · simp [none, same]
  · exact ⟨by simp [none], untold, active, unprocessed⟩

theorem lastResult_cases (call : TzcbCall) (defunct : Bool) (ret : WaitEnd) (server : Bool) :
    call.lastResult defunct ret server ≠ 0 ∨ ret = .other ∧ call.state = .processed ∧
      call.lastResult defunct ret server = call.cbReq.result := by
  cases ret with
  | timedOut => exact .inl (show objectErrorTimeout ≠ 0 by decide)
  | restartsys => exact .inl (show objectErrorAbort ≠ 0 by decide)
  | other =>
    by_cases processed : call.state = .processed
    · exact .inr ⟨rfl, processed, by simp [lastResult, processed]⟩
    · left
      simp only [lastResult, processed, if_false]
      split <;> decide

theorem Kept.finish (kept : call.Kept place) (finishing : call.stage = .finishing ret server)
    (fine : call.applied ≠ [] → call.state = .processed ∧ (call.told ≠ [] → ret = .other)) :
    (call.finish (call.lastResult defunct ret server)).Kept place.unlist := by
  obtain ⟨refs, frees, -, takes, applied, told, late, settled, -, work⟩ := kept
  have same : place.unlist.inHand = place.inHand := by cases place <;> rfl
  have agreed : Agreed (call.finish (call.lastResult defunct ret server))
      { call.cbReq with result := call.lastResult defunct ret server } := by
    by_cases none : call.told = []
    · refine .inr ⟨none, ?_⟩
      rcases call.lastResult_cases defunct ret server with error | ⟨-, processed, result⟩
      · exact error
      · rw [result]
        rcases settled (.inr processed) with ⟨response, one, -⟩ | ⟨-, error⟩
        · simp [none] at one
        · exact error
    · have some : call.applied ≠ [] := fun empty => none (told.elim id fun same => same.trans empty)
      obtain ⟨processed, met⟩ := fine some
      have result : call.lastResult defunct ret server = call.cbReq.result := by
        rw [met none, lastResult, if_pos processed]
      rw [result]
      exact settled (.inl none)
  refine ⟨?_, ?_, TzcbStage.noConfusion, takes, applied, told, late, fun _ => agreed, fun reply is => ?_,
    ?_⟩
  · simp [TzcbCall.finish, put, setResult, refs, finishing, same, TzcbStage.active]
  · cases hand : place.inHand <;>
      simp [TzcbCall.finish, put, setResult, frees, finishing, refs, hand, TzcbStage.active]
  · cases is
    exact agreed
  · cases place with
    | unlisted | requested | awaited => trivial
    | hand cbWork =>
      have gone : ∀ response, call.Answering response → False := fun response answering =>
        answering.2.2.2 (fine (by simp [answering.1])).1
      cases cbWork with
      | taken | marshalling | placing | refusing => exact work
      | refused =>
        refine ⟨work.1, ?_⟩
        rcases call.lastResult_cases defunct ret server with error | ⟨-, -, result⟩
        · exact error
        · rw [result]
          exact work.2
      | dropping | releasing => trivial
      | found response | resulted response | copying response | failed response => exact (gone response work.1).elim
      | unavailing response => exact (gone response work).elim
      | answered => exact absurd (fine work.1).1 work.2.1

end TzcbCall

namespace TzcbCall

variable {call after : TzcbCall} {work next : CbWork}

theorem Kept.begun (kept : call.Kept (.hand work)) : call.stage ≠ .idle := fun is =>
  TxnPlace.noConfusion (kept.idle is).2

theorem not_active (is : call.stage = .returned reply) : call.stage.active ≠ true := by
  rw [is]
  exact Bool.false_ne_true

theorem Kept.write {state : CbTxnState} {cbReq : CbReply} {filps : List Nat} {told : List CbResponse}
    (kept : call.Kept (.hand work)) (takenOver : told = [] ∨ told = call.applied)
    (settled : told ≠ [] ∨ state = .processed →
      Agreed { call with state := state, cbReq := cbReq, filps := filps, told := told } cbReq)
    (same : call.stage.active = true ∨ told = call.told ∧ filps = call.filps)
    (at_ : At { call with state := state, cbReq := cbReq, filps := filps, told := told } (.hand next)) :
    Kept { call with state := state, cbReq := cbReq, filps := filps, told := told } (.hand next) := by
  refine ⟨kept.refs, kept.frees, fun is => absurd is kept.begun, kept.takes, kept.applied, takenOver, kept.late,
    settled, fun reply is => ?_, at_⟩
  rcases same with active | ⟨rfl, rfl⟩
  · exact absurd active (not_active is)
  · exact kept.returned reply is

theorem Kept.move (kept : call.Kept (.hand work)) (at_ : call.At (.hand next)) : call.Kept (.hand next) :=
  kept.write kept.told kept.settled (.inr ⟨rfl, rfl⟩) at_

theorem Bare.untold (bare : call.Bare) (told : call.told = [] ∨ call.told = call.applied) : call.told = [] :=
  told.elim id fun same => same.trans bare.1

theorem Kept.serve (kept : call.Kept (.hand work)) (served : call.serve fails work = (after, some next)) :
    after.Kept (.hand next) := by
  have was := kept.work
  cases work with
  | taken =>
    cases served
    refine kept.write kept.told (fun some => ?_) (.inr ⟨rfl, rfl⟩) ⟨was.1, CbTxnState.noConfusion⟩
    exact kept.settled (some.imp_right CbTxnState.noConfusion)
  | marshalling =>
    cases served
    cases fails
    · exact kept.move was
    · exact kept.move was
  | refusing =>
    cases served
    exact kept.write kept.told (fun some => some.elim (absurd (was.1.untold kept.told)) fun is => absurd is was.2)
      (.inr ⟨rfl, rfl⟩) ⟨was.1, show objectErrorUnavail ≠ 0 by decide⟩
  | refused =>
    cases served
    exact kept.write kept.told (fun _ => .inr ⟨was.1.untold kept.told, was.2⟩) (.inr ⟨rfl, rfl⟩) trivial
  | found response =>
    cases served
    obtain ⟨answering, parts, filps⟩ := was
    refine kept.write (.inl answering.2.1) (fun some => ?_) (.inl answering.2.2.1) ⟨answering, ?_, filps⟩
    · exact some.elim (absurd answering.2.1) fun is => absurd is answering.2.2.2
    · change CbReply.mk response.result call.cbReq.parts = _
      rw [parts]
  | resulted response =>
    obtain ⟨answering, cbReq, filps⟩ := was
    obtain ⟨applied, told, active, unprocessed⟩ := answering
    rw [TzcbCall.serve] at served
    split at served <;> rename_i error <;> cases served
    · have agreed : Agreed { call with told := response :: call.told } call.cbReq := by
        rw [cbReq] at error
        refine .inl ⟨response, by rw [told], ?_, ?_⟩
        · rw [cbReq, CbResponse.reply, if_neg error]
        · simpa [CbResponse.filps, CbResponse.reply, show response.result ≠ 0 from error] using filps
      exact kept.write (.inr (by rw [told, applied])) (fun _ => agreed) (.inl active)
        ⟨by simp [applied], unprocessed, active, agreed⟩
    · have none : response.result = 0 := by simpa [cbReq] using error
      exact kept.move ⟨⟨applied, told, active, unprocessed⟩, none, by rw [cbReq, none]; rfl, filps⟩
  | copying response copied =>
    obtain ⟨answering, result, cbReq, filps⟩ := was
    obtain ⟨applied, told, active, unprocessed⟩ := id answering
    rw [TzcbCall.serve] at served
    split at served
    · cases served
      exact kept.move ⟨answering, by rw [cbReq]⟩
    · split at served <;> rename_i part <;> cases served
      · obtain ⟨lt, rfl⟩ := List.getElem?_eq_some_iff.mp part
        have quiet : (call.copy response.parts[copied]).late = call.late := by simp [copy, active]
        have written : call.copy response.parts[copied] = { call with
              state := call.state, cbReq := (call.copy response.parts[copied]).cbReq
              filps := (call.copy response.parts[copied]).filps, told := call.told } := by
          rw [← quiet]
          rfl
        rw [written]
        refine kept.write (.inl told) (fun some => ?_) (.inl active) ⟨answering, result, ?_, ?_⟩
        · exact some.elim (absurd told) fun is => absurd is unprocessed
        · rw [copy, cbReq, List.take_succ_eq_append_getElem lt]
        · rw [List.take_succ_eq_append_getElem lt, List.filterMap_append, ← filps]
          rcases response.parts[copied] with _ | ⟨_, _ | _⟩ <;> simp [copy, ResponsePart.filp]
      · have all : response.parts.take copied = response.parts :=
          List.take_of_length_le (List.getElem?_eq_none_iff.mp part)
        have agreed : Agreed { call with told := response :: call.told } call.cbReq := by
          refine .inl ⟨response, by rw [told], ?_, ?_⟩
          · rw [cbReq, all, CbResponse.reply, if_pos result, result]
          · rw [CbResponse.filps, CbResponse.reply, if_pos result, ← all]
            exact filps
        exact kept.write (.inr (by rw [told, applied])) (fun _ => agreed) (.inl active)
          ⟨by simp [applied], unprocessed, active, agreed⟩
  | failed response =>
    cases served
    rw [if_pos was.2]
    exact kept.move was.1
  | unavailing response =>
    cases served
    obtain ⟨applied, told, active, unprocessed⟩ := was
    have agreed : Agreed (call.setResult objectErrorUnavail) { call.cbReq with result := objectErrorUnavail } :=
      .inr ⟨told, show objectErrorUnavail ≠ 0 by decide⟩
    exact kept.write (.inl told) (fun _ => agreed) (.inl active) ⟨by simp [applied], unprocessed, active, agreed⟩
  | answered leaves =>
    cases served
    exact kept.write kept.told (fun _ => was.2.2.2) (.inl was.2.2.1) trivial
  | dropping | placing | releasing => cases served

theorem Kept.release (kept : call.Kept (.hand work)) (served : call.serve fails work = (after, none)) :
    after.Kept (if work = .placing ∧ after.refCnt ≠ 0 then .awaited else .unlisted) := by
  have dropped : after = call.put ∧ (work = .placing → call.Bare ∧ call.state ≠ .processed) := by
    have was := kept.work
    cases work with
    | dropping | releasing =>
      cases served
      exact ⟨rfl, CbWork.noConfusion⟩
    | placing =>
      cases served
      exact ⟨rfl, fun _ => was⟩
    | resulted =>
      rw [TzcbCall.serve] at served
      split at served <;> cases served
    | copying =>
      rw [TzcbCall.serve] at served
      split at served
      · cases served
      · split at served <;> cases served
    | taken | marshalling | refusing | refused | found | failed | unavailing | answered => cases served
  obtain ⟨rfl, bare⟩ := dropped
  have refs := kept.refs
  have begun := kept.begun
  have count : call.put.refCnt = if call.stage.active then 1 else 0 := by
    simp [put, refs, TxnPlace.inHand]
  have outside : (if work = .placing ∧ call.put.refCnt ≠ 0 then TxnPlace.awaited else .unlisted).inHand = false := by
    split <;> rfl
  refine { kept with refs := ?_, frees := ?_, idle := fun is => absurd is begun, work := ?_ }
  · rw [outside]
    exact count
  · cases active : call.stage.active <;> simp [put, kept.frees, refs, active, begun, TxnPlace.inHand]
  · split
    · rename_i again
      refine ⟨(bare again.1).1, (bare again.1).2, ?_⟩
      by_contra inactive
      exact again.2 (count.trans (if_neg inactive))
    · trivial

end TzcbCall

def TzcbStage.gaveUp : TzcbStage → Bool
  | .finishing .timedOut _ | .finishing .restartsys _ => true
  | _ => false

def AcceptStage.response : AcceptStage → Option CbResponse
  | .entered response => some response
  | _ => none

namespace HandOff

structure CallAt (handOff : HandOff) (call : Nat) (place : TxnPlace) : Prop where
  reqs : call ∈ handOff.reqsTable → place = .requested
  responses : call ∈ handOff.responsesTable → place = .awaited
  hands : ∀ thread work, handOff.accepts thread = .working call work → place = .hand work
  holder : ∀ work, place = .hand work → ∃ thread, handOff.accepts thread = .working call work
  alone : ∀ one other work last, handOff.accepts one = .working call work →
    handOff.accepts other = .working call last → one = other
  kept : (handOff.calls call).Kept place

def Kept (handOff : HandOff) : Prop := ∀ call, ∃ place, handOff.CallAt call place

/-- No invoke thread finishes while a response is being applied, nor by a timeout or signal when one is taken over;
and a response is for a waiting transaction only with its full id. -/
def Fine (handOff : HandOff) : HandOffAction → Prop
  | .finish call => (handOff.calls call).applied ≠ [] → (handOff.calls call).state = .processed ∧
      ((handOff.calls call).told ≠ [] → (handOff.calls call).stage.gaveUp = false)
  | .find thread => ∀ response ∈ (handOff.accepts thread).response, ∀ call ∈ handOff.responsesTable,
      (handOff.calls call).txnId = response.txnId.toUInt32 → response.txnId.toNat = (handOff.calls call).txnId.toNat
  | _ => True

variable {handOff after : HandOff} {next : TzcbCall} {call thread : Nat} {place : TxnPlace}
  {stage : AcceptStage} {work : CbWork}

theorem init_kept (txnId : UInt32) (defunct : Bool) : (init txnId defunct).Kept := fun _ =>
  ⟨.unlisted, fun mem => absurd mem not_mem_nil, fun mem => absurd mem not_mem_nil,
    fun _ _ is => AcceptStage.noConfusion is, fun _ is => TxnPlace.noConfusion is,
    fun _ _ _ _ is => AcceptStage.noConfusion is, .fresh⟩

theorem CallAt.frame (at_ : handOff.CallAt other place) (reqs : other ∈ after.reqsTable → other ∈ handOff.reqsTable)
    (responses : other ∈ after.responsesTable → other ∈ handOff.responsesTable)
    (accepts : ∀ thread work, after.accepts thread = .working other work ↔ handOff.accepts thread = .working other work)
    (same : after.calls other = handOff.calls other) : after.CallAt other place where
  reqs listed := at_.reqs (reqs listed)
  responses listed := at_.responses (responses listed)
  hands thread work is := at_.hands thread work ((accepts thread work).mp is)
  holder work is := (at_.holder work is).imp fun thread => (accepts thread work).mpr
  alone one other work last first second :=
    at_.alone one other work last ((accepts one work).mp first) ((accepts other last).mp second)
  kept := same ▸ at_.kept

theorem accepts_apart {accepts : Nat → AcceptStage} (was : ∀ work, accepts thread ≠ .working other work)
    (is : ∀ work, stage ≠ .working other work) (one : Nat) (work : CbWork) :
    update accepts thread stage one = .working other work ↔ accepts one = .working other work := by
  by_cases same : one = thread
  · subst same
    simp [was, is]
  · simp [same]

theorem Kept.accept {defunct : Bool} (kept : handOff.Kept)
    (was : ∀ call work, handOff.accepts thread ≠ .working call work)
    (is : ∀ call work, stage ≠ .working call work) :
    Kept ({ handOff with defunct := defunct, isServerSuspended := suspended }.setAccept thread stage) := fun other =>
  (kept other).imp fun _ at_ => at_.frame id id (accepts_apart (was other) (is other)) rfl

theorem Kept.setCall (kept : handOff.Kept) (moved : ∀ place, handOff.CallAt call place → next.Kept place) :
    (handOff.setCall call next).Kept := by
  intro other
  by_cases same : other = call
  · subst same
    obtain ⟨place, at_⟩ := kept other
    refine ⟨place, at_.reqs, at_.responses, at_.hands, at_.holder, at_.alone, ?_⟩
    simpa [HandOff.setCall] using moved place at_
  · exact (kept other).imp fun _ at_ => at_.frame id id (fun _ _ => Iff.rfl) (by simp [HandOff.setCall, same])

theorem Kept.hold {before : HandOff} (kept : handOff.Kept)
    (reqs : ∀ other ∈ before.reqsTable, other ∈ handOff.reqsTable ∧ other ≠ call)
    (responses : ∀ other ∈ before.responsesTable, other ∈ handOff.responsesTable ∧ other ≠ call)
    (accepts : before.accepts = handOff.accepts) (calls : before.calls = handOff.calls)
    (own : ∀ one last, handOff.accepts one = .working call last → one = thread)
    (was : ∀ other last, handOff.accepts thread = .working other last → other = call)
    (moved : next.Kept (.hand work)) : ((before.setCall call next).setAccept thread (.working call work)).Kept := by
  intro other
  by_cases same : other = call
  · subst same
    have sole : ∀ one last, ((before.setCall other next).setAccept thread (.working other work)).accepts one =
        .working other last → one = thread ∧ last = work := by
      intro one last is
      by_cases here : one = thread
      · subst here
        simp only [setAccept, update_self] at is
        cases is
        exact ⟨rfl, rfl⟩
      · simp only [setAccept, update_of_ne here] at is
        exact absurd (own one last (accepts ▸ is)) here
    refine ⟨.hand work, fun mem => absurd rfl (reqs other mem).2, fun mem =>
      absurd rfl (responses other mem).2, fun one last is => ?_, fun last is => ?_,
      fun one two last final first second => ?_, ?_⟩
    · rw [(sole one last is).2]
    · cases is
      exact ⟨thread, update_self ..⟩
    · exact (sole one last first).1.trans (sole two final second).1.symm
    · simpa [setAccept, HandOff.setCall] using moved
  · refine (kept other).imp fun _ apart => apart.frame (fun mem => (reqs other mem).1)
      (fun mem => (responses other mem).1) (fun one last => ?_) ?_
    · rw [← accepts]
      exact accepts_apart (fun last is => same (was other last (accepts ▸ is)))
        (fun last is => same (AcceptStage.working.inj is).1.symm) one last
    · simp [setAccept, HandOff.setCall, calls, same]

theorem Kept.letGo (kept : handOff.Kept) (call : Nat)
    (frame : ∀ other place, other ≠ call → handOff.CallAt other place → after.CallAt other place)
    (reqs : call ∈ after.reqsTable → place = .requested) (responses : call ∈ after.responsesTable → place = .awaited)
    (free : ∀ one last, after.accepts one ≠ .working call last) (calls : after.calls call = next)
    (out : place.inHand = false) (moved : next.Kept place) : after.Kept := by
  intro other
  by_cases same : other = call
  · subst same
    refine ⟨place, reqs, responses, fun one last is => absurd is (free one last), fun last is => ?_,
      fun one _ last _ is => absurd is (free one last), calls ▸ moved⟩
    rw [is] at out
    cases out
  · exact (kept other).imp fun _ at_ => frame other _ same at_

end HandOff

namespace TzcbCall

variable {call after : TzcbCall}

theorem Kept.wait (kept : call.Kept place) (taken : call.wait defunct ret = some after) : after.Kept place := by
  rw [TzcbCall.wait] at taken
  split at taken
  · rename_i waiting
    have active : call.stage.active = true := by rw [waiting]; rfl
    cases ret <;> dsimp only at taken <;> split at taken <;> cases taken <;> exact kept.stage active rfl
  · cases taken

theorem Kept.look (kept : call.Kept place) (taken : call.look defunct = some after) : after.Kept place := by
  rw [TzcbCall.look] at taken
  split at taken <;> cases taken
  rename_i woken
  have active : call.stage.active = true := by rw [woken]; rfl
  split <;> exact kept.stage active rfl

theorem Kept.count (kept : call.Kept place) (taken : call.count suspended = some after) : after.Kept place := by
  rw [TzcbCall.count] at taken
  split at taken <;> cases taken
  rename_i counting
  have active : call.stage.active = true := by rw [counting]; rfl
  generalize (if suspended = true then 0 else _) = retries
  split
  · exact kept.stage active rfl
  · exact kept.stage active rfl

end TzcbCall

namespace HandOff

variable {handOff after : HandOff} {call thread : Nat}

section

variable (kept : handOff.Kept)
include kept

theorem Kept.place {server : Bool} (taken : handOff.step (.place call server) = some after) : after.Kept := by
  rw [HandOff.step] at taken
  split at taken
  · rename_i idle
    obtain ⟨place, at_⟩ := kept call
    obtain ⟨-, rfl⟩ := at_.kept.idle idle
    have free : ∀ one last, handOff.accepts one ≠ .working call last := fun one last is =>
      TxnPlace.noConfusion (at_.hands one last is)
    split at taken <;> cases taken
    · refine kept.letGo call (fun other place apart at_ => ?_) (fun _ => rfl) (fun mem => ?_) free
        (update_self ..) rfl (.started rfl rfl ⟨⟨rfl, rfl, rfl⟩, CbTxnState.noConfusion, rfl, rfl⟩)
      · refine at_.frame (fun mem => ?_) id (fun _ _ => Iff.rfl) (by simp [HandOff.setCall, apart])
        exact (mem_cons.mp mem).resolve_left apart
      · exact TxnPlace.noConfusion (at_.responses mem)
    · refine kept.setCall fun place again => ?_
      cases place with
      | unlisted => exact .started rfl rfl trivial
      | requested | awaited | hand => exact TxnPlace.noConfusion (again.kept.idle idle).2
  · cases taken

theorem Kept.finish (fine : handOff.Fine (.finish call))
    (taken : handOff.step (.finish call) = some after) : after.Kept := by
  rw [HandOff.step] at taken
  split at taken <;> cases taken
  rename_i ret server finishing
  obtain ⟨place, at_⟩ := kept call
  have met : (handOff.calls call).applied ≠ [] → (handOff.calls call).state = .processed ∧
      ((handOff.calls call).told ≠ [] → ret = .other) := by
    refine fun some => ⟨(fine some).1, fun told => ?_⟩
    have stays := (fine some).2 told
    rw [finishing] at stays
    cases ret <;> first | rfl | cases stays
  have moved : ((handOff.calls call).finish ((handOff.calls call).lastResult handOff.defunct ret server)).Kept
      place.unlist := at_.kept.finish finishing met
  intro other
  by_cases same : other = call
  · subst same
    refine ⟨place.unlist, fun mem => ?_, fun mem => ?_, fun one last is => ?_, fun last is => ?_, at_.alone, ?_⟩
    · exact absurd rfl (of_decide_eq_true (mem_filter.mp mem).2)
    · exact absurd rfl (of_decide_eq_true (mem_filter.mp mem).2)
    · rw [at_.hands one last is]
      rfl
    · refine at_.holder last ?_
      cases place <;> cases is
      rfl
    · simpa [HandOff.setCall] using moved
  · refine (kept other).imp fun _ apart => apart.frame (fun mem => ?_) (fun mem => ?_) (fun _ _ => Iff.rfl) ?_
    · exact (mem_filter.mp mem).1
    · exact (mem_filter.mp mem).1
    · simp [HandOff.setCall, unlist, same]

theorem Kept.grab {next : TzcbCall} {place : TxnPlace}
    (was : ∀ call work, handOff.accepts thread ≠ .working call work) (at_ : handOff.CallAt call place)
    (out : place.inHand = false) (moved : next.Kept (.hand work)) :
    (((handOff.unlist call).setCall call next).setAccept thread (.working call work)).Kept := by
  refine kept.hold (fun other mem => ?_) (fun other mem => ?_) rfl rfl (fun one last is => ?_)
    (fun other last is => absurd is (was other last)) moved
  · exact ⟨(mem_filter.mp mem).1, of_decide_eq_true (mem_filter.mp mem).2⟩
  · exact ⟨(mem_filter.mp mem).1, of_decide_eq_true (mem_filter.mp mem).2⟩
  · rw [at_.hands one last is] at out
    cases out

theorem Kept.find (fine : handOff.Fine (.find thread))
    (taken : handOff.step (.find thread) = some after) : after.Kept := by
  rw [HandOff.step] at taken
  split at taken
  · rename_i response entered
    have empty : ∀ call work, handOff.accepts thread ≠ .working call work := fun call work is =>
      AcceptStage.noConfusion (entered.symm.trans is)
    split at taken <;> cases taken
    · rename_i call found
      have mem := mem_of_find?_eq_some found
      have same := fine response (by rw [entered]; rfl) call mem (by simpa using List.find?_some found)
      obtain ⟨place, at_⟩ := kept call
      obtain rfl := at_.responses mem
      exact kept.grab empty at_ rfl (at_.kept.find same)
    · exact kept.accept empty fun _ _ => AcceptStage.noConfusion
  · cases taken

theorem Kept.work {fails : Bool} (taken : handOff.step (.work thread fails) = some after) : after.Kept := by
  rw [HandOff.step] at taken
  split at taken
  · rename_i call work working
    obtain ⟨place, at_⟩ := kept call
    obtain rfl := at_.hands thread work working
    have apart : ∀ other last, handOff.accepts thread = .working other last → other = call := fun other last is =>
      (AcceptStage.working.inj (working.symm.trans is)).1.symm
    have own : ∀ one last, handOff.accepts one = .working call last → one = thread := fun one last is =>
      at_.alone one thread last work is working
    have unlisted : call ∉ handOff.reqsTable ∧ call ∉ handOff.responsesTable :=
      ⟨fun mem => TxnPlace.noConfusion (at_.reqs mem), fun mem => TxnPlace.noConfusion (at_.responses mem)⟩
    dsimp only at taken
    split at taken <;> cases taken
    · rename_i more moved
      refine kept.hold (fun other mem => ⟨mem, fun same => ?_⟩) (fun other mem => ⟨mem, fun same => ?_⟩) rfl rfl
        own apart (at_.kept.serve (Prod.ext rfl moved))
      · exact unlisted.1 (same ▸ mem)
      · exact unlisted.2 (same ▸ mem)
    · rename_i gone
      have moved := at_.kept.release (Prod.ext rfl gone)
      have idle : ∀ call last, work.next ≠ .working call last := by
        intro call last
        unfold CbWork.next
        split <;> exact AcceptStage.noConfusion
      refine kept.letGo call (fun other place differs at_ => at_.frame (fun mem => ?_) (fun mem => ?_)
        (accepts_apart (fun last is => differs (apart other last is)) (idle other)) ?_)
        (fun mem => absurd mem unlisted.1) (fun mem => ?_) (fun one last is => ?_) (update_self ..) ?_ moved
      · exact mem
      · split at mem
        · exact (mem_cons.mp mem).resolve_left differs
        · exact mem
      · simp [setAccept, HandOff.setCall, differs]
      · split at mem
        · rename_i again
          exact if_pos again
        · exact absurd mem unlisted.2
      · by_cases here : one = thread
        · subst here
          exact idle call last ((update_self ..).symm.trans is)
        · exact here (own one last ((update_of_ne here ..).symm.trans is))
      · split <;> rfl
  · cases taken

end

end HandOff

namespace HandOff

variable {handOff after : HandOff}

theorem Kept.step {action : HandOffAction} (kept : handOff.Kept) (fine : handOff.Fine action)
    (taken : handOff.step action = some after) : after.Kept := by
  cases action with
  | place => exact kept.place taken
  | wait | look | count =>
    obtain ⟨next, moved, rfl⟩ := Option.map_eq_some_iff.mp taken
    refine kept.setCall fun _ at_ => ?_
    first | exact at_.kept.wait moved | exact at_.kept.look moved | exact at_.kept.count moved
  | finish => exact kept.finish fine taken
  | find => exact kept.find fine taken
  | work => exact kept.work taken
  | accept thread pid response =>
    rw [HandOff.step] at taken
    split at taken <;> cases taken
    rename_i idle
    refine kept.accept (fun _ _ is => AcceptStage.noConfusion (idle.symm.trans is)) fun _ _ => ?_
    cases response <;> exact AcceptStage.noConfusion
  | interrupt thread pid freezing =>
    rw [HandOff.step] at taken
    split at taken <;> cases taken
    rename_i waiting
    have empty : ∀ call work, handOff.accepts thread ≠ .working call work := fun _ _ is =>
      AcceptStage.noConfusion (waiting.symm.trans is)
    cases freezing <;> exact kept.accept empty fun _ _ => AcceptStage.noConfusion
  | take thread call =>
    rw [HandOff.step] at taken
    split at taken <;> cases taken
    rename_i waits
    obtain ⟨place, at_⟩ := kept call
    obtain rfl := at_.reqs waits.2
    exact kept.grab (fun _ _ is => AcceptStage.noConfusion (waits.1.symm.trans is)) at_ rfl at_.kept.take

def Used (handOff : HandOff) (call : Nat) : Prop :=
  (handOff.calls call).stage.active = true ∨ ∃ thread work, handOff.accepts thread = .working call work

structure Sound (handOff : HandOff) (call : Nat) : Prop where
  takenOnce : (handOff.calls call).takes ≤ 1
  appliedOnce : (handOff.calls call).applied.length ≤ 1
  ownId : ∀ response ∈ (handOff.calls call).applied, response.txnId.toNat = (handOff.calls call).txnId.toNat
  used : handOff.Used call → (handOff.calls call).frees = 0
  unused : (handOff.calls call).stage ≠ .idle → ¬handOff.Used call → (handOff.calls call).frees = 1
  /-- The invoke thread has the response that was taken over in full, and otherwise an error. -/
  agreed : ∀ reply, (handOff.calls call).stage = .returned reply → (handOff.calls call).Agreed reply
  neverLate : (handOff.calls call).late = false

theorem CallAt.sound (at_ : handOff.CallAt call place) : handOff.Sound call := by
  obtain ⟨refs, frees, idle, takes, applied, -, late, -, ret, -⟩ := at_.kept
  refine ⟨takes, applied.1, applied.2, fun used => ?_, fun begun unused => ?_, ret, late⟩
  · rw [frees, if_pos]
    refine .inr ?_
    rw [refs]
    rcases used with active | ⟨thread, work, is⟩
    · rw [if_pos active]
      omega
    · simp [at_.hands thread work is, TxnPlace.inHand]
  · have inactive : (handOff.calls call).stage.active = false := by
      simpa using fun active => unused (.inl active)
    have out : place.inHand = false := by
      cases place with
      | hand work =>
        obtain ⟨thread, is⟩ := at_.holder work rfl
        exact absurd (.inr ⟨thread, work, is⟩) unused
      | unlisted | requested | awaited => rfl
    simp [frees, refs, begun, inactive, out]

end HandOff

theorem handOff_sound {txnId : UInt32} {defunct : Bool} {handOff : HandOff}
    (reached : Reachable HandOff.step HandOff.Fine (.init txnId defunct) handOff) (call : Nat) :
    handOff.Sound call := by
  have kept := reached.invariant HandOff.Kept (HandOff.init_kept txnId defunct)
    fun _ _ _ kept fine taken => kept.step fine taken
  obtain ⟨place, at_⟩ := kept call
  exact at_.sound

instance (handOff : HandOff) (action : HandOffAction) : Decidable (handOff.Fine action) := by
  cases action <;> dsimp only [HandOff.Fine] <;> infer_instance

def takenRequest : List HandOffAction :=
  [.accept 0 0 none, .place 0 true, .take 0 0, .work 0 false, .work 0 false, .work 0 false]

def oneFile : CbResponse := ⟨1, 0, 1, [.object 7 (some 3)]⟩

theorem handOff_sound_returned : ∃ handOff, Reachable HandOff.step HandOff.Fine (.init 0 false) handOff ∧
      (handOff.calls 0).stage = .returned oneFile.reply ∧ handOff.Sound 0 :=
  reaches (takenRequest ++ [.accept 0 0 (some oneFile), .find 0, .work 0 false, .work 0 false, .work 0 false,
    .work 0 false, .work 0 false, .wait 0 .other, .look 0, .finish 0, .work 0 false])
    (fun handOff => (handOff.calls 0).stage = .returned oneFile.reply) (by decide +kernel)
    fun _ reached returned => ⟨returned, handOff_sound reached 0⟩

theorem response_copied_late : ∃ handOff, Reachable HandOff.step (fun _ _ => True) (.init 0 false) handOff ∧
      (handOff.calls 0).stage = .returned ⟨objectErrorDefunct, []⟩ ∧ (handOff.calls 0).told = [oneFile] ∧
      ¬handOff.Sound 0 :=
  reaches (takenRequest ++ [.accept 0 0 (some oneFile), .find 0, .work 0 false, .work 0 false, .accept 1 1 none,
    .interrupt 1 1 false, .wait 0 .other, .look 0, .finish 0, .work 0 false, .work 0 false])
    (fun handOff => (handOff.calls 0).stage = .returned ⟨objectErrorDefunct, []⟩ ∧
      (handOff.calls 0).told = [oneFile] ∧ (handOff.calls 0).late = true) (by decide +kernel)
    fun _ _ ⟨returned, told, late⟩ =>
      ⟨returned, told, fun sound => Bool.false_ne_true (sound.neverLate.symm.trans late)⟩

end KernelModules.Smcinvoke
