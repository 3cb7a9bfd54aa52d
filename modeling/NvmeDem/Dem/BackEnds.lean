import NvmeDem.Dem.Messages
import NvmeDem.Endpoint.SpdkOps

/-!
# Managers of every kind

A message to a manager comes to a call of an operation there, and what the call does is up to the back end (`ops`). The daemon
sends its messages in the same way to all of them; with the back end that only writes its configuration this is `sendMessage`
(`sendMessageTo_run`).
-/

namespace NvmeDem

namespace Push

open Jansson Link

section

variable {σ : Type} (ops : σ → OpsCall → Except Fault (Int × σ)) (w : Wire) (target : Target)

/-- The status of the completion, as the client returns it. -/
def accessDenied : Int := 0x4286

/-- A back end is called for a message; an error of it is a status. -/
def handleMiSendTo (msg : MiSend) (far : σ) : Except Fault (Int × σ) := do
  let (ret, far) ← ops far (← miCall msg)
  return (if ret = 0 then 0 else accessDenied, far)

def sendMiSendTo (msg : MiSend) : Prog Fault σ := attempt w.net (handleMiSendTo ops msg)

def reconnectAndSendTo (msg : MiSend) : Prog Fault σ :=
  andThen (attempt w.net (fun far => .ok (0, far)))
    (andThen (fun s => .ok (0, { s with connected := true })) (sendMiSendTo ops w msg))

def sendSetConfigTo (msg : MiSend) : Prog Fault σ := fun s =>
  if s.connected then
    match sendMiSendTo ops w msg s with
    | .error f => .error f
    | .ok (ret, s') => if ret = 0 then .ok (0, s') else reconnectAndSendTo ops w msg { s' with connected := false }
  else reconnectAndSendTo ops w msg s

/-- A request for a URL at the manager. -/
def handleRequestTo (req : OobRequest) (url : String) (far : σ) : Except Fault (Int × σ) :=
  match w.http.uri url with
  | none => .ok (-einval, far)
  | some uri => do
    let (ret, far) ←
      match ← req.outcome w.json uri with
      | .call call => ops far call
      | .answer ret => .ok (ret, far)
    return (if ret = 0 then 0 else -einval, far)

def execOobTo (req : OobRequest) : Prog Fault σ := fun s =>
  match uriTo target req.path with
  | .error f => .error f
  | .ok url => attempt w.net (handleRequestTo ops w req url) s

def sendMessageTo (msg : Message) : Prog Fault σ :=
  match target.mgmtMode with
  | .inBandMgmt => sendSetConfigTo ops w msg.inb
  | .outOfBandMgmt => execOobTo ops w target msg.oob
  | .localMgmt => done

end

/-! ## The back end that writes its configuration -/

section

variable (w : Wire) (target : Target)

def writeOps (config : Finset Item) (call : OpsCall) : Except Fault (Int × Finset Item) := .ok (call.run config)

theorem handleMiSendTo_run (msg : MiSend) (config : Finset Item) :
    handleMiSendTo writeOps msg config = handleMiSend config msg := by
  rw [handleMiSend_eq]
  unfold handleMiSendTo writeOps
  cases miCall msg with
  | error f => rfl
  | ok call =>
    show Except.ok (if (call.run config).1 = 0 then 0 else accessDenied, (call.run config).2) = .ok (call.run config)
    rw [OpsCall.run_eq]
    rfl

theorem handleRequestTo_run (req : OobRequest) {url uri : String} (config : Finset Item) (huri : w.http.uri url = some uri) :
    handleRequestTo writeOps w req url config =
      (req.outcome w.json uri).map (fun out => (if (out.run config).1 = 0 then 0 else -einval, (out.run config).2)) := by
  unfold handleRequestTo
  rw [huri]
  dsimp only
  cases req.outcome w.json uri with
  | error f => rfl
  | ok out => cases out <;> rfl

theorem execOobTo_run (req : OobRequest) : execOobTo writeOps w target req = execOob w target req := by
  funext s
  have hsame : ∀ url (handle : Finset Item → List String → Except Fault (Int × Finset Item)),
      (∀ config uri, w.http.uri url = some uri → request w url handle config = handleRequestTo writeOps w req url config) →
        handleRequestTo writeOps w req url = request w url handle := by
    intro url handle h
    funext config
    cases huri : w.http.uri url with
    | none => simp only [handleRequestTo, request, huri]
    | some uri => exact (h config uri huri).symm
  cases req with
  | post path body =>
    simp only [execOobTo, execOob, execPost, execRequest, OobRequest.path]
    cases uriTo target path with
    | error f => rfl
    | ok url =>
      dsimp only
      rw [hsame url _ (fun config uri huri =>
        (request_post_eq w path body config huri).trans (handleRequestTo_run w _ config huri).symm)]
  | delete path =>
    simp only [execOobTo, execOob, execDelete, execRequest, OobRequest.path]
    cases uriTo target path with
    | error f => rfl
    | ok url =>
      dsimp only
      rw [hsame url _ (fun config uri huri =>
        (request_delete_eq w path config huri).trans (handleRequestTo_run w _ config huri).symm)]

/-- With that back end the daemon sends as it does. -/
theorem sendMessageTo_run (msg : Message) : sendMessageTo writeOps w target msg = sendMessage w target msg := by
  have hmi : ∀ msg : MiSend, sendMiSendTo writeOps w msg = sendMiSend w msg := by
    intro msg
    unfold sendMiSendTo sendMiSend
    congr 1
    funext config
    exact handleMiSendTo_run msg config
  have hinb : ∀ msg : MiSend, sendSetConfigTo writeOps w msg = sendSetConfig w msg := by
    intro msg
    have hagain : reconnectAndSendTo writeOps w msg = reconnectAndSend w msg := by
      unfold reconnectAndSendTo reconnectAndSend
      rw [hmi]
      rfl
    funext s
    unfold sendSetConfigTo sendSetConfig
    rw [hmi, hagain]
    cases sendMiSend w msg s <;> rfl
  unfold sendMessageTo sendMessage
  cases target.mgmtMode with
  | inBandMgmt => exact hinb msg.inb
  | outOfBandMgmt => exact execOobTo_run w target msg.oob
  | localMgmt => rfl

end

end Push

end NvmeDem
