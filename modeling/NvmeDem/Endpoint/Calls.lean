import NvmeDem.Endpoint.Manager

/-!
# The operations of the manager

A manager has a table of operations, which write the configuration in one of several ways. Both of its entries come down to one
call of an operation: `miCall` is the call that an in-band message makes, `postCall` and `deleteCall` are the calls of the
requests. What the entries do to a configuration is what the calls do to it (`handleMiSend_eq`, `postRequest_eq`,
`deleteRequest_eq`).
-/

namespace NvmeDem

open Jansson

/-- A call of an operation, with its arguments. -/
inductive OpsCall where
  | resetConfig
  | createPortid (portid : Int) (fam typ : String) (req : Int) (addr : String) (svcid : Int)
  | deletePortid (portid : Int)
  | createSubsys (subsys : String) (allowany : Int)
  | deleteSubsys (subsys : String)
  | createNs (subsys : String) (nsid devid devnsid : Int)
  | deleteNs (subsys : String) (nsid : Int)
  | createHost (host : String)
  | deleteHost (host : String)
  | linkHostToSubsys (subsys host : String)
  | unlinkHostFromSubsys (subsys host : String)
  | linkPortToSubsys (subsys : String) (portid : Int)
  | unlinkPortFromSubsys (subsys : String) (portid : Int)
  deriving DecidableEq, Repr

def OpsCall.run (config : Finset Item) : OpsCall → Int × Finset Item
  | .resetConfig => NvmeDem.resetConfig config
  | .createPortid portid fam typ req addr svcid => NvmeDem.createPortid config portid fam typ req addr svcid
  | .deletePortid portid => NvmeDem.deletePortid config portid
  | .createSubsys subsys allowany => NvmeDem.createSubsys config subsys allowany
  | .deleteSubsys subsys => NvmeDem.deleteSubsys config subsys
  | .createNs subsys nsid devid devnsid => NvmeDem.createNs config subsys nsid devid devnsid
  | .deleteNs subsys nsid => NvmeDem.deleteNs config subsys nsid
  | .createHost name => NvmeDem.createHost config name
  | .deleteHost name => NvmeDem.deleteHost config name
  | .linkHostToSubsys subsys name => NvmeDem.linkHostToSubsys config subsys name
  | .unlinkHostFromSubsys subsys name => NvmeDem.unlinkHostFromSubsys config subsys name
  | .linkPortToSubsys subsys portid => NvmeDem.linkPortToSubsys config subsys portid
  | .unlinkPortFromSubsys subsys portid => NvmeDem.unlinkPortFromSubsys config subsys portid

/-- The change that a call makes. -/
def OpsCall.change : OpsCall → Change
  | .resetConfig => .reset
  | .createPortid portid fam typ req addr svcid => .put (.port portid fam typ req addr svcid)
  | .deletePortid portid => .delete (.port portid)
  | .createSubsys subsys allowany => .put (.subsys subsys (allowany ≠ 0))
  | .deleteSubsys subsys => .delete (.subsys subsys)
  | .createNs subsys nsid devid devnsid => .put (.ns subsys nsid devid devnsid)
  | .deleteNs subsys nsid => .delete (.ns subsys nsid)
  | .createHost name => .put (.host name)
  | .deleteHost name => .delete (.host name)
  | .linkHostToSubsys subsys name => .put (.hostLink subsys name)
  | .unlinkHostFromSubsys subsys name => .delete (.hostLink subsys name)
  | .linkPortToSubsys subsys portid => .put (.portLink subsys portid)
  | .unlinkPortFromSubsys subsys portid => .delete (.portLink subsys portid)

theorem OpsCall.run_eq (config : Finset Item) (call : OpsCall) : call.run config = (0, applyChange config call.change) := by
  cases call <;> rfl

/-! ## In band -/

/-- The call that a message makes. -/
def miCall : MiSend → Except Fault OpsCall
  | .resetConfig => .ok .resetConfig
  | .setPortConfig entry =>
    .ok (.createPortid entry.portid.toNat (adrfamStr entry.adrfam) (trtypeStr entry.trtype) entry.treq.toNat entry.traddr
      (atoi entry.trsvcid.toList))
  | .delPortConfig entry => .ok (.deletePortid entry.portid.toNat)
  | .linkPortConfig entry => do
    let subnqn ← nqnField entry.subnqn
    return .linkPortToSubsys subnqn entry.portid.toNat
  | .unlinkPortConfig entry => do
    let subnqn ← nqnField entry.subnqn
    return .unlinkPortFromSubsys subnqn entry.portid.toNat
  | .setSubsysConfig entry => do
    let subnqn ← nqnField entry.subnqn
    return .createSubsys subnqn entry.allowanyhost.toNat
  | .delSubsysConfig entry => do
    let subnqn ← nqnField entry.subnqn
    return .deleteSubsys subnqn
  | .setNsConfig entry => do
    let subnqn ← nqnField entry.subnqn
    return .createNs subnqn entry.nsid.toInt (entryDevid entry) entry.devicensid.toInt
  | .delNsConfig entry => do
    let subnqn ← nqnField entry.subnqn
    return .deleteNs subnqn entry.nsid.toInt
  | .setHostConfig entry => do
    let hostnqn ← nqnField entry.hostnqn
    return .createHost hostnqn
  | .delHostConfig entry => do
    let hostnqn ← nqnField entry.hostnqn
    return .deleteHost hostnqn
  | .linkHostConfig entry => do
    let subnqn ← nqnField entry.subnqn
    let hostnqn ← nqnField entry.hostnqn
    return .linkHostToSubsys subnqn hostnqn
  | .unlinkHostConfig entry => do
    let subnqn ← nqnField entry.subnqn
    let hostnqn ← nqnField entry.hostnqn
    return .unlinkHostFromSubsys subnqn hostnqn

theorem handleMiSend_eq (config : Finset Item) (msg : MiSend) :
    handleMiSend config msg = (miCall msg).map (OpsCall.run config) := by
  cases msg with
  | resetConfig => rfl
  | setPortConfig entry => rfl
  | delPortConfig entry => rfl
  | linkHostConfig entry =>
    simp only [handleMiSend, miCall]
    cases nqnField entry.subnqn <;> cases nqnField entry.hostnqn <;> rfl
  | unlinkHostConfig entry =>
    simp only [handleMiSend, miCall]
    cases nqnField entry.subnqn <;> cases nqnField entry.hostnqn <;> rfl
  | linkPortConfig entry => simp only [handleMiSend, miCall]; cases nqnField entry.subnqn <;> rfl
  | unlinkPortConfig entry => simp only [handleMiSend, miCall]; cases nqnField entry.subnqn <;> rfl
  | setSubsysConfig entry => simp only [handleMiSend, miCall]; cases nqnField entry.subnqn <;> rfl
  | delSubsysConfig entry => simp only [handleMiSend, miCall]; cases nqnField entry.subnqn <;> rfl
  | setNsConfig entry => simp only [handleMiSend, miCall]; cases nqnField entry.subnqn <;> rfl
  | delNsConfig entry => simp only [handleMiSend, miCall]; cases nqnField entry.subnqn <;> rfl
  | setHostConfig entry => simp only [handleMiSend, miCall]; cases nqnField entry.hostnqn <;> rfl
  | delHostConfig entry => simp only [handleMiSend, miCall]; cases nqnField entry.hostnqn <;> rfl

/-! ## Out of band -/

/-- What a request comes to: a call of an operation, or an answer without one. -/
inductive Outcome where
  | call (call : OpsCall)
  | answer (ret : Int)
  deriving DecidableEq, Repr

def Outcome.run (config : Finset Item) : Outcome → Int × Finset Item
  | .call op => op.run config
  | .answer ret => (ret, config)

def portidCall (J : JsonLib) (port : Option String) (body : String) : Except Fault Outcome :=
  match port with
  | none => .error .nullString
  | some port =>
    if atoi port.toList < minPortid ∨ maxPortid < atoi port.toList then .ok (.answer httpErrInternal)
    else
      match J.loads body with
      | none => .ok (.answer httpErrInternal)
      | some new =>
        match new.objectGet tagType, new.objectGet tagFamily, new.objectGet tagAddress, new.objectGet tagTrsvcid with
        | some typ, some fam, some addr, some svcid =>
          match typ.stringValue, fam.stringValue, addr.stringValue with
          | some typ, some fam, some addr =>
            .ok (.call (.createPortid (atoi port.toList) fam typ (flagField tagTreq new) addr (cInt svcid.integerValue)))
          | _, _, _ => .error .nullString
        | _, _, _, _ => .ok (.answer httpErrInternal)

def subsysCall (J : JsonLib) (subsys : Option String) (body : String) : Outcome :=
  match J.loads body with
  | none => .answer httpErrInternal
  | some new =>
    match subsys.or (new.strField tagSubnqn) with
    | none => .answer httpErrInternal
    | some subsys => .call (.createSubsys subsys (flagField tagAllowAny new))

def nsCall (J : JsonLib) (subsys : String) (ns : Option String) (body : String) : Outcome :=
  match J.loads body with
  | none => .answer httpErrInternal
  | some new =>
    match (ns.map (fun ns => atoi ns.toList)).or ((new.objectGet tagNsid).map (fun obj => cInt obj.integerValue)) with
    | none => .answer httpErrInternal
    | some nsid =>
      match (new.objectGet tagDevid).map (fun obj => cInt obj.integerValue) with
      | none => .answer httpErrInternal
      | some devid =>
        match new.objectGet tagDevnsid with
        | some obj => .call (.createNs subsys nsid devid (cInt obj.integerValue))
        | none => if devid = -1 then .call (.createNs subsys nsid devid 0) else .answer httpErrInternal

def nqnCall (J : JsonLib) (body : String) (create : String → OpsCall) : Except Fault Outcome :=
  match (J.loads body).bind (fun new => new.objectGet tagHostnqn) with
  | none => .ok (.answer httpErrInternal)
  | some obj =>
    match obj.stringValue with
    | none => .error .nullString
    | some name => .ok (.call (create name))

def linkPortidCall (J : JsonLib) (subsys body : String) : Outcome :=
  match (J.loads body).bind (fun new => new.objectGet tagPortid) with
  | none => .answer httpErrInternal
  | some obj => .call (.linkPortToSubsys subsys (cInt obj.integerValue))

def postCall (J : JsonLib) (parts : List String) (body : String) : Except Fault Outcome :=
  if parts = [] then .ok (.answer httpErrPageNotFound)
  else if body = "" then .ok (.answer (if parts = [methodShutdown] then 0 else httpErrNotImplemented))
  else
    match parts with
    | [p] =>
      if p = uriSubsystem then .ok (subsysCall J none body)
      else if p = uriPortid then portidCall J none body
      else if p = uriHost then nqnCall J body .createHost
      else .ok (.answer httpErrNotImplemented)
    | [p, name] =>
      if p = uriSubsystem then .ok (subsysCall J (some name) body)
      else if p = uriPortid then portidCall J (some name) body
      else .ok (.answer httpErrNotImplemented)
    | [p, subsys, kind] =>
      if p ≠ uriSubsystem then .ok (.answer httpErrNotImplemented)
      else if kind = uriNamespace then .ok (nsCall J subsys none body)
      else if kind = uriHost then nqnCall J body (.linkHostToSubsys subsys)
      else if kind = uriPortid then .ok (linkPortidCall J subsys body)
      else .ok (.answer httpErrNotImplemented)
    | [p, subsys, kind, ns] =>
      if p ≠ uriSubsystem ∨ kind ≠ uriNamespace then .ok (.answer httpErrNotImplemented)
      else .ok (nsCall J subsys (some ns) body)
    | _ => .ok (.answer httpErrNotImplemented)

def deleteCall (parts : List String) : Outcome :=
  if parts = [] then .answer httpErrPageNotFound
  else if parts = [uriConfig] then .call .resetConfig
  else
    match parts with
    | [p, name] =>
      if p = uriSubsystem then .call (.deleteSubsys name)
      else if p = uriPortid then .call (.deletePortid (atoi name.toList))
      else if p = uriHost then .call (.deleteHost name)
      else .answer httpErrNotImplemented
    | [p, subsys, kind, name] =>
      if p ≠ uriSubsystem then .answer httpErrNotImplemented
      else if kind = uriNamespace then .call (.deleteNs subsys (atoi name.toList))
      else if kind = uriPortid then .call (.unlinkPortFromSubsys subsys (atoi name.toList))
      else if kind = uriHost then .call (.unlinkHostFromSubsys subsys name)
      else .answer httpErrNotImplemented
    | _ => .answer httpErrNotImplemented

section

variable (J : JsonLib) (config : Finset Item)

theorem postPortid_eq (port : Option String) (body : String) :
    postPortid J config port body = (portidCall J port body).map (Outcome.run config) := by
  cases port with
  | none => rfl
  | some port =>
    unfold postPortid portidCall
    dsimp only
    by_cases hrange : atoi port.toList < minPortid ∨ maxPortid < atoi port.toList
    · rw [if_pos hrange, if_pos hrange]
      rfl
    · rw [if_neg hrange, if_neg hrange]
      cases J.loads body with
      | none => rfl
      | some new =>
        dsimp only
        cases new.objectGet tagType <;> cases new.objectGet tagFamily <;> cases new.objectGet tagAddress <;>
          cases new.objectGet tagTrsvcid <;> try rfl
        rename_i typ fam addr svcid
        dsimp only
        cases typ.stringValue <;> cases fam.stringValue <;> cases addr.stringValue <;> rfl

theorem postSubsys_eq (subsys : Option String) (body : String) :
    postSubsys J config subsys body = (subsysCall J subsys body).run config := by
  unfold postSubsys subsysCall
  cases J.loads body with
  | none => rfl
  | some new =>
    dsimp only
    cases subsys.or (new.strField tagSubnqn) <;> rfl

theorem postNs_eq (subsys : String) (ns : Option String) (body : String) :
    postNs J config subsys ns body = (nsCall J subsys ns body).run config := by
  unfold postNs nsCall
  cases J.loads body with
  | none => rfl
  | some new =>
    dsimp only
    cases (ns.map (fun ns => atoi ns.toList)).or ((new.objectGet tagNsid).map (fun obj => cInt obj.integerValue)) with
    | none => rfl
    | some nsid =>
      dsimp only
      cases (new.objectGet tagDevid).map (fun obj => cInt obj.integerValue) with
      | none => rfl
      | some devid =>
        dsimp only
        cases new.objectGet tagDevnsid with
        | some obj => rfl
        | none =>
          dsimp only
          by_cases hnull : devid = -1
          · rw [if_pos hnull, if_pos hnull]
            rfl
          · rw [if_neg hnull, if_neg hnull]
            rfl

theorem postNqn_eq (body : String) (create : String → OpsCall) :
    postNqn J config body (fun name => (create name).run config) = (nqnCall J body create).map (Outcome.run config) := by
  unfold postNqn nqnCall
  cases (J.loads body).bind (fun new => new.objectGet tagHostnqn) with
  | none => rfl
  | some obj =>
    dsimp only
    cases obj.stringValue <;> rfl

theorem linkPortidRequest_eq (subsys body : String) :
    linkPortidRequest J config subsys body = (linkPortidCall J subsys body).run config := by
  unfold linkPortidRequest linkPortidCall
  cases (J.loads body).bind (fun new => new.objectGet tagPortid) <;> rfl

theorem postHost_eq (body : String) :
    postHost J config body = (nqnCall J body .createHost).map (Outcome.run config) := postNqn_eq J config body .createHost

theorem linkHostRequest_eq (subsys body : String) :
    linkHostRequest J config subsys body = (nqnCall J body (.linkHostToSubsys subsys)).map (Outcome.run config) :=
  postNqn_eq J config body (.linkHostToSubsys subsys)

theorem postRequest_eq (parts : List String) (body : String) :
    postRequest J config parts body = (postCall J parts body).map (Outcome.run config) := by
  have hmap : ∀ (p : Prop) [Decidable p] (x y : Except Fault Outcome),
      (if p then x else y).map (Outcome.run config) = if p then x.map (Outcome.run config) else y.map (Outcome.run config) :=
    fun p _ x y => apply_ite (Except.map (Outcome.run config)) p x y
  unfold postRequest postCall
  by_cases hparts : parts = []
  · rw [if_pos hparts, if_pos hparts]
    rfl
  · rw [if_neg hparts, if_neg hparts]
    by_cases hbody : body = ""
    · rw [if_pos hbody, if_pos hbody]
      by_cases hshut : parts = [methodShutdown]
      · rw [if_pos hshut, if_pos hshut]
        rfl
      · rw [if_neg hshut, if_neg hshut]
        rfl
    · rw [if_neg hbody, if_neg hbody]
      rcases parts with _ | ⟨p, _ | ⟨name, _ | ⟨kind, _ | ⟨ns, _ | ⟨_, _⟩⟩⟩⟩⟩
      · exact absurd rfl hparts
      · simp only [hmap, postPortid_eq, postSubsys_eq, postHost_eq]
        rfl
      · simp only [hmap, postPortid_eq, postSubsys_eq]
        rfl
      · simp only [hmap, postNs_eq, linkPortidRequest_eq, linkHostRequest_eq]
        rfl
      · simp only [hmap, postNs_eq]
        rfl
      · rfl

theorem deleteRequest_eq (parts : List String) : deleteRequest config parts = (deleteCall parts).run config := by
  have hrun : ∀ (p : Prop) [Decidable p] (x y : Outcome),
      (if p then x else y).run config = if p then x.run config else y.run config :=
    fun p _ x y => apply_ite (Outcome.run config) p x y
  unfold deleteRequest deleteCall
  rw [hrun, hrun]
  rcases parts with _ | ⟨p, _ | ⟨name, _ | ⟨kind, _ | ⟨ns, _ | ⟨_, _⟩⟩⟩⟩⟩
  · rfl
  · rfl
  · simp only [hrun]
    rfl
  · rfl
  · simp only [hrun]
    rfl
  · rfl

end

end NvmeDem
