import NvmeDem.Theorems.Encoding

/-!
# The two ways to manage a target

A message ends in a call of an operation, in band and out of band. For names that need no escape and values that the fields of
both hold, the calls are the same up to three differences: a port is set with another requirement of security, an access that is
neither zero nor one is passed on in band and cut to one out of band, and the device 255 is the null block device in band.
-/

namespace NvmeDem

namespace Push

open Jansson

/-- The call that a request makes. -/
def Message.oobCall : Message → OpsCall
  | .setPort portid => .createPortid portid.portid portid.family portid.type 0 portid.address portid.portNum
  | .setSubsys subsys => .createSubsys subsys.nqn (if subsys.access = 0 then 0 else 1)
  | msg => msg.given

/-- The messages of which the call is the same in both ways. -/
def Message.SameArguments : Message → Prop
  | .setPort _ => False
  | .setSubsys subsys => subsys.access = 0 ∨ subsys.access = 1
  | .configNs _ ns | .setNs _ ns => ns.devid ≠ nvmfNullbDevid
  | _ => True

/-! ## Texts -/

/-- The texts in a message. -/
def Message.names : Message → List String
  | .setPort portid => [portid.type, portid.family, portid.address]
  | msg => msg.nqns

/-- The parts of the path of a request. -/
def Message.parts : Message → List String
  | .reset => [uriConfig]
  | .setPort portid | .delPort portid => [uriPortid, toString portid.portid]
  | .setSubsys _ => [uriSubsystem]
  | .delSubsys subsys => [uriSubsystem, subsys.nqn]
  | .configNs subsys _ => [uriSubsystem, subsys.nqn, uriNamespace]
  | .setNs subsys ns | .delNs subsys ns => [uriSubsystem, subsys.nqn, uriNamespace, toString ns.nsid]
  | .setHost _ => [uriHost]
  | .delHost hostnqn => [uriHost, hostnqn]
  | .linkHost subsys _ => [uriSubsystem, subsys.nqn, uriHost]
  | .unlinkHost subsys host => [uriSubsystem, subsys.nqn, uriHost, host.nqn]
  | .linkPort subsys _ => [uriSubsystem, subsys.nqn, uriPortid]
  | .unlinkPort subsys portid => [uriSubsystem, subsys.nqn, uriPortid, toString portid.portid]

/-- The value that the body of a request spells. -/
def Message.value : Message → Json
  | .setPort portid => portValue portid
  | .setSubsys subsys => subsysValue subsys
  | .configNs _ ns | .setNs _ ns => nsValue ns
  | .setHost host | .linkHost _ host => hostValue host
  | .linkPort _ portid => portidValue portid
  | _ => .null

/-- The server hands over the path of the URL, and the parser reads the body as it is spelled. -/
structure Message.ReadsAsWritten (http : HttpLib) (J : JsonLib) (target : Target) (msg : Message) : Prop where
  uri : http.uri (getUri target ++ msg.oob.path) = some ("/" ++ msg.oob.path)
  body : ∀ path body, msg.oob = .post path body → J.loads body = some msg.value

theorem pathOf_four {p q r s : String} (hp : Plain p) (hq : Plain q) (hr : Plain r) (hs : Plain s) :
    PathOf s!"{p}/{q}/{r}/{s}" [p, q, r, s] where
  text := by simp [List.intercalate_cons_cons, toString]
  plain := by simp [hp, hq, hr, hs]
  ne := by simp

section

variable {http : HttpLib} {J : JsonLib} {target : Target} {msg : Message}

theorem pathOf_oob (hplain : ∀ name ∈ msg.names, Plain name) : PathOf msg.oob.path msg.parts := by
  obtain ⟨hconfig, hsub, hportid, hhost, hns⟩ := plain_uri
  cases msg with
  | reset => exact pathOf_one hconfig
  | setPort portid => exact pathOf_two hportid (plain_toString _)
  | delPort portid => exact pathOf_two hportid (plain_toString _)
  | setSubsys subsys => exact pathOf_one hsub
  | delSubsys subsys => exact pathOf_two hsub (hplain _ List.mem_cons_self)
  | configNs subsys ns => exact pathOf_three hsub (hplain _ List.mem_cons_self) hns
  | setNs subsys ns => exact pathOf_four hsub (hplain _ List.mem_cons_self) hns (plain_toString _)
  | delNs subsys ns => exact pathOf_four hsub (hplain _ List.mem_cons_self) hns (plain_toString _)
  | setHost host => exact pathOf_one hhost
  | delHost hostnqn => exact pathOf_two hhost (hplain _ List.mem_cons_self)
  | linkHost subsys host => exact pathOf_three hsub (hplain _ List.mem_cons_self) hhost
  | unlinkHost subsys host =>
    exact pathOf_four hsub (hplain _ List.mem_cons_self) hhost (hplain _ (List.mem_cons_of_mem _ List.mem_cons_self))
  | linkPort subsys portid => exact pathOf_three hsub (hplain _ List.mem_cons_self) hportid
  | unlinkPort subsys portid => exact pathOf_four hsub (hplain _ List.mem_cons_self) hportid (plain_toString _)

/-! ## Out of band -/

section

variable {body name : String}

theorem postCall_portid (hb : body ≠ "") : postCall J [uriPortid, name] body = portidCall J (some name) body := by
  simp [postCall, hb, uriPortid, uriSubsystem]

theorem postCall_subsys (hb : body ≠ "") : postCall J [uriSubsystem] body = .ok (subsysCall J none body) := by
  simp [postCall, hb]

theorem postCall_host (hb : body ≠ "") : postCall J [uriHost] body = nqnCall J body .createHost := by
  simp [postCall, hb, uriHost, uriPortid, uriSubsystem]

theorem postCall_ns (hb : body ≠ "") :
    postCall J [uriSubsystem, name, uriNamespace] body = .ok (nsCall J name none body) := by
  simp [postCall, hb]

theorem postCall_nsid {nsid : String} (hb : body ≠ "") :
    postCall J [uriSubsystem, name, uriNamespace, nsid] body = .ok (nsCall J name (some nsid) body) := by
  simp [postCall, hb]

theorem postCall_linkHost (hb : body ≠ "") :
    postCall J [uriSubsystem, name, uriHost] body = nqnCall J body (.linkHostToSubsys name) := by
  simp [postCall, hb, uriHost, uriNamespace]

theorem postCall_linkPortid (hb : body ≠ "") :
    postCall J [uriSubsystem, name, uriPortid] body = .ok (linkPortidCall J name body) := by
  simp [postCall, hb, uriPortid, uriHost, uriNamespace]

end

theorem nqnCall_host {host : Host} {create : String → OpsCall} (h : J.loads (buildSetHostOob host.nqn) = some (hostValue host)) :
    nqnCall J (buildSetHostOob host.nqn) create = .ok (.call (create host.nqn)) := by
  rw [nqnCall, h]
  simp [hostValue, Json.objectGet, Json.stringValue]

/-- A namespace is called for by its identifier, wherever that stands. -/
theorem nsCall_value {subsys : String} {ns : Ns} {at? : Option String} (hnsid : IsInt ns.nsid) (hdevid : IsInt ns.devid)
    (hdevns : IsInt ns.devns) (hat : ∀ s, at? = some s → s = toString ns.nsid)
    (h : J.loads (buildSetNsOob ns) = some (nsValue ns)) :
    nsCall J subsys at? (buildSetNsOob ns) = .call (.createNs subsys ns.nsid ns.devid ns.devns) := by
  have hread : (at?.map (fun s => atoi s.toList)).or (((nsValue ns).objectGet tagNsid).map (fun obj => cInt obj.integerValue)) =
      some ns.nsid := by
    cases at? with
    | none =>
      simp [nsValue, Json.objectGet, Json.integerValue, cInt_of_isInt hnsid]
    | some s =>
      rw [hat s rfl, Option.map_some, atoi_toString hnsid]
      rfl
  rw [nsCall, h]
  simp only [hread]
  simp [nsValue, Json.objectGet, List.lookup_cons, Json.integerValue, tagNsid, tagDevid, tagDevnsid, cInt_of_isInt hdevid,
    cInt_of_isInt hdevns]

theorem body_ne (path body : String) (h : msg.oob = .post path body) : body ≠ "" := by
  cases msg <;> cases h <;> exact ne_empty_jsObject _

/-- Every request is one call. -/
theorem outcome_oob (hplain : ∀ name ∈ msg.names, Plain name) (hints : ∀ n ∈ msg.ints, IsInt n)
    (hallowed : ∀ portid, msg = .setPort portid → PortidAllowed portid)
    (hbody : ∀ path body, msg.oob = .post path body → J.loads body = some msg.value) :
    msg.oob.outcome J ("/" ++ msg.oob.path) = .ok (.call msg.oobCall) := by
  have hparts := (pathOf_oob hplain).parseUri
  have hne : ∀ path body, msg.oob = .post path body → body ≠ "" := body_ne
  cases msg with
  | setPort portid =>
    have hid : IsInt portid.portid := hints _ (by simp [Message.ints])
    have hnum : IsInt portid.portNum := hints _ (by simp [Message.ints])
    obtain ⟨hlo, hhi⟩ := hallowed portid rfl
    have hb := hbody _ _ rfl
    have hrange : ¬(atoi (toString portid.portid).toList < minPortid ∨ maxPortid < atoi (toString portid.portid).toList) := by
      rw [atoi_toString hid]
      omega
    show postCall J (parseUri ("/" ++ (Message.setPort portid).oob.path)) (buildSetPortOob portid) = _
    rw [hparts, Message.parts, postCall_portid (hne _ _ rfl), portidCall]
    simp only [if_neg hrange, hb]
    simp [Message.value, portValue, Json.objectGet, List.lookup_cons, Json.stringValue, Json.integerValue, flagField,
      cInt_of_isInt hnum, tagType, tagFamily, tagAddress, tagTrsvcid, tagTreq, Message.oobCall]
    exact atoi_toString hid
  | setSubsys subsys =>
    show postCall J (parseUri ("/" ++ (Message.setSubsys subsys).oob.path)) (buildSetSubsysOob subsys) = _
    rw [hparts, Message.parts, postCall_subsys (hne _ _ rfl), subsysCall, hbody _ _ rfl]
    have hnqn : (subsysValue subsys).strField tagSubnqn = some subsys.nqn := by
      simp [subsysValue, Json.strField, Json.objectGet, Json.stringValue]
    simp only [Message.value, hnqn, Option.none_or]
    rfl
  | configNs subsys ns =>
    show postCall J (parseUri ("/" ++ (Message.configNs subsys ns).oob.path)) (buildSetNsOob ns) = _
    rw [hparts, Message.parts, postCall_ns (hne _ _ rfl), nsCall_value (hints _ (by simp [Message.ints]))
      (hints _ (by simp [Message.ints])) (hints _ (by simp [Message.ints])) (by simp) (hbody _ _ rfl)]
    rfl
  | setNs subsys ns =>
    show postCall J (parseUri ("/" ++ (Message.setNs subsys ns).oob.path)) (buildSetNsOob ns) = _
    rw [hparts, Message.parts, postCall_nsid (hne _ _ rfl), nsCall_value (hints _ (by simp [Message.ints]))
      (hints _ (by simp [Message.ints])) (hints _ (by simp [Message.ints])) (by simp) (hbody _ _ rfl)]
    rfl
  | setHost host =>
    show postCall J (parseUri ("/" ++ (Message.setHost host).oob.path)) (buildSetHostOob host.nqn) = _
    rw [hparts, Message.parts, postCall_host (hne _ _ rfl), nqnCall_host (hbody _ _ rfl)]
    rfl
  | linkHost subsys host =>
    show postCall J (parseUri ("/" ++ (Message.linkHost subsys host).oob.path)) (buildSetHostOob host.nqn) = _
    rw [hparts, Message.parts, postCall_linkHost (hne _ _ rfl), nqnCall_host (hbody _ _ rfl)]
    rfl
  | linkPort subsys portid =>
    have hid : IsInt portid.portid := hints _ (by simp [Message.ints])
    show postCall J (parseUri ("/" ++ (Message.linkPort subsys portid).oob.path)) (buildSetPortidOob portid.portid) = _
    rw [hparts, Message.parts, postCall_linkPortid (hne _ _ rfl), linkPortidCall, hbody _ _ rfl]
    simp [Message.value, portidValue, Json.objectGet, Json.integerValue, cInt_of_isInt hid, Message.oobCall, Message.given]
  | delPort portid =>
    have hid : IsInt portid.portid := hints _ (by simp [Message.ints])
    show Except.ok (deleteCall (parseUri ("/" ++ (Message.delPort portid).oob.path))) = _
    rw [hparts]
    simp [Message.parts, deleteCall, uriPortid, uriSubsystem, uriConfig, Message.oobCall, Message.given]
    exact atoi_toString hid
  | unlinkPort subsys portid =>
    have hid : IsInt portid.portid := hints _ (by simp [Message.ints])
    show Except.ok (deleteCall (parseUri ("/" ++ (Message.unlinkPort subsys portid).oob.path))) = _
    rw [hparts]
    simp [Message.parts, deleteCall, uriPortid, uriNamespace, uriSubsystem, uriConfig, Message.oobCall, Message.given]
    exact atoi_toString hid
  | delNs subsys ns =>
    have hnsid : IsInt ns.nsid := hints _ (by simp [Message.ints])
    show Except.ok (deleteCall (parseUri ("/" ++ (Message.delNs subsys ns).oob.path))) = _
    rw [hparts]
    simp [Message.parts, deleteCall, uriNamespace, uriSubsystem, uriConfig, Message.oobCall, Message.given]
    exact atoi_toString hnsid
  | reset =>
    show Except.ok (deleteCall (parseUri ("/" ++ Message.reset.oob.path))) = _
    rw [hparts]
    rfl
  | delSubsys subsys =>
    show Except.ok (deleteCall (parseUri ("/" ++ (Message.delSubsys subsys).oob.path))) = _
    rw [hparts]
    rfl
  | delHost hostnqn =>
    show Except.ok (deleteCall (parseUri ("/" ++ (Message.delHost hostnqn).oob.path))) = _
    rw [hparts]
    simp [Message.parts, deleteCall, uriHost, uriPortid, uriSubsystem, uriConfig, Message.oobCall, Message.given]
  | unlinkHost subsys host =>
    show Except.ok (deleteCall (parseUri ("/" ++ (Message.unlinkHost subsys host).oob.path))) = _
    rw [hparts]
    simp [Message.parts, deleteCall, uriHost, uriPortid, uriNamespace, uriSubsystem, uriConfig, Message.oobCall, Message.given]

/-! ## Both -/

/-- The identifiers of ports in a message. -/
def Message.portids : Message → List Int
  | .setPort portid | .delPort portid | .linkPort _ portid | .unlinkPort _ portid => [portid.portid]
  | _ => []

/-- The accesses in a message. -/
def Message.accesses : Message → List Int
  | .setSubsys subsys => [subsys.access]
  | _ => []

/-- The values of a message fit the fields of a record and the buffer of a URI, and the manager allows the identifier of a port. -/
structure Message.FitsBoth (target : Target) (msg : Message) : Prop where
  nqns : ∀ nqn ∈ msg.nqns, NqnFits nqn
  ints : ∀ n ∈ msg.ints, IsInt n
  portids : ∀ id ∈ msg.portids, PortidFits id
  accesses : ∀ access ∈ msg.accesses, 0 ≤ access ∧ access < 2 ^ 8
  allowed : ∀ portid, msg = .setPort portid → PortidAllowed portid
  uri : UriFits target msg.oob.path

theorem inbCall_eq_oobCall_iff (hfits : msg.FitsBoth target) : msg.inbCall = msg.oobCall ↔ msg.SameArguments := by
  have hgiven := inbCall_eq_given_iff hfits.ints
  cases msg with
  | setPort portid => simp [Message.inbCall, Message.oobCall, Message.SameArguments, nvmfTreqNotRequired]
  | setSubsys subsys =>
    have haccess := toNat_ofInt_eq_iff.2 (hfits.accesses subsys.access List.mem_cons_self)
    simp only [Message.inbCall, Message.oobCall, Message.SameArguments, OpsCall.createSubsys.injEq, true_and, haccess]
    split <;> omega
  | delPort portid => exact hgiven.trans (iff_of_true (hfits.portids _ List.mem_cons_self) trivial)
  | linkPort subsys portid => exact hgiven.trans (iff_of_true (hfits.portids _ List.mem_cons_self) trivial)
  | unlinkPort subsys portid => exact hgiven.trans (iff_of_true (hfits.portids _ List.mem_cons_self) trivial)
  | reset => exact hgiven
  | delSubsys subsys => exact hgiven
  | configNs subsys ns => exact hgiven
  | setNs subsys ns => exact hgiven
  | delNs subsys ns => exact hgiven
  | setHost host => exact hgiven
  | delHost hostnqn => exact hgiven
  | linkHost subsys host => exact hgiven
  | unlinkHost subsys host => exact hgiven

theorem oobOutcome_eq (hfits : msg.FitsBoth target) (hplain : ∀ name ∈ msg.names, Plain name)
    (hreads : msg.ReadsAsWritten http J target) : msg.oobOutcome http J target = .ok (.call msg.oobCall) := by
  have hurl : uriTo target msg.oob.path = .ok (getUri target ++ msg.oob.path) := if_pos hfits.uri
  have hout := outcome_oob hplain hfits.ints hfits.allowed hreads.body
  simp only [Message.oobOutcome, hurl, hreads.uri, bind, Except.bind, hout]

end

/-! A port of a target, and a subsystem. -/

def linkMessage : Message := .linkPort { nqn := "nqn.s" } demoPort

def linkJson : JsonLib := JsonLib.ofTexts [(buildSetPortidOob demoPort.portid, portidValue demoPort)]

def portMessage : Message := .setPort demoPort

end Push

end NvmeDem
