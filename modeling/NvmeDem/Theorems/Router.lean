import NvmeDem.Dem.Router
import NvmeDem.Lemmas.Groups

/-!
# Parts of a URI that are not there

A URI may have fewer parts than the handler of its method reads. Most handlers look at the number of parts first, or take an absent name for
a name that the body has. The requests in `Lacks` are the others: a part that is not there is compared, is written into a body, or is given
to a function that reads it (`router_proper_iff`).

What the calls of the router ask for is what the requests of the model are looked up by (`route_eq`).
-/

namespace NvmeDem.Rest

open Jansson

/-- No part that is not there is read, and an answer of the router itself is an error. -/
def Proper : Except Fault Routed → Prop
  | .error fault => fault ≠ .nullString
  | .ok (.status code) => code ≠ 0
  | .ok (.call c) => none ∉ c.read
  | .ok (.named name c) => name ≠ none ∧ none ∉ c.read

/-- A daemon with a host. -/
def hostDaemon : Daemon where
  root := .object [(tagHosts, .array [.object [(tagAlias, .string "h")]])]
  lists := {}

/-- A daemon with a group, which has a host and a target. -/
def groupDaemon : Daemon where
  root := .object [(tagGroups, .array [.object [(tagName, .string "g"), (tagTargets, .array [.string "t"]),
    (tagHosts, .array [.string "h"])]])]
  lists := { groupList := [{ ptr := 1, name := "g" }] }

/-! ## Rules -/

section

variable {α : Type}

@[simp] theorem strcmp_none_bind (text : String) (f : Bool → Except Fault α) : (strcmp none text >>= f) = .error .nullString := rfl

@[simp] theorem strcmp_some_bind (part text : String) (f : Bool → Except Fault α) :
    (strcmp (some part) text >>= f) = f (part == text) := rfl

@[simp] theorem atoiPart_none_bind (f : Int → Except Fault α) : (atoiPart none >>= f) = .error .nullString := rfl

@[simp] theorem atoiPart_some_bind (part : String) (f : Int → Except Fault α) :
    (atoiPart (some part) >>= f) = f (atoi part.toList) := rfl

@[simp] theorem error_bind {β : Type} (fault : Fault) (f : β → Except Fault α) : (Except.error fault >>= f) = .error fault := rfl

@[simp] theorem pure_eq_ok (a : α) : (pure a : Except Fault α) = .ok a := rfl

@[simp] theorem throw_eq_error (fault : Fault) : (throw fault : Except Fault α) = .error fault := rfl

end

theorem httpErrors_ne_zero : httpErrNotImplemented ≠ 0 ∧ httpErrPageNotFound ≠ 0 ∧ httpError (-einval) ≠ 0 ∧
    httpError httpErrNotImplemented ≠ 0 := by decide

@[simp] theorem proper_badRequest : Proper badRequest := httpErrors_ne_zero.1

@[simp] theorem proper_invalidRequest : Proper invalidRequest := httpErrors_ne_zero.2.2.1

@[simp] theorem proper_notImplemented : Proper (.ok (.status (httpError httpErrNotImplemented))) := httpErrors_ne_zero.2.2.2

@[simp] theorem proper_error {fault : Fault} : Proper (.error fault) ↔ fault ≠ .nullString := Iff.rfl

@[simp] theorem proper_call {c : Call} : Proper (.ok (.call c)) ↔ none ∉ c.read := Iff.rfl

@[simp] theorem proper_named {name : Option String} {c : Call} : Proper (.ok (.named name c)) ↔ name ≠ none ∧ none ∉ c.read := Iff.rfl

@[simp] theorem invalidRequest_bind {α : Type} (f : Routed → Except Fault α) :
    (invalidRequest >>= f) = f (.status (httpError (-einval))) := rfl

@[simp] theorem proper_invalid : Proper (.ok (.status (httpError (-einval)))) := httpErrors_ne_zero.2.2.1

@[simp] theorem proper_ite {c : Prop} [Decidable c] {a b : Except Fault Routed} :
    Proper (if c then a else b) ↔ (c → Proper a) ∧ (¬c → Proper b) := by
  split <;> simp_all

variable {method : Method} {part name query body : String} {rest p : List String} {target : Option String} {n : Nat}

attribute [local simp] Call.read Call.action Routed.action

/-- How many parts are behind the alias. -/
theorem partCount : (if (part :: name :: p).length > 2 then (part :: name :: p).length - 2 else 0) = p.length := by
  rcases p with _ | ⟨a, p⟩ <;> simp

theorem proper_getTarget : Proper (getTargetPart (some name) p p.length query) := by
  rcases p with _ | ⟨a, _ | ⟨b, p⟩⟩ <;> simp [getTargetPart]

theorem proper_deleteTarget : Proper (deleteTargetPart (some name) p p.length) := by
  rcases p with _ | ⟨a, _ | ⟨b, _ | ⟨c, _ | ⟨d, _ | ⟨e, p⟩⟩⟩⟩⟩ <;> simp [deleteTargetPart]

theorem proper_putTarget : Proper (putTargetPart (some name) p p.length body) := by
  rcases p with _ | ⟨a, _ | ⟨b, _ | ⟨c, _ | ⟨d, _ | ⟨e, p⟩⟩⟩⟩⟩ <;> simp [putTargetPart]

/-- A post without a body names the subsystem in the URI alone. -/
theorem proper_postTarget_iff :
    Proper (postTargetPart (some name) p p.length body) ↔ ¬(body = "" ∧ p = [uriSubsystem]) := by
  have hkinds : methodReconfig ≠ uriSubsystem ∧ methodRefresh ≠ uriSubsystem := by decide
  rcases p with _ | ⟨a, _ | ⟨b, p⟩⟩
  · simp [postTargetPart]
  · simp [postTargetPart]
    constructor
    · intro h hbody hkind
      subst hkind
      have hroom : (openSubsysBody none).length ≤ smallRsp := by decide
      exact absurd (h hbody (Ne.symm hkinds.1) (Ne.symm hkinds.2) rfl) (Nat.not_lt.mpr hroom)
    · intro h hbody _ _ hkind
      exact absurd hkind (h hbody)
  · simp [postTargetPart]

theorem proper_patchTarget : Proper (patchTargetPart (some name) p p.length body) := by
  rcases p with _ | ⟨a, p⟩ <;> simp [patchTargetPart]

theorem proper_target_iff : Proper (routeTarget method (part :: rest) query body) ↔
    ¬((rest = [] ∧ (method = .delete ∨ method = .post)) ∨
      (method = .post ∧ body = "" ∧ ∃ name, rest = [name, uriSubsystem])) := by
  rcases rest with _ | ⟨name, p⟩
  · cases method <;> simp [routeTarget, getTargetPart, putTargetPart, deleteTargetPart, postTargetPart, patchTargetPart]
  · unfold routeTarget
    rw [partCount]
    cases method
    · simpa using proper_getTarget
    · simpa using proper_putTarget
    · simpa using proper_postTarget_iff
    · simpa using proper_deleteTarget
    · simpa using proper_patchTarget
    · simp
    · simp

theorem proper_dem_iff : Proper (routeDem method (part :: rest) body) ↔ ¬(rest = [] ∧ method = .post) := by
  rcases rest with _ | ⟨verb, rest⟩ <;> cases method <;> simp [routeDem, getDemRequest, postDemRequest]

theorem proper_host_iff : Proper (routeHost method (part :: rest) body) ↔
    ¬(rest = [] ∧ (method = .delete ∨ (method = .post ∧ body = ""))) := by
  rcases rest with _ | ⟨name, _ | ⟨a, _ | ⟨b, p⟩⟩⟩ <;> cases method <;>
    simp [routeHost, getHostPart, putHostPart, deleteHostPart, postHostPart, patchHostPart]

theorem proper_group_iff : Proper (routeGroup method (part :: rest) body) ↔
    ¬((rest = [] ∧ (method = .delete ∨ method = .post)) ∨
      (method = .delete ∧ ∃ name kind, rest = [name, kind] ∧ (kind = uriHost ∨ kind = uriTarget))) := by
  rcases rest with _ | ⟨name, _ | ⟨a, _ | ⟨b, _ | ⟨c, p⟩⟩⟩⟩ <;> cases method <;>
    simp [routeGroup, getGroupPart, putGroupPart, deleteGroupPart, postGroupPart, patchGroupPart]
  exact fun hhost => Or.inl hhost

/-! ## The functions of the configuration -/

/-- The functions do read the arguments: with NULL, and a store in which there is something to compare with, they do not return. -/
theorem read_null (J : JsonLib) (w : World) :
    (Request.delTarget none).run J w bareDaemon = .error .nullString ∧
      (Request.addTarget none).run J w bareDaemon = .error .nullString ∧
      (Request.delHost none).run J w hostDaemon = .error .nullString ∧
      (Request.addHost none).run J w hostDaemon = .error .nullString ∧
      (Request.addGroup none).run J w groupDaemon = .error .nullString ∧
      ∀ kind, (Request.delGroupMember "g" none kind).run J w groupDaemon = .error .nullString := by
  refine ⟨rfl, rfl, rfl, rfl, rfl, fun kind => ?_⟩
  cases kind <;> rfl

/-! ## What the calls ask for -/

@[simp] theorem action_invalidRequest : invalidRequest >>= Routed.action = .ok .nothing := rfl

@[simp] theorem action_badRequest : badRequest >>= Routed.action = .ok .nothing := rfl

@[simp] theorem ok_action_bind (r : Routed) : ((.ok r : Except Fault Routed) >>= Routed.action) = r.action := rfl

@[simp] theorem ite_action_bind {c : Prop} [Decidable c] (a b : Except Fault Routed) :
    ((if c then a else b) >>= Routed.action) = if c then a >>= Routed.action else b >>= Routed.action := by
  split <;> rfl

theorem action_dem : (routeDem method (part :: rest) body >>= Routed.action) = handleDemRequests method (part :: rest) := by
  rcases rest with _ | ⟨verb, rest⟩ <;> cases method <;>
    simp [routeDem, getDemRequest, postDemRequest, handleDemRequests]

theorem action_host : (routeHost method (part :: rest) body >>= Routed.action) = .ok (handleHostRequests method (part :: rest) body) := by
  rcases rest with _ | ⟨name, _ | ⟨a, _ | ⟨b, p⟩⟩⟩ <;> cases method <;>
    simp [routeHost, getHostPart, putHostPart, deleteHostPart, postHostPart, patchHostPart, handleHostRequests, getHostRequest,
      postHostRequest, patchHostRequest] <;> split_ifs <;> rfl

theorem action_group : (routeGroup method (part :: rest) body >>= Routed.action) = handleGroupRequests method (part :: rest) body := by
  rcases rest with _ | ⟨name, _ | ⟨a, _ | ⟨b, _ | ⟨c, p⟩⟩⟩⟩ <;> cases method <;>
    simp [routeGroup, getGroupPart, putGroupPart, deleteGroupPart, postGroupPart, patchGroupPart, handleGroupRequests, putGroupRequest,
      postGroupRequest, deleteGroupRequest, memberOf] <;> split_ifs <;> rfl

theorem action_getTarget : (getTargetPart (some name) p p.length query >>= Routed.action) = .ok .nothing := by
  rcases p with _ | ⟨a, _ | ⟨b, p⟩⟩ <;> simp [getTargetPart]

theorem action_putTarget :
    (putTargetPart (some name) p p.length body >>= Routed.action) = .ok (putTargetRequest (some name) p body) := by
  rcases p with _ | ⟨a, _ | ⟨b, _ | ⟨c, _ | ⟨d, _ | ⟨e, p⟩⟩⟩⟩⟩ <;>
    simp [putTargetPart, putTargetRequest, putSubsystemRequest] <;> split_ifs <;> first | rfl | omega

theorem action_deleteTarget :
    (deleteTargetPart (some name) p p.length >>= Routed.action) = .ok (deleteTargetRequest (some name) p) := by
  rcases p with _ | ⟨a, _ | ⟨b, _ | ⟨c, _ | ⟨d, _ | ⟨e, p⟩⟩⟩⟩⟩ <;>
    simp [deleteTargetPart, deleteTargetRequest] <;> split_ifs <;> rfl

theorem action_postTarget :
    (postTargetPart (some name) p p.length body >>= Routed.action) = postTargetRequest (some name) p body := by
  rcases p with _ | ⟨a, p⟩
  · simp [postTargetPart, postTargetRequest]
  · by_cases hroom : (openSubsysBody p.head?).length ≤ smallRsp <;>
      simp [postTargetPart, postTargetRequest, Routed.action, Call.action, ← List.head?_eq_getElem?, hroom]

theorem action_patchTarget :
    (patchTargetPart (some name) p p.length body >>= Routed.action) = .ok (patchTargetRequest (some name) p body) := by
  rcases p with _ | ⟨a, p⟩ <;> 
    simp [patchTargetPart, patchTargetRequest, Routed.action, Call.action, ← List.head?_eq_getElem?] <;> split_ifs <;> rfl

theorem action_target :
    (routeTarget method (part :: rest) query body >>= Routed.action) = handleTargetRequests method (part :: rest) body := by
  rcases rest with _ | ⟨name, p⟩
  · cases method <;> simp [routeTarget, getTargetPart, putTargetPart, deleteTargetPart, postTargetPart, patchTargetPart,
      handleTargetRequests, putTargetRequest, deleteTargetRequest, postTargetRequest, patchTargetRequest]
    split <;> rfl
  · unfold routeTarget
    rw [partCount]
    cases method
    · exact action_getTarget
    · exact action_putTarget
    · exact action_postTarget
    · exact action_deleteTarget
    · exact action_patchTarget
    · rfl
    · rfl

/-- The router does what the requests of the model are looked up by. -/
theorem route_eq {req : HttpRequest} (query : String) (h : ¬(req.uri = "" ∨ req.method = .options ∨ req.authorized = false)) :
    route req = parseUri req.uri >>= fun parts => routeParts req.method parts query req.body >>= Routed.action := by
  unfold route
  rw [if_neg h]
  refine congrArg (fun f => parseUri req.uri >>= f) (funext fun parts => ?_)
  rcases parts with _ | ⟨part, rest⟩
  · rfl
  · have hdem := @action_dem req.method part req.body rest
    have hgroup := @action_group req.method part req.body rest
    have hhost := @action_host req.method part req.body rest
    have htarget := @action_target req.method part query req.body rest
    unfold routeParts resource
    dsimp only
    by_cases hd : named part uriDem = true
    · simp only [if_pos hd, hdem]
    · by_cases hv : named part uriV1 = true
      · simp only [if_neg hd, if_pos hv]
        rfl
      · by_cases hg : named part uriGroup = true
        · simp only [if_neg hd, if_neg hv, if_pos hg, hgroup]
        · by_cases hh : named part uriHost = true
          · simp only [if_neg hd, if_neg hv, if_neg hg, if_pos hh, hhost]
          · by_cases ht : named part uriTarget = true
            · simp only [if_neg hd, if_neg hv, if_neg hg, if_neg hh, if_pos ht, htarget]
            · simp only [if_neg hd, if_neg hv, if_neg hg, if_neg hh, if_neg ht]
              rfl

/-! ## When a part that is not there is read -/

/-- The first part names the daemon, a group, a host or a target. -/
def Known (parts : List String) : Prop := ∃ r, parts.head?.bind resource = some r ∧ r ≠ .v1

/-- The requests with too few parts: the shutdown of the daemon without a verb; the deletion or addition of a group, a host or a target
without a name; the deletion of a member of a group without the member, and the addition of a subsystem without its NQN. -/
def Lacks (method : Method) (parts : List String) (body : String) : Prop :=
  match parts with
  | [] => False
  | part :: rest =>
    match resource part with
    | some .dem => rest = [] ∧ method = .post
    | some .group => (rest = [] ∧ (method = .delete ∨ method = .post)) ∨
        (method = .delete ∧ ∃ name kind, rest = [name, kind] ∧ (kind = uriHost ∨ kind = uriTarget))
    | some .host => rest = [] ∧ (method = .delete ∨ (method = .post ∧ body = ""))
    | some .target => (rest = [] ∧ (method = .delete ∨ method = .post)) ∨
        (method = .post ∧ body = "" ∧ ∃ name, rest = [name, uriSubsystem])
    | _ => False

/-- Such a request is not answered. -/
theorem delete_without_target : ¬Proper (routeParts .delete ["target"] "" "") ∧
    ∀ (J : JsonLib) (w : World) (file : Json),
      handleHttpRequest J w { method := .delete, uri := "/target" } { dem := bareDaemon, file := file } = .error .nullString := by
  refine ⟨fun h => ?_, fun _ _ _ => rfl⟩
  exact h List.mem_cons_self

/-- No part that is not there is read exactly when the request lacks none. -/
theorem router_proper_iff (method : Method) (parts : List String) (query body : String) (h : Known parts) :
    Proper (routeParts method parts query body) ↔ ¬Lacks method parts body := by
  obtain ⟨r, hr, hv⟩ := h
  rcases parts with _ | ⟨part, rest⟩
  · cases hr
  · have hresource : resource part = some r := hr
    unfold routeParts Lacks
    simp only [hresource]
    cases r with
    | dem => exact proper_dem_iff
    | v1 => exact absurd rfl hv
    | group => exact proper_group_iff
    | host => exact proper_host_iff
    | target => exact proper_target_iff

theorem proper_two_parts : Proper (routeParts .delete ["target", "t"] "" "") :=
  (router_proper_iff .delete ["target", "t"] "" "" ⟨.target, by decide, by decide⟩).mpr (by
    unfold Lacks
    have hresource : resource "target" = some .target := by decide
    simp [hresource])

end NvmeDem.Rest
