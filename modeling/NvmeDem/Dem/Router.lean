import NvmeDem.Dem.Rest
import NvmeDem.Store.Listing

/-!
# The router with its pointers

The handlers of `restful.c` index into the array of the parts of a URI. The places behind the last part hold NULL. Here a part is
therefore an `Option`, and what a handler does with it is said as in the source: a comparison and `atoi` of NULL do not return, and a
function of the configuration is given its arguments as they are (`Call`). `Call.read` says which of them it reads without asking whether
they are NULL.
-/

namespace NvmeDem.Rest

/-! ## Calls -/

/-- A call of a function that does what a request asks for. -/
inductive Call where
  | getInterfaces
  | shutdownDem
  | updateSignature (data : String)
  | listTarget (query : Option String)
  | showTarget (target : Option String)
  | targetUsage (target : Option String)
  | targetLogpage (target : Option String)
  | delTarget (target : Option String)
  | delSubsys (target nqn : Option String)
  | delNs (target nqn : Option String) (nsid : Int)
  | unlinkHost (target nqn host : Option String)
  | delPortid (target : Option String) (portid : Int)
  | updateTarget (target data : Option String)
  | setInterface (target : Option String) (data : String)
  | setSubsys (target nqn : Option String) (data : String)
  | setNs (target nqn : Option String) (data : String)
  | linkHost (target nqn host : Option String) (data : String)
  | setPortid (target : Option String) (portid : Int) (data : String)
  | addTarget (target : Option String)
  | targetReconfig (target : Option String)
  | targetRefresh (target : Option String)
  | listHost
  | showHost (host : Option String)
  | hostLogpage (host : Option String)
  | delHost (host : Option String)
  | updateHost (host : Option String) (data : String)
  | addHost (host : Option String)
  | listGroup
  | showGroup (group : Option String)
  | updateGroup (group : Option String) (data : String)
  | setGroupMember (group data alias' : Option String) (kind : Member)
  | addGroup (group : Option String)
  | delGroup (group : Option String)
  | delGroupMember (group alias' : Option String) (kind : Member)
  deriving DecidableEq, Repr

/-- The arguments that the function reads whether or not they are NULL. The others mean something else when they are: an update without an
alias adds, a subsystem or a host without a name is named in the body. -/
def Call.read : Call → List (Option String)
  | .getInterfaces => []
  | .shutdownDem => []
  | .updateSignature _ => []
  | .listTarget _ => []
  | .showTarget target => [target]
  | .targetUsage target => [target]
  | .targetLogpage target => [target]
  | .delTarget target => [target]
  | .delSubsys target nqn => [target, nqn]
  | .delNs target nqn _ => [target, nqn]
  | .unlinkHost target nqn host => [target, nqn, host]
  | .delPortid target _ => [target]
  | .updateTarget _ data => [data]
  | .setInterface target _ => [target]
  | .setSubsys target _ _ => [target]
  | .setNs target nqn _ => [target, nqn]
  | .linkHost target nqn _ _ => [target, nqn]
  | .setPortid target _ _ => [target]
  | .addTarget target => [target]
  | .targetReconfig target => [target]
  | .targetRefresh target => [target]
  | .listHost => []
  | .showHost host => [host]
  | .hostLogpage host => [host]
  | .delHost host => [host]
  | .updateHost _ _ => []
  | .addHost host => [host]
  | .listGroup => []
  | .showGroup group => [group]
  | .updateGroup _ _ => []
  | .setGroupMember group data alias' _ => if data.isSome then [group] else [group, alias']
  | .addGroup group => [group]
  | .delGroup group => [group]
  | .delGroupMember group alias' _ => [group, alias']

/-- What a handler comes to: an answer of its own, or a call. A body may be made first from a part of the URI (`named`). -/
inductive Routed where
  | status (code : Int)
  | call (c : Call)
  | named (name : Option String) (c : Call)
  deriving DecidableEq, Repr

/-! ## Error codes -/

def httpErrNotFound : Int := 402
def httpErrInternal : Int := 403
def httpErrPageNotFound : Int := 404
def httpErrNotImplemented : Int := 405
def httpErrConflict : Int := 409
def httpErrConnectTimeout : Int := 599

def httpError (err : Int) : Int :=
  if err = 0 then 0
  else if err = -enoent then httpErrNotFound
  else if err = -eexist then httpErrConflict
  -- A connection that is refused, or that is not there.
  else if err = -111 ∨ err = -107 then httpErrConnectTimeout
  else httpErrInternal

def badRequest : Except Fault Routed := .ok (.status httpErrNotImplemented)

/-- A bad request whose return value is set to an error of its own. -/
def invalidRequest : Except Fault Routed := .ok (.status (httpError (-einval)))

/-! ## Parts -/

/-- Whether a part is this text, as `strcmp` says. -/
def strcmp (part : Option String) (text : String) : Except Fault Bool :=
  match part with
  | none => .error .nullString
  | some part => .ok (part == text)

def atoiPart (part : Option String) : Except Fault Int :=
  match part with
  | none => .error .nullString
  | some part => .ok (atoi part.toList)

def methodShutdown : String := "shutdown"
def uriSignature : String := "signature"
def uriUsage : String := "usage"
def uriLogPage : String := "logpage"

/-! ## The daemon itself -/

def getDemRequest (verb : Option String) : Except Fault Routed :=
  if verb ≠ none ∧ verb ≠ some "" then badRequest else .ok (.call .getInterfaces)

def postDemRequest (verb : Option String) (body : String) : Except Fault Routed := do
  if ← strcmp verb methodShutdown then return .call .shutdownDem
  if ← strcmp verb uriSignature then return .call (.updateSignature (cCut largeRsp body))
  badRequest

def routeDem (method : Method) (parts : List String) (body : String) : Except Fault Routed :=
  match method with
  | .get => getDemRequest parts[1]?
  | .post => postDemRequest parts[1]? body
  | _ => badRequest

/-! ## Targets: `p` are the parts behind the alias, `n` is how many there are -/

def getTargetPart (target : Option String) (p : List String) (n : Nat) (query : String) : Except Fault Routed := do
  if target = none ∨ target = some "" then
    if hasParm query uriParmMode ∧ parmModeLen < query.length then return .call (.listTarget (some query))
    if hasParm query uriParmFabric ∧ parmFabricLen < query.length then return .call (.listTarget (some query))
    return .call (.listTarget none)
  if n = 0 then return .call (.showTarget target)
  if n = 1 then
    if ← strcmp p[0]? uriUsage then return .call (.targetUsage target)
    if ← strcmp p[0]? uriLogPage then return .call (.targetLogpage target)
  return .status (httpError httpErrNotImplemented)

def deleteTargetPart (target : Option String) (p : List String) (n : Nat) : Except Fault Routed := do
  if n = 0 then return .call (.delTarget target)
  if ← strcmp p[0]? uriSubsystem then
    if n = 2 then return .call (.delSubsys target p[1]?)
    if n ≠ 4 then return ← invalidRequest
    if ← strcmp p[2]? uriNsid then return .call (.delNs target p[1]? (← atoiPart p[3]?))
    if ← strcmp p[2]? uriHost then return .call (.unlinkHost target p[1]? p[3]?)
    invalidRequest
  else if (← strcmp p[0]? uriPortid) ∧ n = 2 then
    let portid ← atoiPart p[1]?
    if portid = 0 then return ← invalidRequest
    return .call (.delPortid target portid)
  else invalidRequest

def putTargetPart (target : Option String) (p : List String) (n : Nat) (body : String) : Except Fault Routed := do
  let data := cCut largeRsp body
  if n = 0 then return .call (.updateTarget target (some data))
  if ← strcmp p[0]? uriInterface then return .call (.setInterface target data)
  if ← strcmp p[0]? uriSubsystem then
    if n ≤ 2 then return .call (.setSubsys target p[1]? data)
    if n ≤ 4 then
      if ← strcmp p[2]? uriNsid then return .call (.setNs target p[1]? data)
      if ← strcmp p[2]? uriHost then return .call (.linkHost target p[1]? p[3]? data)
    invalidRequest
  else if (← strcmp p[0]? uriPortid) ∧ n ≤ 2 then
    if n = 1 then return .call (.setPortid target 0 data)
    let portid ← atoiPart p[1]?
    if portid = 0 then return ← invalidRequest
    return .call (.setPortid target portid data)
  else invalidRequest

def postTargetPart (target : Option String) (p : List String) (n : Nat) (body : String) : Except Fault Routed := do
  if body ≠ "" then
    if n ≠ 0 then
      if ← strcmp p[0]? uriSubsystem then return .call (.setSubsys target p[1]? (cCut smallRsp body))
      invalidRequest
    -- The alias stands in the place of the body.
    else return .call (.updateTarget target target)
  else if n = 0 then return .call (.addTarget target)
  else
    if ← strcmp p[0]? methodReconfig then return .call (.targetReconfig target)
    if ← strcmp p[0]? methodRefresh then return .call (.targetRefresh target)
    if ← strcmp p[0]? uriSubsystem then
      if (openSubsysBody p[1]?).length ≤ smallRsp then
        return .named p[1]? (.setSubsys target none (openSubsysBody p[1]?))
      throw .outOfBounds
    invalidRequest

def patchTargetPart (target : Option String) (p : List String) (n : Nat) (body : String) : Except Fault Routed := do
  if body = "" then return ← invalidRequest
  let data := cCut largeRsp body
  if n ≠ 0 then
    if ← strcmp p[0]? uriSubsystem then return .call (.setSubsys target p[1]? data)
    invalidRequest
  else return .call (.updateTarget target (some data))

def routeTarget (method : Method) (parts : List String) (query body : String) : Except Fault Routed :=
  let target := parts[1]?
  let p := parts.drop 2
  let n := if parts.length > 2 then parts.length - 2 else 0
  match method with
  | .get => getTargetPart target p n query
  | .put => putTargetPart target p n body
  | .delete => deleteTargetPart target p n
  | .post => postTargetPart target p n body
  | .patch => patchTargetPart target p n body
  | _ => badRequest

/-! ## Hosts -/

def getHostPart (host : Option String) (p : List String) (n : Nat) : Except Fault Routed := do
  if host = none then return .call .listHost
  if n = 0 then return .call (.showHost host)
  if n = 1 then
    if ← strcmp p[0]? uriLogPage then return .call (.hostLogpage host)
  invalidRequest

def deleteHostPart (host : Option String) (n : Nat) : Except Fault Routed :=
  if n ≠ 0 then invalidRequest else .ok (.call (.delHost host))

def putHostPart (host : Option String) (n : Nat) (body : String) : Except Fault Routed :=
  if n ≠ 0 then invalidRequest else .ok (.call (.updateHost host (cCut largeRsp body)))

def postHostPart (host : Option String) (n : Nat) (body : String) : Except Fault Routed :=
  if n ≠ 0 then invalidRequest
  else if body = "" then .ok (.call (.addHost host))
  else .ok (.call (.updateHost host (cCut smallRsp body)))

def patchHostPart (host : Option String) (n : Nat) (body : String) : Except Fault Routed :=
  if body = "" then invalidRequest
  else if host ≠ none ∧ n = 0 then .ok (.call (.updateHost host (cCut smallRsp body)))
  else invalidRequest

def routeHost (method : Method) (parts : List String) (body : String) : Except Fault Routed :=
  let host := parts[1]?
  let p := parts.drop 2
  let n := if parts.length > 2 then parts.length - 2 else 0
  match method with
  | .get => getHostPart host p n
  | .put => putHostPart host n body
  | .delete => deleteHostPart host n
  | .post => postHostPart host n body
  | .patch => patchHostPart host n body
  | _ => badRequest

/-! ## Groups, of whose URIs all parts are counted -/

def getGroupPart (group : Option String) : Except Fault Routed :=
  if group = none then .ok (.call .listGroup) else .ok (.call (.showGroup group))

def putGroupPart (group : Option String) (p : List String) (n : Nat) (body : String) : Except Fault Routed := do
  let data := cCut largeRsp body
  if n ≤ 2 then return .call (.updateGroup group data)
  if ← strcmp p[0]? uriHost then return .call (.setGroupMember group (some data) none .host)
  if ← strcmp p[0]? uriTarget then return .call (.setGroupMember group (some data) none .target)
  return .status (httpError httpErrNotImplemented)

def postGroupPart (group : Option String) (p : List String) (n : Nat) : Except Fault Routed := do
  if n ≤ 2 then return .call (.addGroup group)
  if n = 4 then
    if ← strcmp p[0]? uriHost then return .call (.setGroupMember group none p[1]? .host)
    if ← strcmp p[0]? uriTarget then return .call (.setGroupMember group none p[1]? .target)
  return .status (httpError httpErrNotImplemented)

def deleteGroupPart (group : Option String) (p : List String) (n : Nat) : Except Fault Routed := do
  if n = 2 then return .call (.delGroup group)
  if ← strcmp p[0]? uriHost then return .call (.delGroupMember group p[1]? .host)
  if ← strcmp p[0]? uriTarget then return .call (.delGroupMember group p[1]? .target)
  return .status (httpError httpErrNotImplemented)

def patchGroupPart (group : Option String) (body : String) : Except Fault Routed :=
  .ok (.call (.updateGroup group (cCut largeRsp body)))

def routeGroup (method : Method) (parts : List String) (body : String) : Except Fault Routed :=
  let group := parts[1]?
  let p := parts.drop 2
  let n := parts.length
  match method with
  | .get => getGroupPart group
  | .put => putGroupPart group p n body
  | .delete => deleteGroupPart group p n
  | .post => postGroupPart group p n
  | .patch => patchGroupPart group body
  | _ => badRequest

/-! ## A request -/

/-- What the first part of a URI names, by how it starts. -/
inductive Resource where
  | dem | v1 | group | host | target
  deriving DecidableEq, Repr

def resource (part : String) : Option Resource :=
  if named part uriDem then some .dem
  else if named part uriV1 then some .v1
  else if named part uriGroup then some .group
  else if named part uriHost then some .host
  else if named part uriTarget then some .target
  else none

/-- What a request with these parts of its URI comes to. The requests under `v1` are answered without being looked at. -/
def routeParts (method : Method) (parts : List String) (query body : String) : Except Fault Routed :=
  match parts with
  | [] => .ok (.status httpErrPageNotFound)
  | part :: _ =>
    match resource part with
    | some .dem => routeDem method parts body
    | some .v1 => .ok (.status 0)
    | some .group => routeGroup method parts body
    | some .host => routeHost method parts body
    | some .target => routeTarget method parts query body
    | none => .ok (.status httpErrPageNotFound)

/-- What a call asks for. A string that is NULL where the function reads one does not come to a request. -/
def Call.action : Call → Except Fault Action
  | .showHost (some host) => .ok (.showHost host)
  | .delTarget target => .ok (.change (.delTarget target))
  | .delSubsys (some target) (some nqn) => .ok (.change (.delSubsys target nqn))
  | .delNs (some target) (some nqn) nsid => .ok (.change (.delNs target nqn nsid))
  | .unlinkHost (some target) (some nqn) (some host) => .ok (.change (.unlinkHost target nqn host))
  | .delPortid (some target) portid => .ok (.change (.delPortid target portid))
  | .updateTarget target (some data) => .ok (.change (.updateTarget target data))
  | .setInterface (some target) data => .ok (.change (.setInterface target data))
  | .setSubsys (some target) nqn data => .ok (.change (.setSubsys target nqn data))
  | .setNs (some target) (some nqn) data => .ok (.change (.setNs target nqn data))
  | .linkHost (some target) (some nqn) host data => .ok (.change (.linkHost target nqn host data))
  | .setPortid (some target) portid data => .ok (.change (.setPortid target portid data))
  | .addTarget target => .ok (.change (.addTarget target))
  | .targetReconfig (some target) => .ok (.change (.targetReconfig target))
  | .targetRefresh (some target) => .ok (.change (.targetRefresh target))
  | .delHost host => .ok (.change (.delHost host))
  | .updateHost host data => .ok (.change (.updateHost host data))
  | .addHost host => .ok (.change (.addHost host))
  | .updateGroup group data => .ok (.change (.updateGroup group data))
  | .setGroupMember (some group) (some data) _ kind => .ok (.change (.setGroupMember group (some data) "" kind))
  | .setGroupMember (some group) none (some alias') kind => .ok (.change (.setGroupMember group none alias' kind))
  | .addGroup group => .ok (.change (.addGroup group))
  | .delGroup (some group) => .ok (.change (.delGroup group))
  | .delGroupMember (some group) alias' kind => .ok (.change (.delGroupMember group alias' kind))
  -- The others change nothing.
  | .getInterfaces => .ok .nothing
  | .shutdownDem => .ok .nothing
  | .updateSignature _ => .ok .nothing
  | .listTarget _ => .ok .nothing
  | .showTarget (some _) => .ok .nothing
  | .targetUsage (some _) => .ok .nothing
  | .targetLogpage (some _) => .ok .nothing
  | .listHost => .ok .nothing
  | .hostLogpage (some _) => .ok .nothing
  | .listGroup => .ok .nothing
  | .showGroup (some _) => .ok .nothing
  | _ => .error .nullString

def Routed.action : Routed → Except Fault Action
  | .status _ => .ok .nothing
  | .call c => c.action
  | .named _ c => c.action

end NvmeDem.Rest
