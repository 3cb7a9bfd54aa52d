import NvmeDem.Dem.HostView
import NvmeDem.Dem.Requests

/-!
# The REST interface of the daemon

A request is handled with the JSON root locked. What its method and the parts of its URI ask for is looked up first (`Action`); a
request that changes the configuration writes the root to the file at its end, if it returns zero. A request that fails does not, and
one that reads does not either, although the walk that shows a host makes arrays that are absent (`ensureSubsystems`).
-/

namespace NvmeDem.Rest

open Jansson

/-! ## Requests -/

inductive Method where
  | get | put | post | delete | patch | options | other
  deriving DecidableEq, Repr

structure HttpRequest where
  method : Method
  uri : String
  /-- There is no signature, or it is the one of the daemon. -/
  authorized : Bool := true
  body : String := ""
  deriving DecidableEq, Repr

/-- What a request asks for: nothing that could change the root, a host to be shown, or a request on the configuration. -/
inductive Action where
  | nothing
  | showHost (host : String)
  | change (req : Request)
  deriving DecidableEq, Repr

def smallRsp : Nat := 128
def largeRsp : Nat := 512
def maxDepth : Nat := 8

def uriDem : String := "dem"
def uriV1 : String := "v1"
def uriGroup : String := "group"
def uriHost : String := "host"
def uriTarget : String := "target"
def uriSubsystem : String := "subsystem"
def uriPortid : String := "portid"
def uriNsid : String := "nsid"
def uriInterface : String := "interface"
def methodRefresh : String := "refresh"
def methodReconfig : String := "reconfig"

/-- The parts of a URI: what stands between its slashes. A URI that starts otherwise is taken to start with `http:/`. The array has
room for so many parts, and the place behind it is read when there are more. -/
def parseUri (uri : String) : Except Fault (List String) :=
  let p := uri.toList
  if p.head? ≠ some '/' ∧ p.length < 6 then .error .outOfBounds
  else
    let parts := (((if p.head? = some '/' then p else p.drop 6).splitOn '/').drop 1).map String.ofList
    if parts.length ≤ maxDepth then .ok parts else .error .outOfBounds

/-! ## Targets -/

def deleteTargetRequest (target : Option String) (p : List String) : Action :=
  match target, p with
  | target, [] => .change (.delTarget target)
  | some target, [kind, name] =>
    if kind = uriSubsystem then .change (.delSubsys target name)
    else if kind = uriPortid then
      if atoi name.toList = 0 then .nothing else .change (.delPortid target (atoi name.toList))
    else .nothing
  | some target, [kind, subnqn, item, name] =>
    if kind = uriSubsystem then
      if item = uriNsid then .change (.delNs target subnqn (atoi name.toList))
      else if item = uriHost then .change (.unlinkHost target subnqn name)
      else .nothing
    else .nothing
  | _, _ => .nothing

/-- A request on a subsystem of a target, after the part `subsystem` of the URI. -/
def putSubsystemRequest (target : String) (p : List String) (data : String) : Action :=
  match p with
  | [] => .change (.setSubsys target none data)
  | [subnqn] => .change (.setSubsys target (some subnqn) data)
  | subnqn :: item :: rest =>
    if rest.length ≤ 1 then
      if item = uriNsid then .change (.setNs target subnqn data)
      else if item = uriHost then .change (.linkHost target subnqn rest.head? data)
      else .nothing
    else .nothing

def putTargetRequest (target : Option String) (p : List String) (body : String) : Action :=
  let data := cCut largeRsp body
  match target, p with
  | target, [] => .change (.updateTarget target data)
  | some target, kind :: rest =>
    if kind = uriInterface then .change (.setInterface target data)
    else if kind = uriSubsystem then putSubsystemRequest target rest data
    else if kind = uriPortid then
      match rest with
      | [] => .change (.setPortid target 0 data)
      | [id] => if atoi id.toList = 0 then .nothing else .change (.setPortid target (atoi id.toList) data)
      | _ => .nothing
    else .nothing
  | none, _ => .nothing

/-- The body for a subsystem that is named in the URI alone, open to every host. -/
def openSubsysBody (name : Option String) : String :=
  "\x7b\"" ++ tagSubnqn ++ "\":\"" ++ cStr name ++ "\",\"" ++ tagAllowAny ++ "\":1\x7d"

def postTargetRequest (target : Option String) (p : List String) (body : String) : Except Fault Action :=
  if body ≠ "" then
    match target, p with
    -- The alias stands in the place of the body.
    | none, [] => .error .nullString
    | some target, [] => .ok (.change (.updateTarget (some target) target))
    | some target, kind :: rest =>
      if kind = uriSubsystem then .ok (.change (.setSubsys target rest.head? (cCut smallRsp body))) else .ok .nothing
    | none, _ => .ok .nothing
  else
    match target, p with
    | target, [] => .ok (.change (.addTarget target))
    | some target, kind :: rest =>
      if kind = methodReconfig then .ok (.change (.targetReconfig target))
      else if kind = methodRefresh then .ok (.change (.targetRefresh target))
      else if kind = uriSubsystem then
        if (openSubsysBody rest.head?).length ≤ smallRsp then
          .ok (.change (.setSubsys target none (openSubsysBody rest.head?)))
        else .error .outOfBounds
      else .ok .nothing
    | none, _ => .ok .nothing

def patchTargetRequest (target : Option String) (p : List String) (body : String) : Action :=
  if body = "" then .nothing
  else
    let data := cCut largeRsp body
    match target, p with
    | target, [] => .change (.updateTarget target data)
    | some target, kind :: rest =>
      if kind = uriSubsystem then .change (.setSubsys target rest.head? data) else .nothing
    | none, _ => .nothing

def handleTargetRequests (method : Method) (parts : List String) (body : String) : Except Fault Action :=
  let target := parts[1]?
  let p := parts.drop 2
  match method with
  | .put => .ok (putTargetRequest target p body)
  | .delete => .ok (deleteTargetRequest target p)
  | .post => postTargetRequest target p body
  | .patch => .ok (patchTargetRequest target p body)
  | _ => .ok .nothing

/-! ## Hosts -/

def getHostRequest (host : Option String) (p : List String) : Action :=
  match host, p with
  | some host, [] => .showHost host
  | _, _ => .nothing

def postHostRequest (host : Option String) (p : List String) (body : String) : Action :=
  if p ≠ [] then .nothing
  else if body = "" then .change (.addHost host)
  else .change (.updateHost host (cCut smallRsp body))

def patchHostRequest (host : Option String) (p : List String) (body : String) : Action :=
  if body ≠ "" ∧ host.isSome ∧ p = [] then .change (.updateHost host (cCut smallRsp body)) else .nothing

def handleHostRequests (method : Method) (parts : List String) (body : String) : Action :=
  let host := parts[1]?
  let p := parts.drop 2
  match method with
  | .get => getHostRequest host p
  | .put => if p = [] then .change (.updateHost host (cCut largeRsp body)) else .nothing
  | .delete => if p = [] then .change (.delHost host) else .nothing
  | .post => postHostRequest host p body
  | .patch => patchHostRequest host p body
  | _ => .nothing

/-! ## Groups, of whose URIs all parts are counted -/

def memberOf (kind : String) : Option Member :=
  if kind = uriHost then some .host else if kind = uriTarget then some .target else none

def putGroupRequest (group : Option String) (p : List String) (body : String) : Action :=
  match group, p with
  | some group, kind :: _ =>
    match memberOf kind with
    | some kind => .change (.setGroupMember group (some (cCut largeRsp body)) "" kind)
    | none => .nothing
  | group, _ => .change (.updateGroup group (cCut largeRsp body))

def postGroupRequest (group : Option String) (p : List String) : Action :=
  match group, p with
  | some group, [kind, name] =>
    match memberOf kind with
    | some kind => .change (.setGroupMember group none name kind)
    | none => .nothing
  | _, _ :: _ => .nothing
  | group, [] => .change (.addGroup group)

def deleteGroupRequest (group : Option String) (p : List String) : Except Fault Action :=
  match group, p with
  | some group, [] => .ok (.change (.delGroup group))
  | some group, kind :: rest =>
    match memberOf kind with
    | some kind => .ok (.change (.delGroupMember group rest.head? kind))
    | none => .ok .nothing
  | none, _ => .error .nullString

def handleGroupRequests (method : Method) (parts : List String) (body : String) : Except Fault Action :=
  let group := parts[1]?
  let p := parts.drop 2
  match method with
  | .put => .ok (putGroupRequest group p body)
  | .delete => deleteGroupRequest group p
  | .post => .ok (postGroupRequest group p)
  | .patch => .ok (.change (.updateGroup group (cCut largeRsp body)))
  | _ => .ok .nothing

/-! ## The daemon itself, whose requests change no configuration -/

def handleDemRequests (method : Method) (parts : List String) : Except Fault Action :=
  if method = .post ∧ parts[1]? = none then .error .nullString else .ok .nothing

/-! ## A request -/

/-- Whether a part starts as a name does. -/
def named (part name : String) : Bool := cCut name.length part == name

/-- What a request asks for. -/
def route (req : HttpRequest) : Except Fault Action :=
  if req.uri = "" ∨ req.method = .options ∨ req.authorized = false then .ok .nothing
  else do
    let parts ← parseUri req.uri
    match parts with
    | [] => .ok .nothing
    | part :: _ =>
      if named part uriDem then handleDemRequests req.method parts
      else if named part uriV1 then .ok .nothing
      else if named part uriGroup then handleGroupRequests req.method parts req.body
      else if named part uriHost then .ok (handleHostRequests req.method parts req.body)
      else if named part uriTarget then handleTargetRequests req.method parts req.body
      else .ok .nothing

/-- The daemon with its configuration file. -/
structure Server where
  dem : Daemon
  file : Json

/-- The root after a host was shown. -/
def showJsonHost (d : Daemon) (host : String) : Except Fault Json :=
  match d.root.objectGet tagHosts with
  | none => .ok d.root
  | some hosts =>
    match findArray hosts tagAlias host with
    | none => .ok d.root
    | some _ => (getHostSubsystems d.root d.lists host).map Prod.fst

def handleHttpRequest (J : JsonLib) (w : World) (req : HttpRequest) (s : Server) : Except Fault Server := do
  match ← route req with
  | .nothing => return s
  | .showHost host => return { s with dem := { s.dem with root := ← showJsonHost s.dem host } }
  | .change change =>
    let a ← change.run J w s.dem
    return { dem := a.dem, file := if a.ret = 0 then a.dem.root else s.file }

end NvmeDem.Rest
