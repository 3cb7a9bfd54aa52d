import NvmeDem.Cli.Main

/-!
# What a command asks for

The purpose of the commands, without URLs and buffers: which functions of the daemon a command asks for with which arguments (`asks`). The
help text of a command says as much. Between the two are the requests before they are printed (`wishes`): the words of a URL behind the
entity, the body and the room that the client and the daemon have for it.
-/

namespace NvmeDem.Cli

open Rest Push

/-! ## Requests before they are printed -/

structure Wish where
  method : Method
  parts : List String
  body : String := ""
  /-- The size of the buffer that the body is printed into. -/
  room : Nat := dataSize
  /-- How much of the body the daemon copies. -/
  copied : Nat := largeRsp
  /-- A body that the daemon makes of the URL. -/
  made : String := ""
  deriving DecidableEq, Repr

def Wish.url (base : String) (wish : Wish) : String := "/".intercalate (base :: wish.parts)

def Wish.printed (base : String) (wish : Wish) : HttpCall := { method := wish.method, url := wish.url base, body := wish.body }

/-- Nothing of a request is cut, neither by the client nor by the daemon. -/
structure Wish.Fits (base : String) (wish : Wish) : Prop where
  url : (wish.url base).length < urlSize
  body : wish.body.length < wish.room
  copied : wish.body.length ≤ wish.copied
  made : wish.made.length ≤ smallRsp

instance (base : String) (wish : Wish) : Decidable (wish.Fits base) :=
  decidable_of_iff
    ((wish.url base).length < urlSize ∧ wish.body.length < wish.room ∧ wish.body.length ≤ wish.copied ∧
      wish.made.length ≤ smallRsp)
    ⟨fun h => ⟨h.1, h.2.1, h.2.2.1, h.2.2.2⟩, fun h => ⟨h.url, h.body, h.copied, h.made⟩⟩

/-! ## Bodies -/

def nameBody (tag name : String) : String := jsObject [jsStr tag name]

def localBody : String := jsObject [jsStr tagMgmtMode tagLocalMgmt]

def inbBody (type family address port : String) : String :=
  jsObject [jsStr tagMgmtMode tagInBandMgmt,
    jsTag tagInterface (jsObject [jsStr tagType type, jsStr tagFamily family, jsStr tagAddress address,
      jsIndx tagTrsvcid (atoi port.toList)])]

def oobBody (family address port : String) : String :=
  jsObject [jsStr tagMgmtMode tagOutOfBandMgmt,
    jsTag tagInterface (jsObject [jsStr tagIffamily family, jsStr tagIfaddress address, jsIndx tagIfport (atoi port.toList)])]

def portBody (type family address trsvcid : String) : String :=
  jsObject [jsStr tagType type, jsStr tagFamily family, jsStr tagAddress address, jsIndx tagTrsvcid (atoi trsvcid.toList)]

def newPortBody (portid type family address trsvcid : String) : String :=
  jsObject [jsIndx tagPortid (atoi portid.toList), jsStr tagType type, jsStr tagFamily family, jsStr tagAddress address,
    jsIndx tagTrsvcid (atoi trsvcid.toList)]

def nsBody (nsid devid devnsid : String) : String :=
  jsObject [jsIndx tagNsid (atoi nsid.toList), jsIndx tagDevid (devidOf devid), jsIndx tagDevnsid (atoi devnsid.toList)]

/-! ## The requests of a command -/

/-- The requests of a command with these words. There are none for a command with too few of them. -/
def Command.wishes : Command → List String → List Wish
  | .demConfig, _ => [{ method := .get, parts := [] }]
  | .demShutdown, _ => [{ method := .post, parts := [methodShutdown] }]
  | .listGroup, _ => [{ method := .get, parts := [] }]
  | .addGroup, name :: _ => [{ method := .post, parts := [name] }]
  | .setGroup, name :: _ => [{ method := .put, parts := [], body := nameBody tagName name }]
  | .getGroup, name :: _ => [{ method := .get, parts := [name] }]
  | .delGroup, names => names.map (fun name => { method := .delete, parts := [name] })
  | .renameGroup, old :: new :: _ =>
    [{ method := .patch, parts := [old], body := "\x7b" ++ jsStr tagName new ++ " \x7d" }]
  | .listTarget, _ => [{ method := .get, parts := [] }]
  | .addTarget, alias' :: _ => [{ method := .post, parts := [alias'] }]
  | .setTarget, alias' :: _ => [{ method := .put, parts := [], body := nameBody tagAlias alias' }]
  | .getTarget, alias' :: _ => [{ method := .get, parts := [alias'] }]
  | .delTarget, names => names.map (fun alias' => { method := .delete, parts := [alias'] })
  | .setLocalMgmt, alias' :: _ => [{ method := .patch, parts := [alias'], body := localBody }]
  | .setInbMgmt, alias' :: type :: family :: address :: port :: _ =>
    [{ method := .patch, parts := [alias'], body := inbBody type family address port }]
  | .setOobMgmt, alias' :: family :: address :: port :: _ =>
    [{ method := .patch, parts := [alias'], body := oobBody family address port }]
  | .setRefresh, alias' :: refresh :: _ =>
    [{ method := .patch, parts := [alias'], body := jsObject [jsIndx tagRefresh (atoi refresh.toList)] }]
  | .renameTarget, old :: new :: _ => [{ method := .patch, parts := [old], body := nameBody tagAlias new }]
  | .refreshTarget, alias' :: _ => [{ method := .post, parts := [alias', methodRefresh] }]
  | .reconfigTarget, alias' :: _ => [{ method := .post, parts := [alias', methodReconfig] }]
  | .usageTarget, alias' :: _ => [{ method := .get, parts := [alias', uriUsage] }]
  | .linkTarget, alias' :: group :: _ => [{ method := .post, parts := [group, uriTarget, alias'] }]
  | .unlinkTarget, alias' :: group :: _ => [{ method := .delete, parts := [group, uriTarget, alias'] }]
  | .addSubsys, alias' :: nqn :: _ => [{ method := .post, parts := [alias', uriSubsystem, nqn], made := openSubsysBody (some nqn) }]
  | .setSubsys, alias' :: nqn :: allowAny :: _ =>
    [{ method := .put, parts := [alias', uriSubsystem],
       body := jsObject [jsStr tagSubnqn nqn, jsIndx tagAllowAny (atoi allowAny.toList)] }]
  | .editSubsys, alias' :: nqn :: allowAny :: _ =>
    [{ method := .put, parts := [alias', uriSubsystem, nqn], body := jsObject [jsIndx tagAllowAny (atoi allowAny.toList)] }]
  | .delSubsys, alias' :: nqns => nqns.map (fun nqn => { method := .delete, parts := [alias', uriSubsystem, nqn] })
  | .renameSubsys, alias' :: old :: new :: _ =>
    [{ method := .patch, parts := [alias', uriSubsystem, old], body := nameBody tagSubnqn new }]
  | .setPortid, alias' :: portid :: type :: family :: address :: trsvcid :: _ =>
    [{ method := .put, parts := [alias', uriPortid], body := newPortBody portid type family address trsvcid }]
  | .editPortid, alias' :: portid :: type :: family :: address :: trsvcid :: _ =>
    [{ method := .put, parts := [alias', uriPortid, toString (atoi portid.toList)], body := portBody type family address trsvcid }]
  | .delPortid, alias' :: portids => portids.map (fun portid => { method := .delete, parts := [alias', uriPortid, portid] })
  | .setAcl, alias' :: ss :: host :: _ =>
    [{ method := .put, parts := [alias', uriSubsystem, ss, uriHost], body := nameBody tagAlias host, room := aclDataSize }]
  | .delAcl, alias' :: ss :: hosts =>
    hosts.map (fun host => { method := .delete, parts := [alias', uriSubsystem, ss, uriHost, host] })
  | .setNs, alias' :: subsys :: nsid :: devid :: devnsid :: _ =>
    [{ method := .put, parts := [alias', uriSubsystem, subsys, uriNsid], body := nsBody nsid devid devnsid }]
  | .delNs, alias' :: subsys :: nsids =>
    nsids.map (fun nsid => { method := .delete, parts := [alias', uriSubsystem, subsys, uriNsid, toString (atoi nsid.toList)] })
  | .listHost, _ => [{ method := .get, parts := [] }]
  | .addHost, alias' :: _ => [{ method := .post, parts := [alias'] }]
  | .getHost, alias' :: _ => [{ method := .get, parts := [alias'] }]
  | .setHost, alias' :: nqn :: _ =>
    [{ method := .put, parts := [], body := jsObject [jsStr tagAlias alias', jsStr tagHostnqn nqn] }]
  | .editHost, alias' :: nqn :: _ => [{ method := .put, parts := [alias'], body := nameBody tagHostnqn nqn }]
  | .delHost, names => names.map (fun alias' => { method := .delete, parts := [alias'] })
  | .renameHost, old :: new :: _ =>
    [{ method := .patch, parts := [old], body := nameBody tagAlias new, copied := smallRsp }]
  | .linkHost, alias' :: group :: _ => [{ method := .post, parts := [group, uriHost, alias'] }]
  | .unlinkHost, alias' :: group :: _ => [{ method := .delete, parts := [group, uriHost, alias'] }]
  | _, _ => []

/-! ## What a command is for -/

/-- There is no port zero. -/
def askPort (portid : Int) (c : Call) : Routed := if portid = 0 then .status (httpError (-einval)) else .call c

/-- The functions of the daemon that a command with these words is for. -/
def Command.asks : Command → List String → List Routed
  | .demConfig, _ => [.call .getInterfaces]
  | .demShutdown, _ => [.call .shutdownDem]
  | .listGroup, _ => [.call .listGroup]
  | .addGroup, name :: _ => [.call (.addGroup (some name))]
  | .setGroup, name :: _ => [.call (.updateGroup none (nameBody tagName name))]
  | .getGroup, name :: _ => [.call (.showGroup (some name))]
  | .delGroup, names => names.map (fun name => .call (.delGroup (some name)))
  | .renameGroup, old :: new :: _ => [.call (.updateGroup (some old) ("\x7b" ++ jsStr tagName new ++ " \x7d"))]
  | .listTarget, _ => [.call (.listTarget none)]
  | .addTarget, alias' :: _ => [.call (.addTarget (some alias'))]
  | .setTarget, alias' :: _ => [.call (.updateTarget none (some (nameBody tagAlias alias')))]
  | .getTarget, alias' :: _ => [.call (.showTarget (some alias'))]
  | .delTarget, names => names.map (fun alias' => .call (.delTarget (some alias')))
  | .setLocalMgmt, alias' :: _ => [.call (.updateTarget (some alias') (some localBody))]
  | .setInbMgmt, alias' :: type :: family :: address :: port :: _ =>
    [.call (.updateTarget (some alias') (some (inbBody type family address port)))]
  | .setOobMgmt, alias' :: family :: address :: port :: _ =>
    [.call (.updateTarget (some alias') (some (oobBody family address port)))]
  | .setRefresh, alias' :: refresh :: _ =>
    [.call (.updateTarget (some alias') (some (jsObject [jsIndx tagRefresh (atoi refresh.toList)])))]
  | .renameTarget, old :: new :: _ => [.call (.updateTarget (some old) (some (nameBody tagAlias new)))]
  | .refreshTarget, alias' :: _ => [.call (.targetRefresh (some alias'))]
  | .reconfigTarget, alias' :: _ => [.call (.targetReconfig (some alias'))]
  | .usageTarget, alias' :: _ => [.call (.targetUsage (some alias'))]
  | .linkTarget, alias' :: group :: _ => [.call (.setGroupMember (some group) none (some alias') .target)]
  | .unlinkTarget, alias' :: group :: _ => [.call (.delGroupMember (some group) (some alias') .target)]
  | .addSubsys, alias' :: nqn :: _ => [.named (some nqn) (.setSubsys (some alias') none (openSubsysBody (some nqn)))]
  | .setSubsys, alias' :: nqn :: allowAny :: _ =>
    [.call (.setSubsys (some alias') none (jsObject [jsStr tagSubnqn nqn, jsIndx tagAllowAny (atoi allowAny.toList)]))]
  | .editSubsys, alias' :: nqn :: allowAny :: _ =>
    [.call (.setSubsys (some alias') (some nqn) (jsObject [jsIndx tagAllowAny (atoi allowAny.toList)]))]
  | .delSubsys, alias' :: nqns => nqns.map (fun nqn => .call (.delSubsys (some alias') (some nqn)))
  | .renameSubsys, alias' :: old :: new :: _ => [.call (.setSubsys (some alias') (some old) (nameBody tagSubnqn new))]
  | .setPortid, alias' :: portid :: type :: family :: address :: trsvcid :: _ =>
    [.call (.setPortid (some alias') 0 (newPortBody portid type family address trsvcid))]
  | .editPortid, alias' :: portid :: type :: family :: address :: trsvcid :: _ =>
    [askPort (atoi portid.toList) (.setPortid (some alias') (atoi portid.toList) (portBody type family address trsvcid))]
  | .delPortid, alias' :: portids =>
    portids.map (fun portid => askPort (atoi portid.toList) (.delPortid (some alias') (atoi portid.toList)))
  | .setAcl, alias' :: ss :: host :: _ => [.call (.linkHost (some alias') (some ss) none (nameBody tagAlias host))]
  | .delAcl, alias' :: ss :: hosts => hosts.map (fun host => .call (.unlinkHost (some alias') (some ss) (some host)))
  | .setNs, alias' :: subsys :: nsid :: devid :: devnsid :: _ =>
    [.call (.setNs (some alias') (some subsys) (nsBody nsid devid devnsid))]
  | .delNs, alias' :: subsys :: nsids => nsids.map (fun nsid => .call (.delNs (some alias') (some subsys) (atoi nsid.toList)))
  | .listHost, _ => [.call .listHost]
  | .addHost, alias' :: _ => [.call (.addHost (some alias'))]
  | .getHost, alias' :: _ => [.call (.showHost (some alias'))]
  | .setHost, alias' :: nqn :: _ =>
    [.call (.updateHost none (jsObject [jsStr tagAlias alias', jsStr tagHostnqn nqn]))]
  | .editHost, alias' :: nqn :: _ => [.call (.updateHost (some alias') (nameBody tagHostnqn nqn))]
  | .delHost, names => names.map (fun alias' => .call (.delHost (some alias')))
  | .renameHost, old :: new :: _ => [.call (.updateHost (some old) (nameBody tagAlias new))]
  | .linkHost, alias' :: group :: _ => [.call (.setGroupMember (some group) none (some alias') .host)]
  | .unlinkHost, alias' :: group :: _ => [.call (.delGroupMember (some group) (some alias') .host)]
  | _, _ => []

/-- The commands that delete, whose requests may fail without it being looked at. -/
def Command.deletes : Command → Bool
  | .delGroup | .delTarget | .delSubsys | .delPortid | .delAcl | .delNs | .delHost => true
  | _ => false

/-- The commands that may be called off. -/
def Command.asksFirst : Command → Bool
  | .unlinkTarget | .unlinkHost => true
  | cmd => cmd.deletes

/-- What stands before the names in the URLs of a command that deletes by name, for the words before the names. -/
def Command.before : Command → List String → Option (List String)
  | .delGroup, [] => some []
  | .delTarget, [] => some []
  | .delHost, [] => some []
  | .delSubsys, [alias'] => some [alias', uriSubsystem]
  | .delAcl, [alias', ss] => some [alias', uriSubsystem, ss, uriHost]
  | _, _ => none

/-! ## The daemon at the other end -/

/-- What the daemon does for a request on its configuration. -/
def carryOut (J : JsonLib) (w : World) (routed : Routed) (s : Server) : Except Fault Server := do
  match ← routed.action with
  | .nothing => return s
  | .showHost host => return { s with dem := { s.dem with root := ← showJsonHost s.dem host } }
  | .change change =>
    let a ← change.run J w s.dem
    return { dem := a.dem, file := if a.ret = 0 then a.dem.root else s.file }

/-- A request goes to the daemon if the HTTP library makes a URI of its URL. The client does not see whether the daemon could serve it. -/
def serve (http : HttpLib) (J : JsonLib) (w : World) (call : HttpCall) (s : Server) : Except Fault (Int × Server) :=
  match http.uri call.url with
  | none => .ok (-einval, s)
  | some uri => (handleHttpRequest J w { method := call.method, uri := uri, body := call.body } s).map (fun s => (0, s))

end NvmeDem.Cli
