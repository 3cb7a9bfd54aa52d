import NvmeDem.Cli.Asks
import NvmeDem.Lemmas.ReconfigOob

/-!
# What the commands of the client come to

A command makes the requests that it wishes, each printed into the buffers (`run_eq`). The daemon takes the URL of each apart again and
calls what the command is for (`route_wishes`).
-/

namespace NvmeDem.Cli

open Rest Push

/-! ## Buffers -/

variable {base text : String} {size : Nat}

theorem snprintf_of_lt (h : text.length < size) : snprintf size text = text := cCut_of_le (by omega)

theorem toList_snprintf : (snprintf size text).toList = text.toList.take (size - 1) := by
  unfold snprintf cCut
  rw [String.toList_ofList]

/-- What was cut before need not be cut there. -/
theorem snprintf_append (rest : String) : snprintf size (snprintf size text ++ rest) = snprintf size (text ++ rest) := by
  apply String.toList_inj.mp
  rw [toList_snprintf, toList_snprintf, String.toList_append, String.toList_append, toList_snprintf, List.take_append,
    List.take_append, List.take_take, List.length_take, Nat.min_self]
  rcases Nat.le_total text.toList.length (size - 1) with hle | hle
  · rw [Nat.min_eq_right hle]
  · rw [Nat.min_eq_left hle, Nat.sub_self, Nat.sub_eq_zero_of_le hle]

theorem sendBuffer_of_lt (h : text.length < size) : sendBuffer size text = .ok text := if_pos h

/-- A request as it is made. -/
def Wish.send (base : String) (wish : Wish) : Except Fault HttpCall := do
  return { method := wish.method, url := snprintf urlSize (wish.url base), body := ← sendBuffer wish.room wish.body }

theorem Wish.Fits.send {wish : Wish} (h : wish.Fits base) : wish.send base = .ok (wish.printed base) := by
  unfold Wish.send
  rw [sendBuffer_of_lt h.body, snprintf_of_lt h.url]
  rfl

theorem mapM_ok {α β : Type} {f : α → Except Fault β} {g : α → β} {l : List α} (h : ∀ x ∈ l, f x = .ok (g x)) :
    l.mapM f = .ok (l.map g) := by
  induction l with
  | nil => rfl
  | cons x l ih =>
    rw [List.mapM_cons, h x List.mem_cons_self, ih (fun y hy => h y (List.mem_cons_of_mem x hy))]
    rfl

/-! ## The table -/

/-- How many words a command reads. -/
def Command.words : Command → Nat
  | .demConfig | .demShutdown | .listGroup | .listTarget | .listHost => 0
  | .addGroup | .setGroup | .getGroup | .delGroup | .addTarget | .setTarget | .getTarget | .delTarget | .setLocalMgmt
  | .refreshTarget | .reconfigTarget | .usageTarget | .addHost | .getHost | .delHost => 1
  | .renameGroup | .setRefresh | .renameTarget | .linkTarget | .unlinkTarget | .addSubsys | .delSubsys | .delPortid | .setHost
  | .editHost | .renameHost | .linkHost | .unlinkHost => 2
  | .setSubsys | .editSubsys | .renameSubsys | .setAcl | .delAcl | .delNs => 3
  | .setOobMgmt => 4
  | .setInbMgmt | .setNs => 5
  | .setPortid | .editPortid => 6

def Command.entity : Command → Entity
  | .demConfig | .demShutdown => .dem
  | .listGroup | .addGroup | .setGroup | .getGroup | .delGroup | .renameGroup | .linkTarget | .unlinkTarget | .linkHost
  | .unlinkHost => .group
  | .listHost | .addHost | .getHost | .setHost | .editHost | .delHost | .renameHost => .host
  | _ => .target

theorem verbList_words : ∀ v ∈ verbList, v.function.words = v.numArgs.natAbs ∧ v.function.entity = v.target := by decide +kernel

/-! ## Runs -/

variable {prompt : Prompt} {p : List String}

/-- The plan of one request. -/
def single (ignores : Bool) (call : HttpCall) : Plan := { calls := [call], ignores := ignores }

theorem sendBuffer_empty : sendBuffer dataSize "" = .ok "" := sendBuffer_of_lt (by decide)

theorem send_bare {wish : Wish} (h : wish.body = "") (hroom : 0 < wish.room) :
    wish.send base = .ok { method := wish.method, url := snprintf urlSize (wish.url base) } := by
  unfold Wish.send
  rw [h, sendBuffer_of_lt hroom]
  rfl

theorem execPut_eq (url data : String) :
    execPut url size data = (sendBuffer size data).map (fun body => single false { method := .put, url := url, body := body }) := by
  unfold execPut
  cases sendBuffer size data <;> rfl

theorem execPatch_eq (url data : String) :
    execPatch url size data =
      (sendBuffer size data).map (fun body => single false { method := .patch, url := url, body := body }) := by
  unfold execPatch
  cases sendBuffer size data <;> rfl

/-- The plan of these requests, as they are made. -/
def sendAll (base : String) (wishes : List Wish) (ignores : Bool) : Except Fault Plan :=
  (wishes.mapM (Wish.send base)).map (fun calls => { calls := calls, ignores := ignores })

theorem sendAll_single (wish : Wish) (ignores : Bool) :
    sendAll base [wish] ignores =
      (sendBuffer wish.room wish.body).map
        (fun body => single ignores { method := wish.method, url := urlOf base wish.parts, body := body }) := by
  unfold sendAll
  rw [List.mapM_cons]
  unfold Wish.send
  cases sendBuffer wish.room wish.body <;> rfl

/-- A command that deletes makes the requests that it wishes. -/
theorem deleteAll_eq (names : List String) (parts : String → List String) :
    deleteAll prompt (names.map (fun name => urlOf base (parts name))) =
      if prompt.cancels then .ok .nothing
      else sendAll base (names.map (fun name => { method := .delete, parts := parts name })) true := by
  unfold deleteAll sendAll
  rw [mapM_ok (g := fun wish => { method := wish.method, url := snprintf urlSize (wish.url base) })]
  · by_cases hc : prompt.cancels = true
    · simp only [hc, if_true]
    · simp only [hc, if_false, List.map_map, Bool.false_eq_true]
      rfl
  · intro wish hwish
    obtain ⟨name, -, rfl⟩ := List.mem_map.mp hwish
    exact send_bare rfl (show 0 < dataSize by decide)

theorem map_ok {α β : Type} (f : α → β) (a : α) : (Except.ok a : Except Fault α).map f = .ok (f a) := rfl

/-- A command makes the requests that it wishes, unless it is called off. -/
theorem run_eq {cmd : Command} (hwords : cmd.words ≤ p.length) (hbase : base.length < urlSize) :
    cmd.run prompt base p =
      if cmd.asksFirst && prompt.cancels then .ok .nothing else sendAll base (cmd.wishes p) cmd.deletes := by
  have hself : base = urlOf base [] := by
    unfold urlOf
    rw [String.intercalate_singleton, snprintf_of_lt hbase]
  cases cmd <;> simp only [Command.words] at hwords <;>
    -- A list with too few words is none of these.
    (repeat (rcases p with _ | ⟨_, p⟩; · simp at hwords; done)) <;>
    simp only [Command.run, Command.wishes, Command.asksFirst, Command.deletes, Bool.true_and, Bool.false_and,
      Bool.false_eq_true, if_false, sendAll_single, sendBuffer_empty, map_ok]
  case delGroup | delTarget | delHost => exact deleteAll_eq _ (fun name => [name])
  case delSubsys => exact deleteAll_eq _ (fun nqn => [_, uriSubsystem, nqn])
  case delPortid => exact deleteAll_eq _ (fun portid => [_, uriPortid, portid])
  case delAcl => exact deleteAll_eq _ (fun host => [_, uriSubsystem, _, uriHost, host])
  case delNs.cons.cons.cons alias' subsys nsid =>
    have hurl : ∀ nsid, urlOf (urlOf base [alias', uriSubsystem, subsys, uriNsid]) [nsid] =
        urlOf base [alias', uriSubsystem, subsys, uriNsid, nsid] := by
      intro nsid
      have hcut := @snprintf_append ("/".intercalate [base, alias', uriSubsystem, subsys, uriNsid]) urlSize ("/" ++ nsid)
      simpa only [urlOf, String.intercalate_cons_cons, String.intercalate_singleton, String.append_assoc] using hcut
    unfold Cli.delNs
    simp only [hurl]
    rw [← deleteAll_eq (nsid :: p) (fun nsid => [alias', uriSubsystem, subsys, uriNsid, toString (atoi nsid.toList)])]
  case demConfig | listGroup | listTarget | listHost =>
    exact congrArg (fun url => Except.ok (single false { method := .get, url := url })) hself
  case setGroup | setTarget | setHost =>
    rw [← hself]
    exact execPut_eq _ _
  case setSubsys | editSubsys | setPortid | editPortid | setAcl | setNs | editHost => exact execPut_eq _ _
  case renameGroup | setLocalMgmt | setInbMgmt | setOobMgmt | setRefresh | renameTarget | renameSubsys | renameHost =>
    exact execPatch_eq _ _
  all_goals rfl

/-! ## Routes -/

/-- What the daemon makes of a request. -/
def Wish.routed (entity : Entity) (wish : Wish) : Except Fault Routed :=
  routeParts wish.method (groups entity :: wish.parts) "" wish.body

/-- The resource of the daemon that an object is. -/
def Entity.resource : Entity → Resource
  | .dem => .dem
  | .target => .target
  | .host => .host
  | .group => .group

theorem resource_groups (entity : Entity) : resource (groups entity) = some entity.resource := by
  cases entity <;> decide

theorem mapM_one {α β : Type} (f : α → Except Fault β) (a : α) : [a].mapM f = (f a).map (fun b => [b]) := by
  rw [List.mapM_cons]
  cases f a <;> rfl

theorem mapM_routed {entity : Entity} {method : Method} {names : List String} (parts : String → List String)
    {call : String → Routed} (h : ∀ name, routeParts method (groups entity :: parts name) "" "" = .ok (call name)) :
    (names.map (fun name => ({ method := method, parts := parts name } : Wish))).mapM (Wish.routed entity) =
      .ok (names.map call) := by
  induction names with
  | nil => rfl
  | cons name names ih =>
    rw [List.map_cons, List.mapM_cons, ih]
    unfold Wish.routed
    dsimp only
    rw [h name]
    rfl

/-- The daemon reads a number that the client has printed. -/
theorem atoi_atoi (word : String) : atoi (toString (atoi word.toList)).toList = atoi word.toList := atoi_toString (isInt_atoi _)

theorem route_editPortid (alias' word body : String) (hbody : body.length ≤ largeRsp) :
    routeTarget .put [groups .target, alias', uriPortid, toString (atoi word.toList)] "" body =
      .ok (askPort (atoi word.toList) (.setPortid (some alias') (atoi word.toList) body)) := by
  have hread := atoi_atoi word
  generalize toString (atoi word.toList) = text at hread ⊢
  unfold askPort
  by_cases hzero : atoi word.toList = 0 <;>
    simp [routeTarget, putTargetPart, strcmp, atoiPart, Rest.uriInterface, Rest.uriSubsystem, Rest.uriPortid, uriPortid, hread, hzero,
      cCut_of_le hbody, invalidRequest, bind, Except.bind, pure, Except.pure]

/-- What a deletion inside a target comes to. -/
theorem route_delPortid (alias' word : String) :
    routeParts .delete [groups .target, alias', uriPortid, word] "" "" =
      .ok (askPort (atoi word.toList) (.delPortid (some alias') (atoi word.toList))) := by
  unfold askPort
  by_cases hzero : atoi word.toList = 0 <;>
    simp [routeParts, resource_groups, Entity.resource, routeTarget, deleteTargetPart, strcmp, atoiPart, Rest.uriSubsystem, Rest.uriPortid, uriPortid,
      hzero, invalidRequest, bind, Except.bind, pure, Except.pure]

theorem route_delSubsys (alias' nqn : String) :
    routeParts .delete [groups .target, alias', uriSubsystem, nqn] "" "" = .ok (.call (.delSubsys (some alias') (some nqn))) := by
  simp [routeParts, resource_groups, Entity.resource, routeTarget, deleteTargetPart, strcmp, Rest.uriSubsystem, uriSubsystem, bind, Except.bind, pure,
    Except.pure]

theorem route_delAcl (alias' ss host : String) :
    routeParts .delete [groups .target, alias', uriSubsystem, ss, uriHost, host] "" "" =
      .ok (.call (.unlinkHost (some alias') (some ss) (some host))) := by
  simp [routeParts, resource_groups, Entity.resource, routeTarget, deleteTargetPart, strcmp, Rest.uriSubsystem, uriSubsystem, Rest.uriNsid,
    Rest.uriHost, uriHost, bind, Except.bind, pure, Except.pure]

theorem route_delNs (alias' subsys word : String) :
    routeParts .delete [groups .target, alias', uriSubsystem, subsys, uriNsid, toString (atoi word.toList)] "" "" =
      .ok (.call (.delNs (some alias') (some subsys) (atoi word.toList))) := by
  have hread := atoi_atoi word
  generalize toString (atoi word.toList) = text at hread ⊢
  simp [routeParts, resource_groups, Entity.resource, routeTarget, deleteTargetPart, strcmp, atoiPart, Rest.uriSubsystem, uriSubsystem, Rest.uriNsid,
    uriNsid, hread, bind, Except.bind, pure, Except.pure]

/-- The daemon calls what a command is for. -/
theorem route_wishes {cmd : Command} (hwords : cmd.words ≤ p.length) (hne : ∀ word ∈ p, word ≠ "")
    (hfits : ∀ wish ∈ cmd.wishes p, wish.body.length ≤ wish.copied ∧ wish.made.length ≤ smallRsp) :
    (cmd.wishes p).mapM (Wish.routed cmd.entity) = .ok (cmd.asks p) := by
  cases cmd <;> simp only [Command.words] at hwords <;>
    (repeat (rcases p with _ | ⟨_, p⟩; · simp at hwords; done)) <;>
    simp only [Command.wishes, Command.asks, Command.entity, mapM_one, Wish.routed, routeParts, resource_groups,
      Entity.resource, List.forall_mem_singleton] at hfits ⊢
  case delGroup => exact mapM_routed (fun name => [name]) (fun _ => rfl)
  case delTarget => exact mapM_routed (fun name => [name]) (fun _ => rfl)
  case delHost => exact mapM_routed (fun name => [name]) (fun _ => rfl)
  case delSubsys => exact mapM_routed _ (route_delSubsys _)
  case delPortid => exact mapM_routed _ (route_delPortid _)
  case delAcl => exact mapM_routed _ (route_delAcl _ _)
  case delNs => exact mapM_routed _ (route_delNs _ _)
  case editPortid => rw [route_editPortid _ _ _ hfits.1, map_ok]
  all_goals
    have hcopy := hfits.1
    have hmade := hfits.2
    have hjs : ∀ fields, jsObject fields ≠ "" := ne_empty_jsObject
    have hname : ∀ tag name, nameBody tag name ≠ "" := fun _ _ => ne_empty_jsObject _
    have hinb : ∀ type family address port, inbBody type family address port ≠ "" := fun _ _ _ _ => ne_empty_jsObject _
    have hoob : ∀ family address port, oobBody family address port ≠ "" := fun _ _ _ => ne_empty_jsObject _
    have hlocal : localBody ≠ "" := ne_empty_jsObject _
    simp only [ne_eq, List.mem_cons, forall_eq_or_imp] at hne
    simp [routeDem, getDemRequest, postDemRequest, routeGroup, getGroupPart, putGroupPart, postGroupPart, deleteGroupPart,
      patchGroupPart, routeTarget, getTargetPart, putTargetPart, postTargetPart, patchTargetPart, routeHost, getHostPart,
      putHostPart, postHostPart, patchHostPart, strcmp, Rest.uriHost, Rest.uriTarget, Rest.uriSubsystem,
      Rest.uriPortid, Rest.uriNsid, Rest.uriInterface, Rest.methodShutdown, methodShutdown, methodReconfig, methodRefresh, uriUsage,
      uriHost, uriSubsystem, uriPortid, uriNsid, map_ok, cCut_of_le hcopy, bind, Except.bind, pure, Except.pure, hne, hjs,
      hname, hinb, hoob, hlocal, hmade]

/-! ## Requests that are served -/

/-- A word that is a part of a URL and stays one: no character is special, and it is not left out as a dot segment is. -/
structure IsWord (word : String) : Prop where
  plain : Plain word
  ne_empty : word ≠ ""
  ne_dot : word ≠ "."
  ne_dots : word ≠ ".."

instance (word : String) : Decidable (IsWord word) :=
  decidable_of_iff (Plain word ∧ word ≠ "" ∧ word ≠ "." ∧ word ≠ "..")
    ⟨fun h => ⟨h.1, h.2.1, h.2.2.1, h.2.2.2⟩, fun h => ⟨h.plain, h.ne_empty, h.ne_dot, h.ne_dots⟩⟩

def Client.server (c : Client) : String := s!"http://{c.demServer}:{c.demPort}"

/-- The HTTP library hands over the path of a URL at the daemon. -/
def Reaches (http : HttpLib) (c : Client) : Prop :=
  ∀ parts : List String, parts ≠ [] → (∀ part ∈ parts, IsWord part) →
    http.uri ("/".intercalate (c.server :: parts)) = some ("/" ++ "/".intercalate parts)

/-- A number has a last digit. -/
theorem getLast?_toString (n : Int) : ∃ c, (toString n).toList.getLast? = some c ∧ c.isDigit = true := by
  have hnat : ∀ m : Nat, ∃ c, m.repr.toList.getLast? = some c ∧ c.isDigit = true := by
    intro m
    have hne : m.repr.toList ≠ [] := by
      rw [Nat.toList_repr]
      exact Nat.toDigits_ne_nil
    refine ⟨_, List.getLast?_eq_getLast_of_ne_nil hne, ?_⟩
    have hmem := List.getLast_mem hne
    simp only [Nat.toList_repr] at hmem ⊢
    exact Nat.isDigit_of_mem_toDigits (by decide) (by decide) hmem
  cases n with
  | ofNat m => exact hnat m
  | negSucc m =>
    obtain ⟨c, hc, hdigit⟩ := hnat (m + 1)
    have hrepr : toString (Int.negSucc m) = "-" ++ (m + 1).repr := rfl
    rw [hrepr, String.toList_append]
    exact ⟨c, by rw [List.getLast?_append, hc]; rfl, hdigit⟩

theorem isWord_toString (n : Int) : IsWord (toString n) := by
  obtain ⟨c, hc, hdigit⟩ := getLast?_toString n
  have hne : ∀ text : String, text.toList.getLast?.any Char.isDigit = false → toString n ≠ text := by
    intro text htext heq
    rw [heq] at hc
    rw [hc, Option.any_some, hdigit] at htext
    cases htext
  exact ⟨plain_toString n, hne "" (by decide), hne "." (by decide), hne ".." (by decide)⟩

theorem wish_shape {cmd : Command} (hwords : cmd.words ≤ p.length) (h : ∀ word ∈ p, IsWord word) :
    ∀ wish ∈ cmd.wishes p, wish.method ≠ .options ∧ wish.parts.length ≤ 5 ∧ ∀ part ∈ wish.parts, IsWord part := by
  have hmethods : IsWord methodShutdown ∧ IsWord methodRefresh ∧ IsWord methodReconfig ∧ IsWord uriUsage := by decide
  have huris : IsWord uriTarget ∧ IsWord uriHost ∧ IsWord uriSubsystem ∧ IsWord uriPortid ∧ IsWord uriNsid := by decide
  have hnum : ∀ word : String, IsWord (atoi word.toList).repr := fun word => isWord_toString _
  cases cmd <;> simp only [Command.words] at hwords <;>
    (repeat (rcases p with _ | ⟨_, p⟩; · simp at hwords; done)) <;>
    (try simp only [List.forall_mem_cons] at h) <;>
    simp +contextual [Command.wishes, h, hmethods, huris, hnum]

/-- The daemon takes a URL apart again. -/
theorem parseUri_parts {parts : List String} (hne : parts ≠ []) (hlen : parts.length ≤ maxDepth) (h : ∀ part ∈ parts, IsWord part) :
    Rest.parseUri ("/" ++ "/".intercalate parts) = .ok parts := by
  have htext : ("/" ++ "/".intercalate parts).toList = ['/'].intercalate ([] :: parts.map String.toList) := by
    rw [List.intercalate_cons_of_ne_nil (by simpa using hne), String.toList_append, String.toList_intercalate]
    rfl
  have hsplit : ("/" ++ "/".intercalate parts).toList.splitOn '/' = [] :: parts.map String.toList := by
    rw [htext]
    refine List.splitOn_intercalate '/' ?_ (by simp)
    intro l hl hslash
    rcases List.mem_cons.1 hl with rfl | hl
    · exact List.not_mem_nil hslash
    · obtain ⟨part, hpart, rfl⟩ := List.mem_map.1 hl
      exact not_slash_of_plainChar ((h part hpart).plain _ hslash) rfl
  have hhead : ("/" ++ "/".intercalate parts).toList.head? = some '/' := by rw [String.toList_append]; rfl
  generalize "/" ++ "/".intercalate parts = uri at hsplit hhead ⊢
  unfold Rest.parseUri
  dsimp only
  rw [hhead, if_neg (by simp), if_pos rfl, hsplit]
  simp [hlen]

end NvmeDem.Cli
