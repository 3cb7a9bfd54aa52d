import NvmeDem.Dem.Router
import NvmeDem.Lemmas.Asked

/-!
# The methods that update

A target and a host that are in the store are updated with PUT, POST and PATCH. The three read one body, and do not do the same: a POST on a
target gives its alias in the place of the body, and a POST or a PATCH on a host reads as much of the body as the smaller of two buffers
holds. They agree in every state if and only if what is read asks for the same (`methods_agree_iff`).
-/

namespace NvmeDem.Rest

open Jansson

/-- What a request on the configuration returns, and what a request leaves. -/
def handleReturn (J : JsonLib) (w : World) (req : HttpRequest) (s : Server) : Except Fault (Option Int × Server) := do
  match ← route req with
  | .nothing => return (none, s)
  | .showHost host => return (none, { s with dem := { s.dem with root := ← showJsonHost s.dem host } })
  | .change change =>
    let a ← change.run J w s.dem
    return (some (httpError a.ret), { dem := a.dem, file := if a.ret = 0 then a.dem.root else s.file })

theorem handleReturn_snd (J : JsonLib) (w : World) (req : HttpRequest) (s : Server) :
    (handleReturn J w req s).map Prod.snd = handleHttpRequest J w req s := by
  unfold handleReturn handleHttpRequest
  cases route req with
  | error f => rfl
  | ok action =>
    cases action with
    | nothing => rfl
    | showHost host =>
      simp only [bind, Except.bind]
      cases showJsonHost s.dem host <;> rfl
    | change change =>
      simp only [bind, Except.bind]
      cases change.run J w s.dem <;> rfl

def targetRequest (name body : String) (method : Method) : HttpRequest :=
  { method := method, uri := "/" ++ uriTarget ++ "/" ++ name, body := body }

def hostRequest (name body : String) (method : Method) : HttpRequest :=
  { method := method, uri := "/" ++ uriHost ++ "/" ++ name, body := body }

/-- The three methods return the same and leave the same. -/
def Agree (J : JsonLib) (w : World) (s : Server) (request : Method → HttpRequest) : Prop :=
  handleReturn J w (request .put) s = handleReturn J w (request .post) s ∧
    handleReturn J w (request .put) s = handleReturn J w (request .patch) s

def InStore (tag name : String) (s : Server) : Prop := (findArray (s.dem.root.arrayOr tag) tagAlias name).isSome = true

/-! ## What the handlers call -/

section

variable {J : JsonLib} {w : World} {s : Server} {name body kind : String}

theorem parseUri_two (hkind : '/' ∉ kind.toList) (hname : '/' ∉ name.toList) :
    parseUri ("/" ++ kind ++ "/" ++ name) = .ok [kind, name] := by
  have htext : ("/" ++ kind ++ "/" ++ name).toList = ['/'].intercalate [[], kind.toList, name.toList] := by
    simp [List.intercalate, String.toList_append]
  have hsplit : ("/" ++ kind ++ "/" ++ name).toList.splitOn '/' = [[], kind.toList, name.toList] := by
    rw [htext]
    refine List.splitOn_intercalate '/' ?_ (by simp)
    intro l hl
    rcases List.mem_cons.mp hl with rfl | hl
    · exact List.not_mem_nil
    · rcases List.mem_cons.mp hl with rfl | hl
      · exact hkind
      · obtain rfl := List.mem_singleton.mp hl
        exact hname
  have hhead : ("/" ++ kind ++ "/" ++ name).toList.head? = some '/' := by rw [htext]; rfl
  generalize "/" ++ kind ++ "/" ++ name = uri at hsplit hhead ⊢
  unfold parseUri
  dsimp only
  rw [hhead, if_neg (by simp), if_pos rfl, hsplit]
  simp [maxDepth]

/-- The end of a handler. -/
def finish (s : Server) (a : Answer) : Option Int × Server :=
  (some (httpError a.ret), { dem := a.dem, file := if a.ret = 0 then a.dem.root else s.file })

theorem handleReturn_change {req : HttpRequest} {change : Request} (h : route req = .ok (.change change)) :
    handleReturn J w req s = (change.run J w s.dem).map (finish s) := by
  unfold handleReturn
  rw [h]
  simp only [bind, Except.bind]
  cases change.run J w s.dem <;> rfl

theorem cCut_of_length_le {n : Nat} (h : body.length ≤ n) : cCut n body = body := by
  unfold cCut
  rw [List.take_of_length_le (by rwa [String.length_toList]), String.ofList_toList]

/-- A request whose URI has a kind and a name. -/
theorem route_two {method : Method} (hkind : '/' ∉ kind.toList) (hname : '/' ∉ name.toList) (hmethod : method ≠ .options) :
    route { method := method, uri := "/" ++ kind ++ "/" ++ name, body := body } =
      if named kind uriDem then handleDemRequests method [kind, name]
      else if named kind uriV1 then .ok .nothing
      else if named kind uriGroup then handleGroupRequests method [kind, name] body
      else if named kind uriHost then .ok (handleHostRequests method [kind, name] body)
      else if named kind uriTarget then handleTargetRequests method [kind, name] body
      else .ok .nothing := by
  unfold route
  rw [if_neg (by simp [hmethod])]
  dsimp only
  rw [parseUri_two hkind hname]
  rfl

theorem route_target (hname : '/' ∉ name.toList) (hbody : body ≠ "") (hlen : body.length ≤ largeRsp) :
    route (targetRequest name body .put) = .ok (.change (.updateTarget (some name) body)) ∧
      route (targetRequest name body .post) = .ok (.change (.updateTarget (some name) name)) ∧
      route (targetRequest name body .patch) = .ok (.change (.updateTarget (some name) body)) := by
  have hcut := cCut_of_length_le hlen
  have hroute := fun (method : Method) (h : method ≠ .options) => @route_two name body uriTarget method (by decide) hname h
  refine ⟨(hroute .put (by decide)).trans ?_, (hroute .post (by decide)).trans ?_, (hroute .patch (by decide)).trans ?_⟩
  · exact congrArg (fun data => Except.ok (Action.change (.updateTarget (some name) data))) hcut
  · exact if_pos hbody
  · refine (congrArg Except.ok (if_neg hbody)).trans ?_
    exact congrArg (fun data => Except.ok (Action.change (.updateTarget (some name) data))) hcut

theorem route_host (hname : '/' ∉ name.toList) (hbody : body ≠ "") (hlen : body.length ≤ largeRsp) :
    route (hostRequest name body .put) = .ok (.change (.updateHost (some name) body)) ∧
      route (hostRequest name body .post) = .ok (.change (.updateHost (some name) (cCut smallRsp body))) ∧
      route (hostRequest name body .patch) = .ok (.change (.updateHost (some name) (cCut smallRsp body))) := by
  have hcut := cCut_of_length_le hlen
  have hroute := fun (method : Method) (h : method ≠ .options) => @route_two name body uriHost method (by decide) hname h
  refine ⟨(hroute .put (by decide)).trans ?_, (hroute .post (by decide)).trans ?_, (hroute .patch (by decide)).trans ?_⟩
  · exact congrArg (fun data => Except.ok (Action.change (.updateHost (some name) data))) hcut
  · exact congrArg Except.ok (if_neg hbody)
  · exact congrArg Except.ok (if_pos ⟨hbody, rfl, rfl⟩)

theorem updateTarget_congr {d : Daemon} {data data' : String} (h : (findArray (d.root.arrayOr tagTargets) tagAlias name).isSome = true)
    (hasks : targetAsks J name data = targetAsks J name data') :
    updateTarget J w d (some name) data = updateTarget J w d (some name) data' := by
  obtain ⟨i, hi⟩ := Option.isSome_iff_exists.mp h
  unfold updateTarget
  rw [updateJsonTarget_eq hi, updateJsonTarget_eq hi, hasks]

theorem updateHost_congr {d : Daemon} {data data' : String} (h : (findArray (d.root.arrayOr tagHosts) tagAlias name).isSome = true)
    (hasks : hostAsks J name data = hostAsks J name data') :
    updateHost J w d (some name) data = updateHost J w d (some name) data' := by
  obtain ⟨i, hi⟩ := Option.isSome_iff_exists.mp h
  unfold updateHost
  rw [updateJsonHost_eq hi, updateJsonHost_eq hi, hasks]

theorem agree_target_iff (hname : '/' ∉ name.toList) (hbody : body ≠ "") (hlen : body.length ≤ largeRsp) :
    Agree J w s (targetRequest name body) ↔
      (updateTarget J w s.dem (some name) body).map (finish s) = (updateTarget J w s.dem (some name) name).map (finish s) := by
  obtain ⟨hput, hpost, hpatch⟩ := route_target hname hbody hlen
  unfold Agree
  rw [handleReturn_change hput, handleReturn_change hpost, handleReturn_change hpatch]
  exact and_iff_left rfl

theorem agree_host_iff (hname : '/' ∉ name.toList) (hbody : body ≠ "") (hlen : body.length ≤ largeRsp) :
    Agree J w s (hostRequest name body) ↔
      (updateHost J w s.dem (some name) body).map (finish s) =
        (updateHost J w s.dem (some name) (cCut smallRsp body)).map (finish s) := by
  obtain ⟨hput, hpost, hpatch⟩ := route_host hname hbody hlen
  unfold Agree
  rw [handleReturn_change hput, handleReturn_change hpost, handleReturn_change hpatch]
  exact and_self_iff

end

/-! ## A world that does not answer -/

def quietWorld : World where
  inventory := fun _ => { connect := -111, oobNsdevs := (-111, "") }

/-- What is returned for a target that does not answer. -/
def quietRet (target : Target) : Int :=
  match target.mgmtMode with
  | .localMgmt => 0
  | .outOfBandMgmt => -111
  | .inBandMgmt => if registerOps target.inb.type then -111 else -einval

theorem getConfig_quiet (J : JsonLib) (root : Json) (target : Target) :
    getConfig J quietWorld root target = .ok (quietRet target, root, target) := by
  unfold getConfig quietRet
  cases target.mgmtMode with
  | localMgmt => rfl
  | outOfBandMgmt => rfl
  | inBandMgmt =>
    unfold getInbConfig
    cases registerOps target.inb.type <;> rfl

theorem httpError_quietRet (target : Target) : httpError (quietRet target) ≠ httpErrConflict := by
  have hret : quietRet target = 0 ∨ quietRet target = -111 ∨ quietRet target = -einval := by
    unfold quietRet
    cases target.mgmtMode with
    | localMgmt => exact Or.inl rfl
    | outOfBandMgmt => exact Or.inr (Or.inl rfl)
    | inBandMgmt =>
      cases registerOps target.inb.type with
      | true => exact Or.inr (Or.inl rfl)
      | false => exact Or.inr (Or.inr rfl)
  rcases hret with h | h | h <;> rw [h] <;> decide

section

variable {J : JsonLib} {root t : Json} {name data buf : String} {i : Nat} {target : TargetArg} {u : Wish TargetWish} {lists : Lists}

/-- An update with an alias that is not taken. -/
theorem grantTarget_fresh (ht : (root.entries tagTargets)[i]? = some t)
    (hfresh : ∀ buf, u.rename = some buf → findArray (root.arrayOr tagTargets) tagAlias buf = none) :
    ∃ root' : Json, ((root'.entries tagTargets)[i]?).isSome = true ∧ grantTarget root name i target u =
      (u.fields.bind (setTargetFields (setText t tagAlias "" u.rename).1
        { target with name := cCut maxAliasSize (u.rename.getD name) })).map (fun r =>
          { ret := 0
            resp := s!"{tagTarget} '{u.rename.getD name}' {addedOrUpdated (some name)}"
            root := root'.putAt tagTargets i r.1
            out := r.2 }) := by
  obtain ⟨rename, fields⟩ := u
  unfold grantTarget
  cases rename with
  | none =>
    refine ⟨root, by rw [ht]; rfl, ?_⟩
    cases fields with
    | error f => rfl
    | ok f =>
      show setTarget root name i name target f = _
      unfold setTarget
      rw [arrayGet_arrayOr ht]
      rfl
  | some buf =>
    obtain ⟨hlt, -⟩ := List.getElem?_eq_some_iff.mp ht
    dsimp only
    rw [hfresh buf rfl, if_neg (by simp)]
    refine ⟨renameInGroups (root.putAt tagTargets i (jsonSetString (arrayGet (root.arrayOr tagTargets) i) tagAlias buf))
      tagTargets name buf, ?_, ?_⟩
    · rw [entries_renameInGroups_ne (by decide), Json.entries_putAt, List.getElem?_set_self hlt]
      rfl
    · cases fields with
      | error f => rfl
      | ok f =>
        show setTarget _ name i buf target f = _
        unfold setTarget
        rw [arrayGet_renamedTargets ht, arrayGet_arrayOr ht]
        rfl

/-- The entry and the caller's record that an update makes of the entry `t`. -/
def made (t : Json) (name : String) (u : Wish TargetWish) : Except Fault (Json × TargetArg) :=
  u.fields.bind (setTargetFields (setText t tagAlias "" u.rename).1 { zeroTarget with name := cCut maxAliasSize (u.rename.getD name) })

variable {d : Daemon}

theorem updateTarget_refused (hi : findArray (d.root.arrayOr tagTargets) tagAlias name = some i) (hu : targetAsks J name data = none) :
    ∃ resp : String, updateTarget J quietWorld d (some name) data = .ok { ret := -einval, resp := resp, dem := d } := by
  refine ⟨"invalid json syntax", ?_⟩
  unfold updateTarget
  rw [updateJsonTarget_eq hi, hu]
  rfl

theorem updateTarget_known (hi : findArray (d.root.arrayOr tagTargets) tagAlias name = some i) (hu : targetAsks J name data = some u)
    (hrename : u.rename = some buf) (hknown : (findArray (d.root.arrayOr tagTargets) tagAlias buf).isSome = true) :
    ∃ resp : String, updateTarget J quietWorld d (some name) data = .ok { ret := -eexist, resp := resp, dem := d } := by
  refine ⟨s!"{tagTarget} '{buf}' exists", ?_⟩
  unfold updateTarget
  rw [updateJsonTarget_eq hi, hu]
  dsimp only [Option.elim]
  unfold grantTarget
  rw [hrename]
  dsimp only
  rw [if_pos hknown]
  rfl

theorem updateTarget_fresh {tgt : Target} (hlist : findTarget d.lists name = some tgt)
    (hi : findArray (d.root.arrayOr tagTargets) tagAlias name = some i) (hu : targetAsks J name data = some u)
    (hfresh : ∀ buf, u.rename = some buf → findArray (d.root.arrayOr tagTargets) tagAlias buf = none) :
    (∀ f, made (arrayGet (d.root.arrayOr tagTargets) i) name u = .error f →
        updateTarget J quietWorld d (some name) data = .error f) ∧
      ∀ r, made (arrayGet (d.root.arrayOr tagTargets) i) name u = .ok r → ∃ a : Answer,
        updateTarget J quietWorld d (some name) data = .ok a ∧ arrayGet (a.dem.root.arrayOr tagTargets) i = r.1 ∧
          httpError a.ret ≠ httpErrConflict ∧ (r.2.mgmtMode = .localMgmt → a.ret = 0) := by
  obtain ⟨root', hroot', hgrant⟩ := @grantTarget_fresh _ _ name _ zeroTarget _ (findArray_arrayOr_some hi).1 hfresh
  unfold updateTarget
  rw [updateJsonTarget_eq hi, hu]
  dsimp only [Option.elim]
  rw [hgrant]
  change (∀ f, made _ name u = .error f → afterStore d ((made _ name u).map _) _ = .error f) ∧
    ∀ r, made _ name u = .ok r → ∃ a : Answer, afterStore d ((made _ name u).map _) _ = .ok a ∧ _
  refine ⟨fun f hf => by rw [hf]; rfl, fun r hr => ?_⟩
  rw [hr]
  simp only [Except.map, afterStore, if_true, hlist, updateTargetEnd, getConfig_quiet, bind, Except.bind, pure, Except.pure]
  refine ⟨_, rfl, ?_, httpError_quietRet _, ?_⟩
  · obtain ⟨t, ht⟩ := Option.isSome_iff_exists.mp hroot'
    obtain ⟨hlt, -⟩ := List.getElem?_eq_some_iff.mp ht
    apply arrayGet_arrayOr
    rw [Json.entries_putAt, List.getElem?_set_self hlt]
  · intro hmode
    unfold quietRet Target.updateTo
    rw [hmode]

end

/-! ## What an update leaves -/

section

variable {J : JsonLib} {t : Json} {name body data buf : String} {u u' : Wish TargetWish} {f : TargetWish}
  {r : Json × TargetArg} {fault : Fault}

/-- The entry after its alias was set, and the fields before the interface. -/
theorem made_eq (hobj : t.isObject = true) (hf : u.fields = .ok f) :
    ∃ (iter : Json) (target : TargetArg), made t name u = setIface iter target f.iface ∧ iter.isObject = true ∧
      iter.objectGet tagInterface = t.objectGet tagInterface ∧ target.mgmtMode = getMgmtMode (f.mode.getD "") ∧
      (t.objectGet tagRefresh = none → iter.intField tagRefresh = f.refresh) ∧
      (t.objectGet tagMgmtMode = none → iter.strField tagMgmtMode = f.mode) := by
  unfold made
  rw [hf]
  refine ⟨_, _, rfl, ?_, ?_, rfl, ?_, ?_⟩
  · rw [isObject_setText, isObject_setNumber, isObject_setText]
    exact hobj
  · rw [objectGet_setText_ne (by decide), objectGet_setNumber_ne (by decide), objectGet_setText_ne (by decide)]
  · intro hnone
    unfold Json.intField
    rw [objectGet_setText_ne (by decide)]
    exact intField_setNumber (by rw [isObject_setText]; exact hobj) (by rw [objectGet_setText_ne (by decide)]; exact hnone) _ _
  · intro hnone
    refine strField_setText (by rw [isObject_setNumber, isObject_setText]; exact hobj) ?_ _
    rw [objectGet_setNumber_ne (by decide), objectGet_setText_ne (by decide)]
    exact hnone

theorem made_ok (hobj : t.isObject = true) (hrefresh : t.objectGet tagRefresh = none) (hmode : t.objectGet tagMgmtMode = none)
    (h : made t name u = .ok r) : ∃ f, u.fields = .ok f ∧ r.1.intField tagRefresh = f.refresh ∧
      r.1.strField tagMgmtMode = f.mode ∧ r.2.mgmtMode = getMgmtMode (f.mode.getD "") := by
  cases hf : u.fields with
  | error e =>
    unfold made at h
    rw [hf] at h
    cases h
  | ok f =>
    obtain ⟨iter, target, hmade, -, -, htarget, hiter, hiter'⟩ := @made_eq _ name _ _ hobj hf
    obtain ⟨hget, hsame⟩ := setIface_ok (hmade.symm.trans h)
    refine ⟨f, rfl, ?_, ?_, hsame.trans htarget⟩
    · unfold Json.intField
      rw [hget _ (by decide)]
      exact hiter hrefresh
    · unfold Json.strField
      rw [hget _ (by decide)]
      exact hiter' hmode

/-- A store with one entry, or with one and others. -/
def lone (tag name : String) (extra : List (String × Json)) (others : List Json) : Json :=
  .object [(tag, .array (.object ((tagAlias, .string name) :: extra) :: others))]

variable {tag : String} {extra : List (String × Json)} {others : List Json}

theorem find_lone : findArray ((lone tag name extra others).arrayOr tag) tagAlias name = some 0 := by
  simp [lone, findArray, Json.arrayOr, Json.objectGet, Json.elems, Json.strField, Json.stringValue, List.findIdx?_cons]

theorem elems_lone : ((lone tag name extra others).arrayOr tag).elems = .object ((tagAlias, .string name) :: extra) :: others := by
  simp [lone, Json.arrayOr, Json.objectGet, Json.elems]

theorem find_lone_other (hne : buf ≠ name) (hother : ∀ x ∈ others, x.strField tagAlias ≠ some buf) :
    findArray ((lone tag name extra others).arrayOr tag) tagAlias buf = none := by
  refine List.findIdx?_eq_none_iff.mpr fun x hx => decide_eq_false ?_
  rw [elems_lone] at hx
  rcases List.mem_cons.mp hx with rfl | hx
  · exact fun h => hne (Option.some.inj h).symm
  · exact hother x hx

theorem find_lone_known :
    (findArray ((lone tag name extra [.object [(tagAlias, .string buf)]]).arrayOr tag) tagAlias buf).isSome = true := by
  rw [findArray, List.findIdx?_isSome, elems_lone]
  exact List.any_eq_true.mpr ⟨.object [(tagAlias, .string buf)], List.mem_cons_of_mem _ List.mem_cons_self, decide_eq_true rfl⟩

/-- The second entry does not have a name that is not asked for. -/
theorem ne_of_not_asked {β : Type} {v : Wish β} (hne : v.rename ≠ some buf) :
    ∀ other, v.rename = some other → ∀ x ∈ [Json.object [(tagAlias, .string buf)]], x.strField tagAlias ≠ some other := by
  intro other hother x hx heq
  obtain rfl := List.mem_singleton.mp hx
  obtain rfl := Option.some.inj heq
  exact hne hother

/-- Two texts ask for the same if each is refused with the other, asks for the new name of the other, and then for the same fields. -/
theorem asks_eq_of_parts {β : Type} {o o' : Option (Wish β)} (hrefused : (o = none ↔ o' = none))
    (hrename : ∀ v v', o = some v → o' = some v' → ∀ buf, v.rename = some buf ↔ v'.rename = some buf)
    (hfields : ∀ v v', o = some v → o' = some v' → v.rename = v'.rename → v.fields = v'.fields) : o = o' := by
  cases o with
  | none => exact (hrefused.mp rfl).symm
  | some v =>
    cases o' with
    | none => exact hrefused.mpr rfl
    | some v' =>
      have hname : v.rename = v'.rename := Option.ext (hrename v v' rfl rfl)
      have hsame := hfields v v' rfl rfl hname
      obtain ⟨rename, fields⟩ := v
      obtain ⟨rename', fields'⟩ := v'
      rw [show rename = rename' from hname, show fields = fields' from hsame]

/-- What an update makes, `m`, is seen in its outcome: as an error, or in the server. -/
structure Seen {α γ : Type} (m : Except Fault α) (part : α → γ) (view : Server → γ) (outcome : Except Fault (Option Int × Server)) :
    Prop where
  error : ∀ f, m = .error f → outcome = .error f
  ok : ∀ r, m = .ok r → ∃ (code : Option Int) (s : Server), outcome = .ok (code, s) ∧ view s = part r

theorem Seen.eq {α γ : Type} {m m' : Except Fault α} {part part' : α → γ} {view : Server → γ}
    {outcome : Except Fault (Option Int × Server)} (h : Seen m part view outcome) (h' : Seen m' part' view outcome) :
    m.map part = m'.map part' := by
  cases hm : m with
  | error f =>
    have hout := h.error f hm
    cases hm' : m' with
    | error f' =>
      have hout' := h'.error f' hm'
      exact congrArg Except.error (Except.error.inj (hout.symm.trans hout'))
    | ok r' =>
      obtain ⟨code, s, heq, -⟩ := h'.ok r' hm'
      cases hout.symm.trans heq
  | ok r =>
    obtain ⟨code, s, heq, hview⟩ := h.ok r hm
    cases hm' : m' with
    | error f' => cases heq.symm.trans (h'.error f' hm')
    | ok r' =>
      obtain ⟨code', s', heq', hview'⟩ := h'.ok r' hm'
      obtain ⟨-, rfl⟩ := Prod.mk.inj (Except.ok.inj (heq.symm.trans heq'))
      exact congrArg Except.ok (hview.symm.trans hview')

def loneTarget (name : String) (extra : List (String × Json)) (others : List Json) : Server where
  dem := { root := lone tagTargets name extra others, lists := { targetList := [{ ptr := 0, name := name }] } }
  file := .null

theorem findTarget_loneTarget :
    findTarget (loneTarget name extra others).dem.lists name = some { ptr := 0, name := name } := by
  simp [loneTarget, findTarget]

/-- The update of a target, which does not answer, as the client and the store see it. -/
def told (J : JsonLib) (s : Server) (name data : String) : Except Fault (Option Int × Server) :=
  (updateTarget J quietWorld s.dem (some name) data).map (finish s)

theorem told_refused (hu : targetAsks J name data = none) :
    ∃ file, told J (loneTarget name extra others) name data =
      .ok (some (httpError (-einval)), { loneTarget name extra others with file := file }) := by
  have hfind : findArray ((loneTarget name extra others).dem.root.arrayOr tagTargets) tagAlias name = some 0 := find_lone
  obtain ⟨resp, heq⟩ := updateTarget_refused hfind hu
  unfold told
  rw [heq]
  exact ⟨_, rfl⟩

theorem told_known (hu : targetAsks J name data = some u) (hrename : u.rename = some buf) :
    ∃ s : Server, told J (loneTarget name [] [.object [(tagAlias, .string buf)]]) name data = .ok (some httpErrConflict, s) := by
  have hfind : findArray ((loneTarget name [] [.object [(tagAlias, .string buf)]]).dem.root.arrayOr tagTargets) tagAlias name = some 0 :=
    find_lone
  obtain ⟨resp, heq⟩ := updateTarget_known hfind hu hrename find_lone_known
  unfold told
  rw [heq]
  exact ⟨_, rfl⟩

/-- The entry is what was made of it. -/
theorem told_fresh (hu : targetAsks J name data = some u)
    (hother : ∀ buf, u.rename = some buf → ∀ x ∈ others, x.strField tagAlias ≠ some buf) :
    (∀ f, made (.object ((tagAlias, .string name) :: extra)) name u = .error f →
        told J (loneTarget name extra others) name data = .error f) ∧
      ∀ r, made (.object ((tagAlias, .string name) :: extra)) name u = .ok r → ∃ (code : Int) (s : Server),
        told J (loneTarget name extra others) name data = .ok (some code, s) ∧
          arrayGet (s.dem.root.arrayOr tagTargets) 0 = r.1 ∧ code ≠ httpErrConflict ∧ (r.2.mgmtMode = .localMgmt → code = 0) := by
  obtain ⟨herror, hok⟩ := @updateTarget_fresh _ _ _ _ _ (loneTarget name extra others).dem _ findTarget_loneTarget find_lone hu
    (fun buf hbuf => find_lone_other (asks_rename hu hbuf) (hother buf hbuf))
  unfold told
  refine ⟨fun f hf => by rw [herror f hf]; rfl, fun r hr => ?_⟩
  obtain ⟨a, heq, hentry, hcode, hlocal⟩ := hok r hr
  rw [heq]
  refine ⟨_, _, rfl, hentry, hcode, fun hmode => ?_⟩
  rw [hlocal hmode]
  rfl

/-- A body that is refused and one that is not are told apart. -/
theorem told_ne_of_refused (hu : targetAsks J name data = some u) (hnone : targetAsks J name body = none) :
    told J (loneTarget name [] []) name body ≠ told J (loneTarget name [] []) name data := by
  obtain ⟨file, hbody⟩ := @told_refused _ _ _ [] [] hnone
  obtain ⟨herror, hok⟩ := @told_fresh _ _ _ _ [] [] hu (fun _ _ x hx => absurd hx List.not_mem_nil)
  rw [hbody]
  intro heq
  cases hmade : made (.object [(tagAlias, .string name)]) name u with
  | error f =>
    rw [herror f hmade] at heq
    cases heq
  | ok r =>
    obtain ⟨code, s, hdata, hentry, -, hlocal⟩ := hok r hmade
    rw [hdata] at heq
    obtain ⟨hcode, hserver⟩ := Prod.mk.inj (Except.ok.inj heq)
    obtain ⟨f, -, -, hmode, htarget⟩ := made_ok rfl rfl rfl hmade
    rw [← hserver] at hentry
    -- The mode of the entry, which has none, is the mode that was asked for.
    have hnomode : f.mode = none := hmode.symm.trans (congrArg (Json.strField tagMgmtMode) hentry.symm)
    rw [hnomode] at htarget
    have hzero := hlocal htarget
    rw [← Option.some.inj hcode] at hzero
    exact absurd hzero (by decide)

theorem rename_of_told (hu : targetAsks J name body = some u) (hu' : targetAsks J name data = some u')
    (h : ∀ buf, told J (loneTarget name [] [.object [(tagAlias, .string buf)]]) name body =
      told J (loneTarget name [] [.object [(tagAlias, .string buf)]]) name data)
    (hrename : u.rename = some buf) : u'.rename = some buf := by
  by_contra hne
  obtain ⟨s, hbody⟩ := told_known hu hrename
  obtain ⟨herror, hok⟩ := @told_fresh _ _ _ _ [] [.object [(tagAlias, .string buf)]] hu' (ne_of_not_asked hne)
  have heq := h buf
  rw [hbody] at heq
  cases hmade : made (.object [(tagAlias, .string name)]) name u' with
  | error f =>
    rw [herror f hmade] at heq
    cases heq
  | ok r =>
    obtain ⟨code, s', hdata, -, hcode, -⟩ := hok r hmade
    rw [hdata] at heq
    exact hcode (Option.some.inj (Prod.mk.inj (Except.ok.inj heq)).1).symm

theorem seen_told (hu : targetAsks J name data = some u) :
    Seen (made (.object ((tagAlias, .string name) :: extra)) name u) Prod.fst (fun s => arrayGet (s.dem.root.arrayOr tagTargets) 0)
      (told J (loneTarget name extra []) name data) := by
  obtain ⟨herror, hok⟩ := @told_fresh _ _ _ _ extra [] hu (fun _ _ x hx => absurd hx List.not_mem_nil)
  refine ⟨herror, fun r hr => ?_⟩
  obtain ⟨code, s, heq, hentry, -⟩ := hok r hr
  exact ⟨some code, s, heq, hentry⟩

/-- Equal entries were made. -/
theorem made_of_told (hu : targetAsks J name body = some u) (hu' : targetAsks J name data = some u')
    (h : told J (loneTarget name extra []) name body = told J (loneTarget name extra []) name data) :
    (made (.object ((tagAlias, .string name) :: extra)) name u).map Prod.fst =
      (made (.object ((tagAlias, .string name) :: extra)) name u').map Prod.fst := by
  have hseen := @seen_told J name body u extra hu
  rw [h] at hseen
  exact hseen.eq (seen_told hu')

theorem made_of_error (hf : u.fields = .error fault) : made t name u = .error fault := by
  unfold made
  rw [hf]
  rfl

/-- Nothing goes wrong in an entry whose interface is not an object. -/
theorem made_null (hf : u.fields = .ok f) :
    ∃ r : Json × TargetArg, made (.object [(tagAlias, .string name), (tagInterface, .null)]) name u = .ok r := by
  obtain ⟨iter, target, hmade, -, hget, -⟩ := @made_eq (.object [(tagAlias, .string name), (tagInterface, .null)]) name _ _ rfl hf
  rw [hmade]
  exact setIface_null (hget.trans rfl) _

/-- The interface is read back from an entry that had none. -/
theorem iface_of_made {rename : Option String} {refresh : Option Int} {mode : Option String}
    {iface iface' : Option (Except Fault IfaceWish)} (hproper : ProperWish { refresh := refresh, mode := mode, iface := iface })
    (hproper' : ProperWish { refresh := refresh, mode := mode, iface := iface' })
    (h : (made (.object [(tagAlias, .string name)]) name
        { rename := rename, fields := .ok { refresh := refresh, mode := mode, iface := iface } }).map Prod.fst =
      (made (.object [(tagAlias, .string name)]) name
        { rename := rename, fields := .ok { refresh := refresh, mode := mode, iface := iface' } }).map Prod.fst) : iface = iface' := by
  refine setIface_injective ?_ ?_ (fun hmode => ⟨hproper.localMgmt hmode, hproper'.localMgmt hmode⟩) (fun hmode x hx => ?_) h
  · rw [isObject_setText, isObject_setNumber, isObject_setText]
    rfl
  · rw [objectGet_setText_ne (by decide), objectGet_setNumber_ne (by decide), objectGet_setText_ne (by decide)]
    rfl
  · rcases hx with hx | hx
    · exact hproper.type hmode x hx
    · exact hproper'.type hmode x hx

theorem fields_of_told (hu : targetAsks J name body = some u) (hu' : targetAsks J name data = some u') (hrename : u.rename = u'.rename)
    (h : ∀ extra : List (String × Json), told J (loneTarget name extra []) name body = told J (loneTarget name extra []) name data) :
    u.fields = u'.fields := by
  have hnull := made_of_told hu hu' (h [(tagInterface, .null)])
  have hnone := made_of_told hu hu' (h [])
  cases hf : u.fields with
  | error e =>
    rw [made_of_error hf] at hnull
    cases hf' : u'.fields with
    | error e' =>
      rw [made_of_error hf'] at hnull
      rw [Except.error.inj hnull]
    | ok f' =>
      obtain ⟨r', hmade'⟩ := @made_null name _ _ hf'
      rw [hmade'] at hnull
      cases hnull
  | ok f =>
    obtain ⟨r, hmade⟩ := @made_null name _ _ hf
    rw [hmade] at hnull
    cases hf' : u'.fields with
    | error e' =>
      rw [made_of_error hf'] at hnull
      cases hnull
    | ok f' =>
      obtain ⟨r', hmade'⟩ := @made_null name _ _ hf'
      rw [hmade'] at hnull
      have hentry : r.1 = r'.1 := Except.ok.inj hnull
      obtain ⟨g, hg, hrefresh, hmode, -⟩ := made_ok rfl rfl rfl hmade
      obtain ⟨g', hg', hrefresh', hmode', -⟩ := made_ok rfl rfl rfl hmade'
      obtain rfl := Except.ok.inj (hf.symm.trans hg)
      obtain rfl := Except.ok.inj (hf'.symm.trans hg')
      rw [hentry, hrefresh'] at hrefresh
      rw [hentry, hmode'] at hmode
      obtain ⟨new, hnew⟩ := asks_fields hu hf
      obtain ⟨new', hnew'⟩ := asks_fields hu' hf'
      obtain ⟨rename, fields⟩ := u
      obtain ⟨rename', fields'⟩ := u'
      obtain ⟨refresh, mode, iface⟩ := f
      obtain ⟨refresh', mode', iface'⟩ := f'
      dsimp only at hf hf' hrename hrefresh hmode
      subst hf hf' hrename hrefresh hmode
      rw [iface_of_made (targetFields_proper hnew) (targetFields_proper hnew') hnone]

/-- Texts that are told apart in no state ask for the same. -/
theorem targetAsks_eq (h : ∀ s, InStore tagTargets name s → told J s name body = told J s name data) :
    targetAsks J name body = targetAsks J name data := by
  have hlone : ∀ (extra : List (String × Json)) (others : List Json),
      told J (loneTarget name extra others) name body = told J (loneTarget name extra others) name data :=
    fun extra others => h _ (Option.isSome_iff_exists.mpr ⟨0, find_lone⟩)
  refine asks_eq_of_parts ⟨?_, ?_⟩ (fun u u' hu hu' buf => ⟨?_, ?_⟩) (fun u u' hu hu' hrename => ?_)
  · intro hu
    by_contra hne
    obtain ⟨u', hu'⟩ := Option.ne_none_iff_exists'.mp hne
    exact told_ne_of_refused hu' hu (hlone [] [])
  · intro hu'
    by_contra hne
    obtain ⟨u, hu⟩ := Option.ne_none_iff_exists'.mp hne
    exact told_ne_of_refused hu hu' (hlone [] []).symm
  · exact rename_of_told hu hu' (fun buf => hlone [] _)
  · exact rename_of_told hu' hu (fun buf => (hlone [] _).symm)
  · exact fields_of_told hu hu' hrename (fun extra => hlone extra [])

end

/-! ## Hosts -/

section

variable {J : JsonLib} {root t : Json} {name body data buf : String} {i : Nat} {out : HostOut} {u u' : Wish (Option String)}
  {nqn : Option String} {others : List Json} {fault : Fault}

theorem grantHost_fresh (ht : (root.entries tagHosts)[i]? = some t)
    (hfresh : ∀ buf, u.rename = some buf → findArray (root.arrayOr tagHosts) tagAlias buf = none) :
    ∃ root' : Json, ((root'.entries tagHosts)[i]?).isSome = true ∧ grantHost root name i out u = u.fields.map (fun nqn =>
      let r := setText (setText t tagAlias "" u.rename).1 tagHostnqn out.nqn nqn
      { ret := 0
        resp := s!"{tagHost} '{u.rename.getD name}' {addedOrUpdated (some name)}"
        root := root'.putAt tagHosts i r.1
        out := { newalias := u.rename.getD name, nqn := r.2 } }) := by
  obtain ⟨rename, fields⟩ := u
  unfold grantHost
  cases rename with
  | none =>
    refine ⟨root, by rw [ht]; rfl, ?_⟩
    unfold setHostNqn
    rw [arrayGet_arrayOr ht]
    rfl
  | some buf =>
    obtain ⟨hlt, -⟩ := List.getElem?_eq_some_iff.mp ht
    dsimp only
    rw [hfresh buf rfl, if_neg (by simp)]
    refine ⟨renameInGroups (renameInAllowedHosts (root.putAt tagHosts i (jsonSetString (arrayGet (root.arrayOr tagHosts) i) tagAlias buf))
      name buf) tagHosts name buf, ?_, ?_⟩
    · rw [entries_renameInGroups_ne (by decide), entries_renameInAllowedHosts_ne (by decide), Json.entries_putAt,
        List.getElem?_set_self hlt]
      rfl
    · unfold setHostNqn
      rw [arrayGet_renamedHosts ht, arrayGet_arrayOr ht]
      rfl

def loneHost (name : String) (others : List Json) : Server where
  dem := { root := lone tagHosts name [] others, lists := {} }
  file := .null

def toldHost (J : JsonLib) (s : Server) (name data : String) : Except Fault (Option Int × Server) :=
  (updateHost J quietWorld s.dem (some name) data).map (finish s)

theorem toldHost_refused (hu : hostAsks J name data = none) :
    ∃ s : Server, toldHost J (loneHost name others) name data = .ok (some (httpError (-einval)), s) := by
  have hfind : findArray ((loneHost name others).dem.root.arrayOr tagHosts) tagAlias name = some 0 := find_lone
  unfold toldHost updateHost
  rw [updateJsonHost_eq hfind, hu]
  exact ⟨_, rfl⟩

theorem toldHost_known (hu : hostAsks J name data = some u) (hrename : u.rename = some buf) :
    ∃ s : Server, toldHost J (loneHost name [.object [(tagAlias, .string buf)]]) name data = .ok (some httpErrConflict, s) := by
  have hfind : findArray ((loneHost name [.object [(tagAlias, .string buf)]]).dem.root.arrayOr tagHosts) tagAlias name = some 0 := find_lone
  have hknown : (findArray ((loneHost name [.object [(tagAlias, .string buf)]]).dem.root.arrayOr tagHosts) tagAlias buf).isSome = true :=
    find_lone_known
  unfold toldHost updateHost
  rw [updateJsonHost_eq hfind, hu]
  dsimp only [Option.elim]
  unfold grantHost
  rw [hrename]
  dsimp only
  rw [if_pos hknown]
  exact ⟨_, rfl⟩

theorem toldHost_fresh (hu : hostAsks J name data = some u)
    (hother : ∀ buf, u.rename = some buf → ∀ x ∈ others, x.strField tagAlias ≠ some buf) :
    (∀ f, u.fields = .error f → toldHost J (loneHost name others) name data = .error f) ∧
      ∀ nqn, u.fields = .ok nqn → ∃ s : Server, toldHost J (loneHost name others) name data = .ok (some 0, s) ∧
        arrayGet (s.dem.root.arrayOr tagHosts) 0 =
          (setText (setText (.object [(tagAlias, .string name)]) tagAlias "" u.rename).1 tagHostnqn "" nqn).1 := by
  obtain ⟨root', hroot', hgrant⟩ := @grantHost_fresh (loneHost name others).dem.root _ name _ quietWorld.host _
    (findArray_arrayOr_some find_lone).1 (fun buf hbuf => find_lone_other (asks_rename hu hbuf) (hother buf hbuf))
  have hfind : findArray ((loneHost name others).dem.root.arrayOr tagHosts) tagAlias name = some 0 := find_lone
  unfold toldHost updateHost
  rw [updateJsonHost_eq hfind, hu]
  dsimp only [Option.elim]
  rw [hgrant]
  refine ⟨fun f hf => by rw [hf]; rfl, fun nqn hnqn => ?_⟩
  rw [hnqn]
  refine ⟨_, rfl, ?_⟩
  obtain ⟨t, ht⟩ := Option.isSome_iff_exists.mp hroot'
  obtain ⟨hlt, -⟩ := List.getElem?_eq_some_iff.mp ht
  apply arrayGet_arrayOr
  show ((root'.putAt tagHosts 0 _).entries tagHosts)[0]? = _
  rw [Json.entries_putAt, List.getElem?_set_self hlt]
  rfl

/-- An update that finds no other entry with the new name has no code but zero. -/
theorem toldHost_ne_code (hu : hostAsks J name data = some u)
    (hother : ∀ buf, u.rename = some buf → ∀ x ∈ others, x.strField tagAlias ≠ some buf) {code : Int} (hcode : code ≠ 0) (s : Server) :
    toldHost J (loneHost name others) name data ≠ .ok (some code, s) := by
  obtain ⟨herror, hok⟩ := toldHost_fresh hu hother
  intro heq
  cases hf : u.fields with
  | error f =>
    rw [herror f hf] at heq
    cases heq
  | ok nqn =>
    obtain ⟨s', hdata, -⟩ := hok nqn hf
    rw [hdata] at heq
    exact hcode (Option.some.inj (Prod.mk.inj (Except.ok.inj heq)).1).symm

theorem renameHost_of_told (hu : hostAsks J name body = some u) (hu' : hostAsks J name data = some u')
    (h : ∀ buf, toldHost J (loneHost name [.object [(tagAlias, .string buf)]]) name body =
      toldHost J (loneHost name [.object [(tagAlias, .string buf)]]) name data)
    (hrename : u.rename = some buf) : u'.rename = some buf := by
  by_contra hne
  obtain ⟨s, hbody⟩ := toldHost_known hu hrename
  exact toldHost_ne_code hu' (ne_of_not_asked hne) (by decide) s ((h buf).symm.trans hbody)

theorem toldHost_ne_of_refused (hu : hostAsks J name data = some u) (hnone : hostAsks J name body = none) :
    toldHost J (loneHost name []) name body ≠ toldHost J (loneHost name []) name data := by
  obtain ⟨s, hbody⟩ := @toldHost_refused _ _ _ [] hnone
  intro heq
  exact toldHost_ne_code hu (fun _ _ x hx => absurd hx List.not_mem_nil) (by decide) s (heq.symm.trans hbody)

theorem seen_toldHost (hu : hostAsks J name data = some u) :
    Seen u.fields (fun nqn => (setText (setText (.object [(tagAlias, .string name)]) tagAlias "" u.rename).1 tagHostnqn "" nqn).1)
      (fun s => arrayGet (s.dem.root.arrayOr tagHosts) 0) (toldHost J (loneHost name []) name data) := by
  obtain ⟨herror, hok⟩ := @toldHost_fresh _ _ _ _ [] hu (fun _ _ x hx => absurd hx List.not_mem_nil)
  refine ⟨herror, fun nqn hnqn => ?_⟩
  obtain ⟨s, heq, hentry⟩ := hok nqn hnqn
  exact ⟨some 0, s, heq, hentry⟩

/-- The NQN is read back from an entry that had none. -/
theorem nqn_of_told (hu : hostAsks J name body = some u) (hu' : hostAsks J name data = some u') (hrename : u.rename = u'.rename)
    (h : toldHost J (loneHost name []) name body = toldHost J (loneHost name []) name data) : u.fields = u'.fields := by
  have hseen := seen_toldHost hu
  rw [h] at hseen
  have hmade := hseen.eq (seen_toldHost hu')
  rw [hrename] at hmade
  have hread : ∀ nqn : Option String,
      (setText (setText (.object [(tagAlias, .string name)]) tagAlias "" u'.rename).1 tagHostnqn "" nqn).1.strField tagHostnqn = nqn :=
    fun nqn => strField_setText (by rw [isObject_setText]; rfl) (by rw [objectGet_setText_ne (by decide)]; rfl) nqn
  cases hf : u.fields with
  | error f =>
    cases hf' : u'.fields with
    | error f' =>
      rw [hf, hf'] at hmade
      exact congrArg Except.error (Except.error.inj hmade)
    | ok nqn' =>
      rw [hf, hf'] at hmade
      cases hmade
  | ok nqn =>
    cases hf' : u'.fields with
    | error f' =>
      rw [hf, hf'] at hmade
      cases hmade
    | ok nqn' =>
      rw [hf, hf'] at hmade
      have hsame := congrArg (Json.strField tagHostnqn) (Except.ok.inj hmade)
      rw [hread, hread] at hsame
      rw [hsame]

theorem hostAsks_eq (h : ∀ s, InStore tagHosts name s → toldHost J s name body = toldHost J s name data) :
    hostAsks J name body = hostAsks J name data := by
  have hlone : ∀ others : List Json, toldHost J (loneHost name others) name body = toldHost J (loneHost name others) name data :=
    fun others => h _ (Option.isSome_iff_exists.mpr ⟨0, find_lone⟩)
  refine asks_eq_of_parts ⟨?_, ?_⟩ (fun u u' hu hu' buf => ⟨?_, ?_⟩) (fun u u' hu hu' hrename => ?_)
  · intro hu
    by_contra hne
    obtain ⟨u', hu'⟩ := Option.ne_none_iff_exists'.mp hne
    exact toldHost_ne_of_refused hu' hu (hlone [])
  · intro hu'
    by_contra hne
    obtain ⟨u, hu⟩ := Option.ne_none_iff_exists'.mp hne
    exact toldHost_ne_of_refused hu hu' (hlone []).symm
  · exact renameHost_of_told hu hu' (fun buf => hlone _)
  · exact renameHost_of_told hu' hu (fun buf => (hlone _).symm)
  · exact nqn_of_told hu hu' hrename (hlone [])

end

/-! ## The three methods -/

/-- The methods agree on a target if and only if its alias, read as a body, asks for what the body asks for; and on a host if and only if
the front of the body that the smaller buffer holds asks for what the whole of it asks for. -/
theorem methods_agree_iff (J : JsonLib) (name body : String) (hname : '/' ∉ name.toList) (hbody : body ≠ "")
    (hlen : body.length ≤ largeRsp) :
    ((∀ w s, InStore tagTargets name s → Agree J w s (targetRequest name body)) ↔ targetAsks J name body = targetAsks J name name) ∧
      ((∀ w s, InStore tagHosts name s → Agree J w s (hostRequest name body)) ↔
        hostAsks J name body = hostAsks J name (cCut smallRsp body)) := by
  refine ⟨⟨fun h => ?_, fun h w s hs => ?_⟩, ⟨fun h => ?_, fun h w s hs => ?_⟩⟩
  · exact targetAsks_eq (fun s hs => (agree_target_iff hname hbody hlen).mp (h quietWorld s hs))
  · rw [agree_target_iff hname hbody hlen, updateTarget_congr hs h]
  · exact hostAsks_eq (fun s hs => (agree_host_iff hname hbody hlen).mp (h quietWorld s hs))
  · rw [agree_host_iff hname hbody hlen, updateHost_congr hs h]

/-- A body that sets the refresh period. -/
def refreshBody : String := "\x7b\"Refresh\":5\x7d"

def refreshLib : JsonLib := .ofTexts [(refreshBody, .object [(tagRefresh, .integer 5)])]

/-- The alias of the target is not JSON: its POST is refused, and its PUT is not. -/
theorem post_refused : ¬Agree refreshLib {} (loneTarget "t" [] []) (targetRequest "t" refreshBody) ∧
    InStore tagTargets "t" (loneTarget "t" [] []) := by
  refine ⟨fun h => ?_, rfl⟩
  have hput : handleReturn refreshLib {} (targetRequest "t" refreshBody .put) (loneTarget "t" [] []) =
      handleReturn refreshLib {} (targetRequest "t" refreshBody .post) (loneTarget "t" [] []) := h.1
  have hcode := congrArg (fun r => r.toOption.bind Prod.fst) hput
  revert hcode
  decide

/-- A body on a host that is short enough for both buffers. -/
theorem short_agree : targetAsks refreshLib "t" refreshBody ≠ targetAsks refreshLib "t" "t" ∧
    ∀ w s, InStore tagHosts "t" s → Agree refreshLib w s (hostRequest "t" refreshBody) :=
  ⟨fun h => absurd (congrArg Option.isSome h) (by decide),
    (methods_agree_iff refreshLib "t" refreshBody (by decide) (by decide) (by decide)).2.mpr rfl⟩

end NvmeDem.Rest
