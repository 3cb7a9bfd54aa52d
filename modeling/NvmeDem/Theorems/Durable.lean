import NvmeDem.Dem.Rest
import NvmeDem.Lemmas.Effects
import NvmeDem.Lemmas.Refusals
import NvmeDem.Lemmas.Requests

/-!
# The configuration file

A request that returns zero writes the root to the file. One that fails writes nothing, also when it failed with the root already
changed: when the store took the change and the target could not be told, or was not found in the lists, and when the store
refused the request and had made an array before. The file then holds an older root, until a later request returns zero.
-/

namespace NvmeDem.Rest

open Jansson

/-! ## The requests that are saved -/

/-- What a call of the store has to leave: told what it took, and with nothing to make when it takes nothing. -/
def Settles {α : Type} (x : Except Fault (Reply α)) (told : α → Prop) (filled : Prop) : Prop :=
  ∀ r, x = .ok r → (r.ret = 0 → told r.out) ∧ (r.ret ≠ 0 → filled)

/-- A target answers with its whole inventory when it is asked. -/
def Reports (J : JsonLib) (w : World) (target : Target) : Prop :=
  let inv := w.inventory target.ptr
  match target.mgmtMode with
  | .localMgmt => True
  | .inBandMgmt =>
    registerOps target.inb.type = true ∧ inv.connect = 0 ∧ inv.inbNsdevs.1 = 0 ∧ inv.inbXports.1 = 0
  | .outOfBandMgmt =>
    inv.oobNsdevs.1 = 0 ∧
      (∃ new, J.loads inv.oobNsdevs.2 = some new ∧ ∀ x ∈ new.entries tagNsdevs, (oobNsdev x).isSome = true) ∧
      inv.oobXports.1 = 0 ∧ (J.loads inv.oobXports.2).isSome = true

/-- The target that an update asks for its inventory. -/
def askedTarget (w : World) (d : Daemon) (tgt : Option String) (out : TargetArg) : Option Target :=
  match tgt with
  | none => some (Target.updateTo out { ptr := w.addr, name := out.name })
  | some name => (findTarget d.lists name).map (Target.updateTo out)

/-- The subsystem of a target that is told of after it was set. -/
def toldSubsys (target : Target) (out : SubsysArg) : Option String → Option Subsystem
  | none => some { nqn := out.nqn, access := out.access }
  | some nqn => (findSubsys target nqn).map (fun subsys => configSubsys (subsys.updateTo out))

/-- A request that does not fail after the root was changed. -/
def KeepsFile (J : JsonLib) (w : World) (d : Daemon) : Request → Prop
  | .updateGroup name data =>
    Settles (updateJsonGroup J d.root name data w.name) (fun _ => True)
      (data ≠ "" → (d.root.objectGet tagGroups).isSome = true)
  | .updateHost host data =>
    Settles (updateJsonHost J d.root host data w.host) (fun _ => True)
      (data ≠ "" → (d.root.objectGet tagHosts).isSome = true)
  | .delHost host =>
    Settles (delJsonHost d.root host w.host.nqn)
      (fun hostnqn => ∀ target, d.lists.targetList.getLast? = some target →
        target.subsysList.any Subsystem.isRestricted = true → sendTo w target (.delHost target.ptr hostnqn) = 0)
      True
  | .linkHost tgt subnqn host data =>
    Settles (setJsonAcl J d.root tgt subnqn host data w.host)
      (fun out => ∀ target, findTarget d.lists tgt = some target → (findSubsys target subnqn).isSome = true →
        sendTo w target (.linkHost target.ptr subnqn out.nqn) = 0)
      ((d.root.objectGet tagHosts).isSome = true →
        TargetHas d.root tgt tagSubsystems ∧ SubsysHas d.root tgt subnqn tagHosts)
  | .unlinkHost tgt subnqn host =>
    Settles (.ok (delJsonAcl d.root tgt subnqn host)) (fun _ => True) (TargetHas d.root tgt tagSubsystems)
  | .setSubsys tgt nqn data =>
    Settles (setJsonSubsys J d.root tgt nqn data { nqn := "", access := undefinedAccess })
      (fun out => ∃ target subsys, findTarget d.lists tgt = some target ∧ toldSubsys target out nqn = some subsys ∧
        sendTo w target (.configSubsys target.ptr subsys.nqn) = 0)
      (TargetHas d.root tgt tagSubsystems)
  | .delSubsys tgt nqn =>
    Settles (delJsonSubsys d.root tgt (some nqn))
      (fun _ => ∀ target, findTarget d.lists tgt = some target → (findSubsys target nqn).isSome = true →
        sendTo w target (.delSubsys target.ptr nqn) = 0)
      True
  | .setPortid tgt id data =>
    Settles (setJsonPortid J d.root tgt id data w.port)
      (fun out => ∃ target, findTarget d.lists tgt = some target ∧
        sendTo w target (.configPortid target.ptr out.portid) = 0)
      (TargetHas d.root tgt tagPortids)
  | .delPortid tgt id =>
    Settles (.ok (delJsonPortid d.root tgt id))
      (fun _ => ∀ target, findTarget d.lists tgt = some target → (findPortid target id).isSome = true →
        sendTo w target (.delPortid target.ptr id) = 0)
      True
  | .setNs tgt nqn data =>
    Settles (.ok (setJsonNs J d.root tgt nqn data w.ns))
      (fun out => ∀ target, findTarget d.lists tgt = some target → hasNsdev target (requestedNs target out) = true ∧
        ((findSubsys target nqn).isSome = true →
          sendTo w target (.setNs target.ptr nqn (requestedNs target out).nsid) = 0))
      (TargetHas d.root tgt tagSubsystems ∧ SubsysHas d.root tgt nqn tagNsids)
  | .delNs tgt nqn nsid =>
    Settles (.ok (delJsonNs d.root tgt nqn nsid))
      (fun _ => ∀ target subsys, findTarget d.lists tgt = some target → findSubsys target nqn = some subsys →
        subsys.nsList.any (fun n => n.nsid == nsid) = true → sendTo w target (.delNs target.ptr nqn nsid) = 0)
      True
  | .updateTarget tgt data =>
    Settles (updateJsonTarget J d.root tgt data zeroTarget)
      (fun out => ∃ target, askedTarget w d tgt out = some target ∧ Reports J w target)
      (data ≠ "" → (d.root.objectGet tagTargets).isSome = true)
  | _ => True

/-- A request that shows a host makes no array: the host is not known, or every target with an alias has its subsystems. -/
def ShowsAsIs (root : Json) (host : String) : Prop :=
  ∀ hosts, root.objectGet tagHosts = some hosts → (findArray hosts tagAlias host).isSome = true →
    ∀ t ∈ root.entries tagTargets, (t.objectGet tagAlias).isSome = true → (t.objectGet tagSubsystems).isSome = true

def Action.KeepsFile (J : JsonLib) (w : World) (d : Daemon) : Action → Prop
  | .nothing => True
  | .showHost host => ShowsAsIs d.root host
  | .change req => Rest.KeepsFile J w d req

/-- A request of the interface that does not fail after the root was changed. -/
def HttpRequest.KeepsFile (J : JsonLib) (s : Server) (op : World × HttpRequest) : Prop :=
  ∀ action, route op.2 = .ok action → action.KeepsFile J op.1 s.dem

/-- A request that returns leads from one server to the next. -/
def httpStep (J : JsonLib) (op : World × HttpRequest) (s s' : Server) : Prop := handleHttpRequest J op.1 op.2 s = .ok s'

/-! ## One request -/

variable {J : JsonLib} {w : World} {d : Daemon} {a : Answer}

/-- What a request leaves is written, or is what was there. -/
def Saved (d : Daemon) (a : Answer) : Prop := a.ret = 0 ∨ a.dem.root = d.root

/-- A request that starts with a call of the store. -/
theorem saved_afterStore {α : Type} {x : Except Fault (Reply α)} {k : Reply α → Except Fault Answer} {told : α → Prop}
    {filled : Prop} (h : afterStore d x k = .ok a) (hkeep : Settles x told filled)
    (hrefused : ∀ r, x = .ok r → r.ret ≠ 0 → filled → r.root = d.root)
    (htaken : ∀ r, r.ret = 0 → told r.out → k r = .ok a → a.ret = 0) : Saved d a := by
  obtain ⟨r, hr, ⟨hne, rfl⟩ | ⟨hz, hk⟩⟩ := afterStore_ok h
  · exact Or.inr (hrefused r hr hne ((hkeep r hr).2 hne))
  · exact Or.inl (htaken r hz ((hkeep r hr).1 hz) hk)

/-- A call of the store that makes no arrays. -/
theorem settles_true {α : Type} (x : Except Fault (Reply α)) : Settles x (fun _ => True) True :=
  fun _ _ => ⟨fun _ => trivial, fun _ => trivial⟩

/-! ### Groups -/

theorem saved_addGroup {name : Option String} (h : addGroup w d name = .ok a) : Saved d a := by
  refine saved_afterStore h (settles_true _) (fun r hr hne _ => ?_) (fun r _ _ hk => ?_)
  · exact refused_of (addJsonGroup_ok hr) hne
  · split at hk
    · cases hk
    · cases hk
      rfl

theorem saved_updateGroup {name : Option String} {data : String} (h : updateGroup J w d name data = .ok a)
    (hkeep : KeepsFile J w d (.updateGroup name data)) : Saved d a := by
  dsimp only [KeepsFile] at hkeep
  refine saved_afterStore h hkeep (fun r hr hne hfilled => updateJsonGroup_refused hr hne hfilled) (fun r _ _ hk => ?_)
  cases hk
  rfl

theorem saved_setGroupMember {name member : String} {data : Option String} {kind : Member}
    (h : setGroupMember J w d name data member kind = .ok a) : Saved d a := by
  refine saved_afterStore h (settles_true _) (fun r hr hne _ => ?_) (fun r _ _ hk => ?_)
  · exact refused_of (setJsonGroupMember_ok hr) hne
  · obtain ⟨lists, -, hk⟩ := bind_eq_ok hk
    cases hk
    rfl

theorem saved_delGroupMember {name : String} {member : Option String} {kind : Member}
    (h : delGroupMember d name member kind = .ok a) : Saved d a := by
  refine saved_afterStore h (settles_true _) (fun r hr hne _ => ?_) (fun r _ _ hk => ?_)
  · exact refused_of (delJsonGroupMember_ok hr) hne
  · obtain ⟨lists, -, hk⟩ := bind_eq_ok hk
    cases hk
    rfl

theorem saved_delGroup {name : String} (h : delGroup d name = .ok a) : Saved d a := by
  refine saved_afterStore h (settles_true _) (fun r hr hne _ => ?_) (fun r _ _ hk => ?_)
  · obtain rfl := Except.ok.inj hr
    exact refused_of (delJsonGroup_ok d.root name) hne
  · split at hk
    · cases hk
    · cases hk
      rfl

/-! ### Hosts -/

theorem saved_addHost {host : Option String} (h : addHost d host = .ok a) : Saved d a := by
  refine saved_afterStore h (settles_true _) (fun r hr hne _ => ?_) (fun r _ _ hk => ?_)
  · exact refused_of (addJsonHost_ok hr) hne
  · cases hk
    rfl

theorem saved_updateHost {host : Option String} {data : String} (h : updateHost J w d host data = .ok a)
    (hkeep : KeepsFile J w d (.updateHost host data)) : Saved d a := by
  dsimp only [KeepsFile] at hkeep
  refine saved_afterStore h hkeep (fun r hr hne hfilled => updateJsonHost_refused hr hne hfilled) (fun r _ _ hk => ?_)
  cases hk
  rfl

/-- What `delHost` returns is the result for the last target. -/
theorem delHostRet_last {hostnqn : String} {targets : List Target} {resp : String}
    (h : ∀ target, targets.getLast? = some target → target.subsysList.any Subsystem.isRestricted = true →
      sendTo w target (.delHost target.ptr hostnqn) = 0) : (targets.foldl (delHostRet w hostnqn) (0, resp)).1 = 0 := by
  rcases List.eq_nil_or_concat targets with rfl | ⟨init, last, rfl⟩
  · rfl
  · rw [List.concat_eq_append, List.foldl_append, List.foldl_cons, List.foldl_nil]
    unfold delHostRet
    split
    · rename_i hany
      exact h last (by rw [List.concat_eq_append, List.getLast?_concat]) hany
    · rfl

theorem saved_delHost {host : Option String} (h : delHost w d host = .ok a) (hkeep : KeepsFile J w d (.delHost host)) :
    Saved d a := by
  dsimp only [KeepsFile] at hkeep
  refine saved_afterStore h hkeep (fun r hr hne _ => ?_) (fun r _ htold hk => ?_)
  · exact refused_of (delJsonHost_ok hr) hne
  · cases hk
    exact delHostRet_last htold

/-! ### Access lists -/

theorem saved_linkHost {tgt subnqn data : String} {host : Option String} (h : linkHost J w d tgt subnqn host data = .ok a)
    (hkeep : KeepsFile J w d (.linkHost tgt subnqn host data)) : Saved d a := by
  dsimp only [KeepsFile] at hkeep
  refine saved_afterStore h hkeep (fun r hr hne hfilled => setJsonAcl_refused hr hne hfilled) (fun r _ htold hk => ?_)
  split at hk
  · cases hk
    rfl
  · rename_i target hfind
    split at hk
    · cases hk
      rfl
    · rename_i subsys hsub
      dsimp only at hk
      split at hk
      · cases hk
      · cases hk
        exact htold target hfind (by rw [hsub]; rfl)

theorem saved_unlinkHost {tgt subnqn name : String} (h : unlinkHost w d tgt subnqn name = .ok a)
    (hkeep : KeepsFile J w d (.unlinkHost tgt subnqn name)) : Saved d a := by
  dsimp only [KeepsFile] at hkeep
  refine saved_afterStore h hkeep (fun r hr hne hfilled => ?_) (fun r _ _ hk => ?_)
  · obtain rfl := Except.ok.inj hr
    exact delJsonAcl_refused hne hfilled
  · split at hk
    · cases hk
      rfl
    · split at hk
      · cases hk
        rfl
      · split at hk
        · cases hk
          rfl
        · cases hk
          rfl

/-! ### Subsystems -/

theorem saved_setSubsys {tgt data : String} {nqn : Option String} (h : setSubsys J w d tgt nqn data = .ok a)
    (hkeep : KeepsFile J w d (.setSubsys tgt nqn data)) : Saved d a := by
  dsimp only [KeepsFile] at hkeep
  refine saved_afterStore h hkeep (fun r hr hne hfilled => setJsonSubsys_refused hr hne hfilled) (fun r _ htold hk => ?_)
  obtain ⟨target, subsys, hfind, htold, hsend⟩ := htold
  simp only [hfind] at hk
  split at hk
  · cases hk
    obtain rfl := Option.some.inj htold
    exact hsend
  · rename_i nqn
    obtain ⟨subsys', hsub, rfl⟩ := Option.map_eq_some_iff.mp htold
    rw [hsub] at hk
    cases hk
    exact hsend

theorem saved_delSubsys {tgt nqn : String} (h : delSubsys w d tgt nqn = .ok a)
    (hkeep : KeepsFile J w d (.delSubsys tgt nqn)) : Saved d a := by
  dsimp only [KeepsFile] at hkeep
  refine saved_afterStore h hkeep (fun r hr hne _ => ?_) (fun r _ htold hk => ?_)
  · exact refused_of (delJsonSubsys_ok hr) hne
  · split at hk
    · cases hk
      rfl
    · rename_i target hfind
      split at hk
      · cases hk
        rfl
      · rename_i subsys hsub
        cases hk
        exact htold target hfind (by rw [hsub]; rfl)

/-! ### Ports -/

theorem saved_setPortid {tgt data : String} {id : Int} (h : setPortid J w d tgt id data = .ok a)
    (hkeep : KeepsFile J w d (.setPortid tgt id data)) : Saved d a := by
  dsimp only [KeepsFile] at hkeep
  refine saved_afterStore h hkeep (fun r hr hne hfilled => setJsonPortid_refused hr hne hfilled) (fun r _ htold hk => ?_)
  obtain ⟨target, hfind, hsend⟩ := htold
  simp only [hfind] at hk
  cases hk
  exact hsend

theorem saved_delPortid {tgt : String} {id : Int} (h : delPortid w d tgt id = .ok a)
    (hkeep : KeepsFile J w d (.delPortid tgt id)) : Saved d a := by
  dsimp only [KeepsFile] at hkeep
  refine saved_afterStore h hkeep (fun r hr hne _ => ?_) (fun r _ htold hk => ?_)
  · obtain rfl := Except.ok.inj hr
    exact refused_of (delJsonPortid_ok d.root tgt id) hne
  · split at hk
    · cases hk
      rfl
    · rename_i target hfind
      split at hk
      · cases hk
        rfl
      · rename_i portid hport
        cases hk
        exact htold target hfind (by rw [hport]; rfl)

/-! ### Namespaces -/

theorem saved_setNs {tgt nqn data : String} (h : setNs J w d tgt nqn data = .ok a)
    (hkeep : KeepsFile J w d (.setNs tgt nqn data)) : Saved d a := by
  dsimp only [KeepsFile] at hkeep
  refine saved_afterStore h hkeep (fun r hr hne hfilled => ?_) (fun r _ htold hk => ?_)
  · obtain rfl := Except.ok.inj hr
    exact setJsonNs_refused hne hfilled.1 hfilled.2
  · split at hk
    · cases hk
      rfl
    · rename_i target hfind
      obtain ⟨hdev, hsend⟩ := htold target hfind
      simp only [hdev, if_true] at hk
      split at hk
      · cases hk
        rfl
      · rename_i subsys hsub
        cases hk
        exact hsend (by rw [hsub]; rfl)

theorem saved_delNs {tgt nqn : String} {nsid : Int} (h : delNs w d tgt nqn nsid = .ok a)
    (hkeep : KeepsFile J w d (.delNs tgt nqn nsid)) : Saved d a := by
  dsimp only [KeepsFile] at hkeep
  refine saved_afterStore h hkeep (fun r hr hne _ => ?_) (fun r _ htold hk => ?_)
  · obtain rfl := Except.ok.inj hr
    exact refused_of (delJsonNs_ok d.root tgt nqn nsid) hne
  · split at hk
    · cases hk
      rfl
    · rename_i target hfind
      split at hk
      · cases hk
        rfl
      · rename_i subsys hsub
        split at hk
        · rename_i hany
          cases hk
          exact htold target subsys hfind hsub hany
        · cases hk
          rfl

/-! ### Targets -/

theorem saved_addTarget {tgt : Option String} (h : addTarget w d tgt = .ok a) : Saved d a := by
  unfold addTarget at h
  split at h
  · cases h
  · rename_i r hr
    split at h
    · split at h
      · cases h
      · cases h
        exact Or.inl rfl
    · rename_i hne
      cases h
      exact Or.inr (refused_of (addJsonTarget_ok hr) hne)

theorem saved_delTarget {tgt : Option String} (h : delTarget d tgt = .ok a) : Saved d a := by
  refine saved_afterStore h (settles_true _) (fun r hr hne _ => ?_) (fun r _ _ hk => ?_)
  · exact refused_of (delJsonTarget_ok hr) hne
  · split at hk
    · cases hk
      rfl
    · cases hk
      rfl

/-- Of devices that are all good every one is read. -/
theorem readOobNsdevs_good {iters array : List Json} {list : List (Nsdev × Bool)}
    (h : ∀ x ∈ iters, (oobNsdev x).isSome = true) : (readOobNsdevs iters array list).1 = true := by
  induction iters generalizing array list with
  | nil => rfl
  | cons x iters ih =>
    obtain ⟨dev, hdev⟩ := Option.isSome_iff_exists.mp (h x List.mem_cons_self)
    simp only [readOobNsdevs, hdev]
    exact ih (fun y hy => h y (List.mem_cons_of_mem x hy))

theorem setJsonOobNsdevs_good {root root' : Json} {target target' : Target} {data : String} {ret : Int} {new : Json}
    (h : setJsonOobNsdevs J root target data = .ok (ret, root', target')) (hnew : J.loads data = some new)
    (hgood : ∀ x ∈ new.entries tagNsdevs, (oobNsdev x).isSome = true) : ret = 0 := by
  have hread : (readOobNsdevs (new.entries tagNsdevs) [] (unmarked target.deviceList)).1 = true := readOobNsdevs_good hgood
  unfold setJsonOobNsdevs at h
  simp only [hnew, hread, if_true] at h
  split at h
  · cases h
  · cases h
    rfl

theorem setJsonOobInterfaces_good {root root' : Json} {target target' : Target} {data : String} {ret : Int}
    (h : setJsonOobInterfaces J root target data = .ok (ret, root', target')) (hnew : (J.loads data).isSome = true) :
    ret = 0 := by
  obtain ⟨new, hnew⟩ := Option.isSome_iff_exists.mp hnew
  unfold setJsonOobInterfaces at h
  simp only [hnew] at h
  obtain ⟨ifaces, -, h⟩ := bind_eq_ok h
  split at h
  · cases h
  · cases h
    rfl

/-- A target that answers with its whole inventory is asked with success. -/
theorem getConfig_reports {root root' : Json} {target target' : Target} {ret : Int}
    (h : getConfig J w root target = .ok (ret, root', target')) (hrep : Reports J w target) : ret = 0 := by
  unfold getConfig at h
  unfold Reports at hrep
  split at h
  · rename_i hmode
    simp only [hmode] at hrep
    obtain ⟨hops, hconnect, hnsdevs, hxports⟩ := hrep
    unfold getInbConfig at h
    simp only [hops, hconnect, hnsdevs, hxports, Bool.not_true, Bool.false_eq_true, if_false, ne_eq, not_true] at h
    split at h
    · cases h
      rfl
    · cases h
      rfl
  · rename_i hmode
    simp only [hmode] at hrep
    obtain ⟨hnsdevs, ⟨new, hnew, hgood⟩, hxports, hloads⟩ := hrep
    unfold getOobConfig at h
    rw [if_neg (not_not.mpr hnsdevs)] at h
    obtain ⟨⟨ret₁, root₁, target₁⟩, hset, h⟩ := bind_eq_ok h
    obtain rfl := setJsonOobNsdevs_good hset hnew hgood
    simp only [hxports, ne_eq, not_true, if_false] at h
    exact setJsonOobInterfaces_good h hloads
  · cases h
    rfl

theorem saved_updateTargetEnd {root : Json} {lists : Lists} {ptr : Nat} {target : Target}
    (h : updateTargetEnd J w root lists ptr target = .ok a) (hrep : Reports J w target) : a.ret = 0 := by
  obtain ⟨⟨ret, root', target'⟩, hget, h⟩ := bind_eq_ok h
  cases h
  exact getConfig_reports hget hrep

theorem saved_updateTarget {tgt : Option String} {data : String} (h : updateTarget J w d tgt data = .ok a)
    (hkeep : KeepsFile J w d (.updateTarget tgt data)) : Saved d a := by
  dsimp only [KeepsFile] at hkeep
  refine saved_afterStore h hkeep (fun r hr hne hfilled => updateJsonTarget_refused hr hne hfilled) (fun r _ htold hk => ?_)
  obtain ⟨target, hasked, hrep⟩ := htold
  split at hk
  · obtain rfl := Option.some.inj hasked
    exact saved_updateTargetEnd hk hrep
  · obtain ⟨target', hfind, rfl⟩ := Option.map_eq_some_iff.mp hasked
    rw [hfind] at hk
    exact saved_updateTargetEnd hk hrep

theorem setJsonOobInterface_refused {root : Json} {tgt data port : String} {iface : OobIface} {r : Reply OobIface}
    (h : setJsonOobInterface J root tgt data iface port = .ok r) (hne : r.ret ≠ 0) : r.root = root := by
  unfold setJsonOobInterface at h
  split at h
  · rename_i hinl
    cases h
    exact Quiet.interfaceOf_root hinl
  · obtain ⟨⟨iter, address⟩, -, h⟩ := bind_eq_ok h
    obtain ⟨⟨iter, port⟩, -, h⟩ := bind_eq_ok h
    cases h
    exact absurd rfl hne

theorem saved_setInterface {tgt data : String} (h : setInterface J w d tgt data = .ok a) : Saved d a := by
  unfold setInterface at h
  split at h
  · cases h
    exact Or.inr rfl
  · split at h
    · refine saved_afterStore h (settles_true _) (fun r hr hne _ => setJsonOobInterface_refused hr hne) (fun r _ _ hk => ?_)
      cases hk
      rfl
    · refine saved_afterStore h (settles_true _) (fun r hr _ _ => ?_) (fun r _ _ hk => ?_)
      · unfold setJsonInbInterface at hr
        split at hr
        · rename_i hinl
          cases hr
          exact Quiet.interfaceOf_root hinl
        · cases hr
      · cases hk
    · cases h
      exact Or.inr rfl

theorem saved_targetRefresh (tgt : String) : Saved d (targetRefresh w d tgt) := by
  unfold targetRefresh
  split
  · exact Or.inr rfl
  · exact Or.inr rfl

theorem saved_targetReconfig (tgt : String) : Saved d (targetReconfig w d tgt) := by
  unfold targetReconfig
  split
  · exact Or.inr rfl
  · exact Or.inr rfl

/-! ## Any request -/

theorem saved_run {req : Request} (h : req.run J w d = .ok a) (hkeep : KeepsFile J w d req) : Saved d a := by
  cases req with
  | addGroup name => exact saved_addGroup h
  | updateGroup name data => exact saved_updateGroup h hkeep
  | setGroupMember name data member kind => exact saved_setGroupMember h
  | delGroupMember name member kind => exact saved_delGroupMember h
  | delGroup name => exact saved_delGroup h
  | addHost host => exact saved_addHost h
  | updateHost host data => exact saved_updateHost h hkeep
  | delHost host => exact saved_delHost h hkeep
  | linkHost tgt subnqn host data => exact saved_linkHost h hkeep
  | unlinkHost tgt subnqn host => exact saved_unlinkHost h hkeep
  | setSubsys tgt nqn data => exact saved_setSubsys h hkeep
  | delSubsys tgt nqn => exact saved_delSubsys h hkeep
  | setPortid tgt id data => exact saved_setPortid h hkeep
  | delPortid tgt id => exact saved_delPortid h hkeep
  | setNs tgt nqn data => exact saved_setNs h hkeep
  | delNs tgt nqn nsid => exact saved_delNs h hkeep
  | addTarget tgt => exact saved_addTarget h
  | updateTarget tgt data => exact saved_updateTarget h hkeep
  | delTarget tgt => exact saved_delTarget h
  | setInterface tgt data => exact saved_setInterface h
  | targetRefresh tgt =>
    cases h
    exact saved_targetRefresh tgt
  | targetReconfig tgt =>
    cases h
    exact saved_targetReconfig tgt

/-- A host is shown without an array being made. -/
theorem ensureSubsystems_eq {root : Json}
    (h : ∀ t ∈ root.entries tagTargets, (t.objectGet tagAlias).isSome = true → (t.objectGet tagSubsystems).isSome = true) :
    ensureSubsystems root = root := by
  unfold ensureSubsystems Json.adjust
  split
  · rfl
  · rename_i targets htargets
    have hsame : targets.arrayMap (fun iter =>
        if (iter.objectGet tagAlias).isSome then iter.ensureArray tagSubsystems else iter) = targets := by
      cases targets with
      | array xs =>
        refine congrArg Json.array ((List.map_congr_left (fun t ht => ?_)).trans (List.map_id xs))
        have hmem : t ∈ root.entries tagTargets := by
          rw [entries_of_objectGet htargets]
          exact ht
        split
        · rename_i hname
          exact Json.ensureArray_of_isSome (h t hmem hname)
        · rfl
      | _ => rfl
    rw [hsame, Json.objectSet_objectGet htargets]

theorem showJsonHost_eq {host : String} {root : Json} (h : showJsonHost d host = .ok root) (hshows : ShowsAsIs d.root host) :
    root = d.root := by
  unfold showJsonHost at h
  split at h
  · exact (Except.ok.inj h).symm
  · rename_i hosts hhosts
    split at h
    · exact (Except.ok.inj h).symm
    · rename_i i hi
      obtain ⟨⟨root', view⟩, hget, rfl⟩ := map_eq_ok h
      obtain ⟨view', -, hget⟩ := bind_eq_ok hget
      obtain ⟨rfl, -⟩ := Prod.mk.inj (Except.ok.inj hget)
      exact ensureSubsystems_eq (hshows hosts hhosts (by rw [hi]; rfl))

/-- The file holds the root after a request if it did before. -/
theorem file_kept {req : HttpRequest} {s s' : Server} (h : handleHttpRequest J w req s = .ok s') (hfile : s.file = s.dem.root)
    (hkeep : HttpRequest.KeepsFile J s (w, req)) : s'.file = s'.dem.root := by
  obtain ⟨action, hroute, h⟩ := bind_eq_ok h
  have hkeep := hkeep action hroute
  cases action with
  | nothing =>
    obtain rfl := Except.ok.inj h
    exact hfile
  | showHost host =>
    obtain ⟨root, hshow, h⟩ := bind_eq_ok h
    obtain rfl := Except.ok.inj h
    rw [showJsonHost_eq hshow hkeep]
    exact hfile
  | change req =>
    obtain ⟨a, hrun, h⟩ := bind_eq_ok h
    obtain rfl := Except.ok.inj h
    dsimp only
    split
    · rfl
    · rename_i hne
      rcases saved_run hrun hkeep with hz | hroot
      · exact absurd hz hne
      · rw [hroot]
        exact hfile

/-! ## Any requests -/

def emptyServer : Server := { dem := emptyDaemon, file := emptyRoot }

def postTarget : HttpRequest := { method := .post, uri := "/target/t" }

def managedText : String := "\x7b\"MgmtMode\":\"OutOfBandMgmt\"\x7d"

def putTarget : HttpRequest := { method := .put, uri := "/target/t", body := managedText }

def managedJson : JsonLib where
  loads text := if text = managedText then some (.object [(tagMgmtMode, .string tagOutOfBandMgmt)]) else none

/-- The daemon with the target, which it has saved. -/
def addedServer : Server where
  dem := { root := .object [(tagTargets, .array [newTarget (some "t")])], lists := { targetList := [{ ptr := 0, name := "t" }] } }
  file := .object [(tagTargets, .array [newTarget (some "t")])]

theorem route_postTarget : route postTarget = .ok (.change (.addTarget (some "t"))) := by
  rfl

theorem handle_postTarget : httpStep managedJson ({}, postTarget) emptyServer addedServer := by
  rfl

def econnrefused : Int := 111

/-- A target out of band that refuses the connection. -/
def deafWorld : World := { inventory := fun _ => { oobNsdevs := (-econnrefused, "") } }

/-- The daemon with the target made a managed one, which it has not saved. -/
def managedServer : Server where
  dem :=
    { root := .object [(tagTargets, .array [(newTarget (some "t")).objectSet tagMgmtMode (.string tagOutOfBandMgmt)])]
      lists := { targetList := [{ ptr := 0, name := "t", mgmtMode := .outOfBandMgmt }] } }
  file := addedServer.file

theorem handle_putTarget : httpStep managedJson (deafWorld, putTarget) addedServer managedServer := by
  rfl

end NvmeDem.Rest
