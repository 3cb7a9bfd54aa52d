import NvmeDem.Lemmas.Inventory

/-!
# Requests that make no copy of a host

Whatever they return, the requests on targets, subsystems, ports and namespaces, and those on groups that link no host, leave
the hosts of the store as they are and make no copy of one.
-/

namespace NvmeDem

open Jansson

/-- The hosts of the store are as they were and the lists have no copies of hosts but those that they had. -/
structure Quiet (d d' : Daemon) : Prop where
  hosts : hostPairs d'.root = hostPairs d.root
  lists : Shrinks d.lists d'.lists

/-- A library for the calls that parse nothing. -/
def noJson : JsonLib := { loads := fun _ => none }

namespace Quiet

variable {J : JsonLib} {w : World} {d : Daemon} {a : Answer}

theorem mirrored {d' : Daemon} (h : Quiet d d') (hm : Mirrored d) : Mirrored d' := hm.of_shrinks h.hosts h.lists

/-- A request that starts with a call of the store that does not edit the hosts. -/
theorem afterStore (J : JsonLib) {α : Type} (op : StoreOp) {x : Except Fault (Reply α)} {k : Reply α → Except Fault Answer}
    (h : NvmeDem.afterStore d x k = .ok a) (hop : op.editsHosts = false) (hrun : op.run J d.root = x.map Reply.step)
    (hk : ∀ r, hostPairs r.root = hostPairs d.root → k r = .ok a → Quiet d a.dem) : Quiet d a.dem := by
  obtain ⟨r, rfl, hr⟩ := afterStore_ok h
  have hp := hostPairs_run hrun hop
  rcases hr with ⟨-, rfl⟩ | ⟨-, hr⟩
  · exact ⟨hp, .refl _⟩
  · exact hk r hp hr

/-! ## Groups -/

theorem addGroup {name : Option String} (h : addGroup w d name = .ok a) : Quiet d a.dem := by
  refine afterStore noJson (.addGroup name) h rfl rfl (fun r hp h => ?_)
  split at h
  · cases h
  · cases h
    exact ⟨hp, (Shrinks.refl _).records, (Shrinks.refl _).links⟩

theorem updateGroup {name : Option String} {data : String} (h : updateGroup J w d name data = .ok a) : Quiet d a.dem := by
  refine afterStore J (.updateGroup name data w.name) h rfl rfl (fun r hp h => ?_)
  cases h
  refine ⟨hp, ?_⟩
  dsimp only
  split
  · exact .refl _
  · exact ⟨(Shrinks.refl _).records, (Shrinks.refl _).links⟩

theorem delGroup {name : String} (h : delGroup d name = .ok a) : Quiet d a.dem := by
  refine afterStore noJson (.delGroup name) h rfl rfl (fun r hp h => ?_)
  split at h
  · cases h
  · cases h
    exact ⟨hp, (Shrinks.refl _).records, fun x hx => (List.mem_filter.mp hx).1⟩

theorem addTargetToGroup {lists lists' : Lists} {group : Option Group} {name : String}
    (h : addTargetToGroup lists group name = .ok lists') : Shrinks lists lists' := by
  unfold NvmeDem.addTargetToGroup at h
  split at h
  · cases h
    exact .refl _
  · split at h
    · cases h
    · cases h
      have hmark : Shrinks lists (lists.onTarget name (fun t => { t with groupMember := true })) :=
        .onTarget (fun t _ => .of_mem (fun _ h => h))
      exact ⟨hmark.records, hmark.links⟩

theorem delTargetFromGroup {lists lists' : Lists} {group : Option Group} {name : String}
    (h : delTargetFromGroup lists group name = .ok lists') : Shrinks lists lists' := by
  unfold NvmeDem.delTargetFromGroup at h
  split at h
  · cases h
    exact .refl _
  · split at h
    · cases h
    · split at h
      · dsimp only at h
        split at h
        · cases h
          exact ⟨(Shrinks.refl _).records, (Shrinks.refl _).links⟩
        · cases h
          have hmark : Shrinks lists (lists.onTarget name (fun t => { t with groupMember := false })) :=
            .onTarget (fun t _ => .of_mem (fun _ h => h))
          exact ⟨hmark.records, hmark.links⟩
      · cases h
        exact .refl _

theorem setTargetMember {name member : String} {data : Option String}
    (h : setGroupMember J w d name data member .target = .ok a) : Quiet d a.dem := by
  refine afterStore J (.setGroupMember name data member .target w.name) h rfl rfl (fun r hp h => ?_)
  obtain ⟨lists, hl, h⟩ := bind_eq_ok h
  cases h
  exact ⟨hp, addTargetToGroup hl⟩

theorem delGroupMember {name : String} {member : Option String} {kind : Member}
    (h : delGroupMember d name member kind = .ok a) : Quiet d a.dem := by
  refine afterStore noJson (.delGroupMember name member kind) h rfl rfl (fun r hp h => ?_)
  obtain ⟨lists, hl, h⟩ := bind_eq_ok h
  cases h
  refine ⟨hp, ?_⟩
  unfold delFromGroup at hl
  split at hl
  · cases hl
  · cases hl
    exact ⟨(Shrinks.refl _).records, fun x hx => List.mem_of_mem_eraseP hx⟩
  · exact delTargetFromGroup hl

/-! ## Access lists -/

theorem unlinkHost {tgt subnqn name : String} (h : unlinkHost w d tgt subnqn name = .ok a) : Quiet d a.dem := by
  refine afterStore noJson (.delAcl tgt subnqn name) h rfl rfl (fun r hp h => ?_)
  split at h
  · cases h
    exact ⟨hp, .refl _⟩
  · rename_i target hfind
    split at h
    · cases h
      exact ⟨hp, .refl _⟩
    · split at h
      · cases h
        exact ⟨hp, .refl _⟩
      · cases h
        refine ⟨hp, ((Shrinks.onTarget_of_find hfind (fun _ => ?_)).trans (.notify _ _)).trans (.withLogs _ w)⟩
        exact .onSubsys (fun s _ => List.eraseP_sublist)

/-! ## Subsystems -/

theorem delSubsys {tgt nqn : String} (h : delSubsys w d tgt nqn = .ok a) : Quiet d a.dem := by
  refine afterStore noJson (.delSubsys tgt (some nqn)) h rfl rfl (fun r hp h => ?_)
  split at h
  · cases h
    exact ⟨hp, .refl _⟩
  · split at h
    · cases h
      exact ⟨hp, .refl _⟩
    · cases h
      refine ⟨hp, ((Shrinks.onTarget (fun t _ => ?_)).trans (.notify _ _)).trans (.withLogs _ w)⟩
      exact .of_mem (fun s hs => List.mem_of_mem_eraseP hs)

/-- The end of `setSubsys` adds nothing to the lists it is given. -/
theorem setSubsysEnd {root : Json} {lists : Lists} {target : Target} {subsys : Subsystem} {resp : String}
    (hp : hostPairs root = hostPairs d.root) (hl : Shrinks d.lists lists) :
    Quiet d (setSubsysEnd w root lists target subsys resp).dem :=
  ⟨hp, (hl.trans (.notify _ _)).trans (.withLogs _ w)⟩

theorem configSubsys_sublist (subsys : Subsystem) : (configSubsys subsys).hostList.Sublist subsys.hostList := by
  unfold configSubsys
  split
  · exact List.Sublist.refl _
  · exact List.nil_sublist _

theorem setSubsys {tgt data : String} {nqn : Option String} (h : setSubsys J w d tgt nqn data = .ok a) : Quiet d a.dem := by
  refine afterStore J (.setSubsys tgt nqn data { nqn := "", access := undefinedAccess }) h rfl rfl (fun r hp h => ?_)
  split at h
  · cases h
    exact ⟨hp, .refl _⟩
  · rename_i target hfind
    split at h
    · cases h
      refine setSubsysEnd hp (.onTarget (fun t _ => ?_))
      -- The new subsystem has no records yet.
      intro s hs
      rcases List.mem_append.mp hs with hs | hs
      · exact Or.inr ⟨s, hs, List.Sublist.refl _⟩
      · rw [List.mem_singleton.mp hs]
        exact Or.inl rfl
    · split at h
      · cases h
        exact ⟨hp, .refl _⟩
      · cases h
        refine setSubsysEnd hp (.onTarget (fun t _ => ?_))
        exact .onSubsys (fun s _ => configSubsys_sublist (s.updateTo r.out))

/-! ## Ports and namespaces -/

theorem delPortid {tgt : String} {id : Int} (h : delPortid w d tgt id = .ok a) : Quiet d a.dem := by
  refine afterStore noJson (.delPortid tgt id) h rfl rfl (fun r hp h => ?_)
  split at h
  · cases h
    exact ⟨hp, .refl _⟩
  · rename_i target hfind
    split at h
    · cases h
      exact ⟨hp, .refl _⟩
    · cases h
      refine ⟨hp, (Shrinks.onTarget_of_find hfind (fun _ => ?_)).trans (.notify _ _)⟩
      exact .map (fun s _ => List.Sublist.refl s.hostList)

theorem setPortid_subsysList (id : Int) (out : PortArg) (target : Target) :
    (target.setPortid w id out).subsysList = target.subsysList := by
  unfold Target.setPortid
  split <;> rfl

theorem setPortid {tgt data : String} {id : Int} (h : setPortid J w d tgt id data = .ok a) : Quiet d a.dem := by
  refine afterStore J (.setPortid tgt id data w.port) h rfl rfl (fun r hp h => ?_)
  dsimp only at h
  split at h
  · cases h
    exact ⟨hp, .refl _⟩
  · cases h
    refine ⟨hp, ((Shrinks.onTarget (fun t _ => ?_)).trans (.notify _ _)).trans (.withLogs _ w)⟩
    rw [setPortid_subsysList]
    exact .of_mem (fun _ h => h)

theorem setNs_hostList (ns : Ns) (subsys : Subsystem) : (subsys.setNs ns).hostList = subsys.hostList := by
  unfold Subsystem.setNs
  split <;> rfl

theorem setNs {tgt nqn data : String} (h : setNs J w d tgt nqn data = .ok a) : Quiet d a.dem := by
  refine afterStore J (.setNs tgt nqn data w.ns) h rfl rfl (fun r hp h => ?_)
  split at h
  · cases h
    exact ⟨hp, .refl _⟩
  · dsimp only at h
    split at h
    · split at h
      · cases h
        exact ⟨hp, .refl _⟩
      · cases h
        refine ⟨hp, .onTarget (fun t _ => .onSubsys (fun s _ => ?_))⟩
        rw [setNs_hostList]
    · cases h
      exact ⟨hp, .refl _⟩

theorem delNs {tgt nqn : String} {nsid : Int} (h : delNs w d tgt nqn nsid = .ok a) : Quiet d a.dem := by
  refine afterStore noJson (.delNs tgt nqn nsid) h rfl rfl (fun r hp h => ?_)
  split at h
  · cases h
    exact ⟨hp, .refl _⟩
  · split at h
    · cases h
      exact ⟨hp, .refl _⟩
    · split at h
      · cases h
        refine ⟨hp, .onTarget (fun t _ => ?_)⟩
        exact .onSubsys (fun s _ => List.Sublist.refl s.hostList)
      · cases h
        exact ⟨hp, .refl _⟩

/-! ## Targets -/

theorem allocTarget (lists : Lists) (w : World) (name : String) : Shrinks lists (allocTarget lists w name) := by
  refine .of_targets rfl (fun t ht => ?_)
  rcases List.mem_append.mp ht with ht | ht
  · exact Or.inr ⟨t, ht, .of_mem (fun _ h => h)⟩
  · rw [List.mem_singleton.mp ht]
    exact Or.inl rfl

theorem addTarget {tgt : Option String} (h : addTarget w d tgt = .ok a) : Quiet d a.dem := by
  unfold NvmeDem.addTarget at h
  split at h
  · cases h
  · rename_i r hr
    have hrun : (StoreOp.addTarget tgt).run noJson d.root = .ok (r.ret, r.root) := by
      simp [StoreOp.run, hr, Except.map, Reply.step]
    have hp := hostPairs_run hrun rfl
    split at h
    · split at h
      · cases h
      · cases h
        exact ⟨hp, allocTarget ..⟩
    · cases h
      exact ⟨hp, .refl _⟩

theorem delTarget {tgt : Option String} (h : delTarget d tgt = .ok a) : Quiet d a.dem := by
  refine afterStore noJson (.delTarget tgt) h rfl rfl (fun r hp h => ?_)
  split at h
  · cases h
    exact ⟨hp, .refl _⟩
  · cases h
    refine ⟨hp, .of_targets rfl (fun t ht => ?_)⟩
    exact Or.inr ⟨t, List.mem_of_mem_eraseP ht, .of_mem (fun _ h => h)⟩

theorem updateTo_subsysList (out : TargetArg) (target : Target) : (target.updateTo out).subsysList = target.subsysList := by
  unfold Target.updateTo
  dsimp only
  split <;> rfl

/-- The end of `updateTarget`: `target` has no records but those of a target of the lists `l₀`. -/
theorem updateTargetEnd {root : Json} {lists : Lists} {ptr : Nat} {target : Target}
    (h : updateTargetEnd J w root lists ptr target = .ok a) (hp : hostPairs root = hostPairs d.root)
    (hl : Shrinks d.lists lists)
    (ht : target.subsysList = [] ∨ ∃ t ∈ lists.targetList, target.subsysList = t.subsysList) : Quiet d a.dem := by
  obtain ⟨⟨ret, root', target'⟩, hget, h⟩ := bind_eq_ok h
  cases h
  have hsame := Reported.getConfig hget
  refine ⟨hsame.root.hosts.trans hp, hl.trans (.of_targets rfl (fun t' ht' => ?_))⟩
  rcases Keyed.mem_modifyFirst ht' with ht' | ⟨t, -, -, rfl⟩
  · exact Or.inr ⟨t', ht', .of_mem (fun _ h => h)⟩
  · rw [hsame.subsysList]
    rcases ht with hnil | ⟨t₀, hmem, heq⟩
    · exact Or.inl hnil
    · rw [heq]
      exact Or.inr ⟨t₀, hmem, .of_mem (fun _ h => h)⟩

theorem updateTarget {tgt : Option String} {data : String} (h : updateTarget J w d tgt data = .ok a) : Quiet d a.dem := by
  refine afterStore J (.updateTarget tgt data zeroTarget) h rfl rfl (fun r hp h => ?_)
  split at h
  · exact updateTargetEnd h hp (allocTarget ..) (Or.inl (updateTo_subsysList ..))
  · split at h
    · cases h
      exact ⟨hp, .refl _⟩
    · rename_i target hfind
      exact updateTargetEnd h hp (.refl _)
        (Or.inr ⟨target, List.mem_of_find?_eq_some hfind, updateTo_subsysList ..⟩)

theorem interfaceOf_root {α : Type} {root : Json} {tgt data : String} {out : α} {r : Reply α}
    (h : interfaceOf J root tgt data out = .inl r) : r.root = root := by
  unfold interfaceOf at h
  split at h
  · cases h
    rfl
  · split at h
    · cases h
      rfl
    · split at h
      · cases h
        rfl
      · cases h

theorem setJsonOobInterface {root : Json} {tgt data port : String} {iface : OobIface} {r : Reply OobIface}
    (h : setJsonOobInterface J root tgt data iface port = .ok r) : hostPairs r.root = hostPairs root := by
  unfold NvmeDem.setJsonOobInterface at h
  split at h
  · rename_i hr
    cases h
    rw [interfaceOf_root hr]
  · obtain ⟨⟨iter, address⟩, -, h⟩ := bind_eq_ok h
    obtain ⟨⟨iter, port⟩, -, h⟩ := bind_eq_ok h
    cases h
    exact hostPairs_of_entries (Json.entries_putAt_ne (by decide) ..)

theorem setInterface {tgt data : String} (h : setInterface J w d tgt data = .ok a) : Quiet d a.dem := by
  unfold NvmeDem.setInterface at h
  split at h
  · cases h
    exact ⟨rfl, .refl _⟩
  · split at h
    · obtain ⟨r, hr, h⟩ := afterStore_ok h
      have hp := setJsonOobInterface hr
      rcases h with ⟨-, rfl⟩ | ⟨-, h⟩
      · exact ⟨hp, .refl _⟩
      · cases h
        exact ⟨hp, .onTarget (fun t _ => .of_mem (fun _ h => h))⟩
    · obtain ⟨r, hr, h⟩ := afterStore_ok h
      rcases h with ⟨-, rfl⟩ | ⟨-, h⟩
      · unfold setJsonInbInterface at hr
        split at hr
        · rename_i hinl
          cases hr
          exact ⟨by rw [interfaceOf_root hinl], .refl _⟩
        · cases hr
      · cases h
    · cases h
      exact ⟨rfl, .refl _⟩

theorem targetRefresh (tgt : String) : Quiet d (targetRefresh w d tgt).dem := by
  unfold NvmeDem.targetRefresh
  split
  · exact ⟨rfl, .refl _⟩
  · exact ⟨rfl, .withLogs _ w⟩

theorem targetReconfig (tgt : String) : Quiet d (targetReconfig w d tgt).dem := by
  unfold NvmeDem.targetReconfig
  split
  · exact ⟨rfl, .refl _⟩
  · exact ⟨rfl, .withLogs _ w⟩

end Quiet

end NvmeDem
