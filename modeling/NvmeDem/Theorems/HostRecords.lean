import NvmeDem.Dem.Requests
import NvmeDem.Lemmas.Members
import NvmeDem.Lemmas.Paired
import NvmeDem.Lemmas.Records

/-!
# A host is linked to a subsystem once

The store keeps the aliases of the hosts that a subsystem allows, the lists keep a record for each. A host is linked if the store
does not have it on the list, and its record is then put on the list without a look at what is there. So a subsystem has a host
twice as soon as the store has lost an alias whose record is still there. It loses the aliases in an update without an access,
which leaves a restricted record as it is; a subsystem whole when a host of it is deleted that the wrong subsystem lists; and the
record and its entry lose each other when the entry is given an empty NQN. A rename of a host to an alias that a record still has
makes two records of one alias as well.
-/

namespace NvmeDem

open Jansson Keyed

/-- The hosts of a record are distinct, and the list of its entry names them. -/
structure HostsListed (s : Json) (subsys : Subsystem) : Prop where
  array : s.canPush tagHosts = true
  nodup : (subsys.hostList.map Host.name).Nodup
  listed : ∀ h ∈ subsys.hostList, h.name ∈ s.strings tagHosts

theorem hostsListed_stable : Stable HostsListed where
  fills := fun hfill h => ⟨by rw [hfill.canPush, h.array], h.nodup, fun x hx => by
    rw [hfill.strings]
    exact h.listed x hx⟩
  pages := fun _ _ _ h => ⟨h.array, h.nodup, h.listed⟩

namespace HostsListed

variable {s s' : Json} {subsys : Subsystem}

/-- A subsystem without hosts. -/
theorem of_nil (harray : s.canPush tagHosts = true) (h : subsys.hostList = []) : HostsListed s subsys :=
  ⟨harray, by rw [h]; exact List.nodup_nil, by rw [h]; exact List.forall_mem_nil _⟩

theorem configSubsys (h : HostsListed s subsys) : HostsListed s (configSubsys subsys) := by
  unfold NvmeDem.configSubsys
  split
  · exact h
  · exact of_nil h.array rfl

/-- A host that the list does not name is linked. -/
theorem link (h : HostsListed s subsys) {name nqn : String} (hfresh : name ∉ s.strings tagHosts) :
    HostsListed (s.pushAt tagHosts (.string name)) { subsys with hostList := subsys.hostList ++ [{ name := name, nqn := nqn }] } := by
  have hstrings : (s.pushAt tagHosts (.string name)).strings tagHosts = s.strings tagHosts ++ [name] := by
    rw [Json.strings, Json.entries_pushAt_of_canPush h.array, List.filterMap_append]
    rfl
  refine ⟨by rw [Json.canPush_pushAt, h.array], ?_, ?_⟩
  · refine Keyed.nodup_map_concat h.nodup (fun hmem => ?_)
    obtain ⟨x, hx, rfl⟩ := List.mem_map.mp hmem
    exact hfresh (h.listed x hx)
  · rw [hstrings]
    exact Keyed.forall_mem_concat (fun x hx => List.mem_append_left _ (h.listed x hx)) (by simp)

/-- A host is unlinked. -/
theorem unlink (h : HostsListed s subsys) {name : String} {k : Nat} (hk : (s.entries tagHosts)[k]? = some (.string name)) :
    HostsListed (s.removeAt tagHosts k) { subsys with hostList := subsys.hostList.eraseP (fun x => x.name == name) } := by
  refine ⟨by rw [Json.canPush_removeAt, h.array], h.nodup.sublist (List.eraseP_sublist.map _), fun x hx => ?_⟩
  obtain ⟨hx, hne⟩ := Keyed.mem_eraseP_of_nodup h.nodup hx
  rw [Json.strings, Json.entries_removeAt]
  exact Keyed.mem_keys_eraseIdx hk (h.listed x hx) (fun heq => hne (Option.some.inj heq).symm)

/-- The record of a host takes an alias that no other record has, and the list names it by that alias. -/
theorem rename (h : HostsListed s subsys) {old new nqn : String}
    (hnew : new = old ∨ (old ∈ subsys.hostList.map Host.name → new ∉ subsys.hostList.map Host.name))
    (harray : s'.canPush tagHosts = true) (hkeep : ∀ m ∈ s.strings tagHosts, m ≠ old → m ∈ s'.strings tagHosts)
    (hren : old ∈ s.strings tagHosts → new ∈ s'.strings tagHosts) : HostsListed s' (subsys.updateHost old ⟨new, nqn⟩) := by
  by_cases hold : old ∈ subsys.hostList.map Host.name
  · refine ⟨harray, ?_, fun x hx => ?_⟩
    · exact Keyed.nodup_modifyFirst h.nodup (fun _ => rfl) (hnew.imp_right (fun hfree => hfree hold))
    · rcases Keyed.mem_modifyFirst_of_nodup h.nodup hx with ⟨hx, hne⟩ | ⟨y, hy, hname, rfl⟩
      · exact hkeep _ (h.listed x hx) hne
      · exact hren (hname ▸ h.listed y hy)
  · have hsame : subsys.updateHost old ⟨new, nqn⟩ = subsys := by
      unfold Subsystem.updateHost
      rw [Keyed.modifyFirst_of_forall_not]
      intro x hx
      rw [beq_eq_false_iff_ne]
      exact fun heq => hold (List.mem_map.mpr ⟨x, hx, heq⟩)
    rw [hsame]
    refine ⟨harray, h.nodup, fun x hx => hkeep _ (h.listed x hx) (fun heq => ?_)⟩
    exact hold (List.mem_map.mpr ⟨x, hx, heq⟩)

end HostsListed

/-! ## Requests on one subsystem -/

section

variable {J : JsonLib} {w : World} {d : Daemon} {a : Answer} {tgt subnqn : String}

theorem Paired.unlinkHost (h : Paired (SubsysPaired HostsListed) d) {name : String}
    (hr : unlinkHost w d tgt subnqn name = .ok a) : Paired (SubsysPaired HostsListed) a.dem := by
  obtain ⟨r, hstore, hr⟩ := afterStore_ok hr
  obtain rfl := Except.ok.inj hstore
  rcases ret_cases (delJsonAcl_ok d.root tgt subnqn name) hr with ⟨hfill, rfl⟩ | ⟨⟨i, t, j, s, k, ht, hs, hk, hroot⟩, hr⟩
  · exact hostsListed_stable.of_fills h hfill
  · obtain ⟨target, hfind, hname, hrel⟩ := h.find ht
    obtain ⟨subsys, hfound, -, -⟩ := hrel.find hs
    have hkey : (s.removeAt tagHosts k).strField tagSubnqn = s.strField tagSubnqn :=
      Json.strField_removeAt_ne (by decide) s k
    simp only [hfind, hfound] at hr
    split at hr
    · -- The host has no record, so that nothing leaves the lists.
      rename_i hnone
      cases hr
      rw [hroot]
      refine Paired.putSubsys h ht hs hkey (fun target' subsys' hfind' hfound' hl => ?_)
      obtain rfl := Option.some.inj (hfind.symm.trans hfind')
      obtain rfl := Option.some.inj (hfound.symm.trans hfound')
      have hsame := hl.unlink hk
      rwa [List.eraseP_of_forall_not (fun x hx => by simpa using List.find?_eq_none.mp hnone x hx)] at hsame
    · cases hr
      refine hostsListed_stable.withLogs (Paired.notify ?_ _) w
      rw [hroot]
      refine Paired.onTarget h ht (fun _ _ _ _ => ⟨?_, ?_⟩)
      · rw [Json.strField_putAt_ne (by decide), ht.key, ← hname]
        rfl
      · refine SubsysPaired.onSubsys hrel hs (fun subsys _ hsubsys hl => ⟨?_, hl.unlink hk⟩)
        rw [hkey, hs.key, ← hsubsys]

theorem Paired.linkHost (h : Paired (SubsysPaired HostsListed) d) {host : Option String} {data : String}
    (hr : NvmeDem.linkHost J w d tgt subnqn host data = .ok a) : Paired (SubsysPaired HostsListed) a.dem := by
  obtain ⟨r, hstore, hr⟩ := afterStore_ok hr
  rcases ret_cases (setJsonAcl_ok hstore) hr with ⟨hfill, rfl⟩ | ⟨hadd, hr⟩
  · exact hostsListed_stable.of_fills h hfill
  · obtain ⟨i, t, j, s, ht, hs, hfresh, hroot⟩ := hadd.added
    obtain ⟨target, hfind, -, hrel⟩ := h.find ht
    obtain ⟨subsys, hfound, -, -⟩ := hrel.find hs
    simp only [hfind, hfound, hadd.getD_eq] at hr
    split at hr
    · cases hr
    · cases hr
      refine hostsListed_stable.withLogs (Paired.notify ?_ _) w
      rw [hroot]
      refine Paired.onSubsys h ht hs (fun _ subsys _ _ hsubsys hl => ⟨?_, hl.link hfresh⟩)
      rw [Json.strField_pushAt_ne (by decide), hs.key, ← hsubsys]

theorem strcpy_error {size : Nat} {v : Option String} {f : Fault} (h : strcpy size v = .error f) : f ≠ .relinked := by
  unfold strcpy at h
  split at h
  · cases h
    decide
  · split at h
    · cases h
    · cases h
      decide

theorem setJsonAcl_error {root : Json} {host : Option String} {data : String} {arg : HostOut} {f : Fault}
    (h : setJsonAcl J root tgt subnqn host data arg = .error f) : f ≠ .relinked := by
  unfold setJsonAcl at h
  repeat' split at h
  all_goals first | cases h; done | skip
  · rename_i hname
    cases h
    unfold aclAlias at hname
    split at hname
    · exact strcpy_error (Option.some.inj hname)
    · obtain ⟨new, -, hmap⟩ := Option.bind_eq_some_iff.mp hname
      obtain ⟨value, -, hcopy⟩ := Option.map_eq_some_iff.mp hmap
      exact strcpy_error hcopy
  · unfold setJsonAclBody at h
    repeat' split at h
    all_goals first | cases h; done | skip
    rename_i hcopy
    cases h
    exact strcpy_error hcopy

/-- A host that is linked is not on the list already. -/
theorem linkHost_ne_relinked (h : Paired (SubsysPaired HostsListed) d) (host : Option String) (data : String) :
    linkHost J w d tgt subnqn host data ≠ .error .relinked := by
  intro hr
  unfold linkHost afterStore at hr
  split at hr
  · rename_i f hstore
    cases hr
    exact setJsonAcl_error hstore rfl
  · rename_i r hstore
    split at hr
    · rename_i hz
      rcases setJsonAcl_ok hstore with ⟨hne, -⟩ | ⟨-, hadd⟩
      · exact absurd hz hne
      · obtain ⟨i, t, j, s, ht, hs, hfresh, -⟩ := hadd.added
        obtain ⟨target, hfind, -, hrel⟩ := h.find ht
        obtain ⟨subsys, hfound, -, hl⟩ := hrel.find hs
        have hany : subsys.hostList.any (fun x => x.name == r.out.newalias) = false := by
          rw [List.any_eq_false]
          intro x hx
          rw [beq_iff_eq]
          exact fun heq => hfresh (heq ▸ hl.listed x hx)
        simp only [hfind, hfound, hadd.getD_eq, hany, Bool.false_eq_true, if_false] at hr
        cases hr
    · cases hr

/-! ## Updates of a subsystem -/

theorem canPush_of_objectGet {j j' : Json} {k : String} (hobj : j'.isObject = j.isObject)
    (hget : j'.objectGet k = j.objectGet k) : j'.canPush k = j.canPush k := by
  simp only [Json.canPush, hobj, Json.arrayOr, hget]

/-- The list of an entry that an access was given to is as it was or gone, as the access is restricted or not. -/
theorem updateSubsysAccess_hosts {s : Json} (body : Json) (arg : SubsysArg) (harray : s.canPush tagHosts = true) :
    (updateSubsysAccess s body arg).1.canPush tagHosts = true ∧
      ((updateSubsysAccess s body arg).2.access = restricted →
        (updateSubsysAccess s body arg).1.strings tagHosts = s.strings tagHosts) := by
  have hget : (jsonUpdateIntEx s body tagAllowAny arg.access).1.objectGet tagHosts = s.objectGet tagHosts :=
    objectGet_jsonUpdateIntEx_ne (by decide) s body _
  have hobj := isObject_jsonUpdateIntEx s body tagAllowAny arg.access
  unfold updateSubsysAccess
  dsimp only
  split
  · refine ⟨by rw [canPush_of_objectGet hobj hget, harray], fun _ => ?_⟩
    simp only [Json.strings, Json.entries, hget]
  · rename_i hne
    refine ⟨?_, fun heq => absurd heq hne⟩
    rw [Json.canPush, Json.isObject_objectDel, hobj, Json.arrayOr, Json.objectGet_objectDel_self,
      (Bool.and_eq_true_iff.mp harray).1]
    rfl

/-- An update of a subsystem that has hosts and is restricted gives an access. -/
def AccessGiven (subsys : Subsystem) (body : Json) : Prop :=
  subsys.isRestricted = true → subsys.hostList ≠ [] →
    ∃ v, body.objectGet tagAllowAny = some v ∧ cInt v.integerValue ≠ undefinedAccess

theorem HostsListed.update {s s' body : Json} {subsys : Subsystem} {old newnqn : String} (h : HostsListed s subsys)
    (hobj : s.isObject = true) (hupd : jsonUpdateStringEx s body tagSubnqn maxNqnSize old = .ok (s', newnqn))
    (hgiven : AccessGiven subsys body) :
    HostsListed (updateSubsysAccess s' body ⟨newnqn, undefinedAccess⟩).1
      (NvmeDem.configSubsys (subsys.updateTo (updateSubsysAccess s' body ⟨newnqn, undefinedAccess⟩).2)) := by
  have hget : s'.objectGet tagHosts = s.objectGet tagHosts := objectGet_jsonUpdateStringEx_ne (by decide) hupd
  obtain ⟨harray, hkept⟩ := updateSubsysAccess_hosts body ⟨newnqn, undefinedAccess⟩
    ((canPush_of_objectGet (isObject_jsonUpdateStringEx hupd) hget).trans h.array)
  by_cases hz : (updateSubsysAccess s' body ⟨newnqn, undefinedAccess⟩).2.access = restricted
  · refine HostsListed.configSubsys ⟨harray, h.nodup, fun x hx => ?_⟩
    rw [hkept hz, Json.strings, Json.entries, hget]
    exact h.listed x hx
  · refine .of_nil harray ?_
    unfold NvmeDem.configSubsys
    split
    · -- A record that is restricted after the update was so before, and the update gave no access: it has no hosts.
      rename_i hres
      by_contra hhosts
      have haccess := beq_iff_eq.mp hres
      have hmark : (updateSubsysAccess s' body ⟨newnqn, undefinedAccess⟩).2.access = undefinedAccess := by
        by_contra hne
        exact hz ((if_neg hne).symm.trans haccess)
      have hwas : subsys.isRestricted = true := beq_iff_eq.mpr ((if_pos hmark).symm.trans haccess)
      obtain ⟨v, hv, hne⟩ := hgiven hwas hhosts
      apply hne
      rw [← hmark]
      unfold updateSubsysAccess
      dsimp only
      simp only [jsonUpdateIntEx, hv, isObject_jsonUpdateStringEx hupd, hobj, if_true]
    · rfl

/-! ## Updates of a host -/

/-- A host takes an alias that no subsystem with a record of it has a record of. -/
def AliasFree (lists : Lists) (old : String) (body : Json) : Prop :=
  ∀ new, body.strField tagAlias = some new → new ≠ old → ∀ subsys ∈ lists.subsystems,
    old ∈ subsys.hostList.map Host.name → new ∉ subsys.hostList.map Host.name

theorem mem_subsystems {lists : Lists} {target : Target} {subsys : Subsystem} (htarget : target ∈ lists.targetList)
    (hsubsys : subsys ∈ target.subsysList) : subsys ∈ lists.subsystems := List.mem_flatMap.mpr ⟨target, htarget, hsubsys⟩

theorem Paired.updateHost (h : Paired (SubsysPaired HostsListed) d) {host : Option String} {data : String}
    (hfree : ∀ old body, host = some old → J.loads data = some body → AliasFree d.lists old body)
    (hr : NvmeDem.updateHost J w d host data = .ok a) : Paired (SubsysPaired HostsListed) a.dem := by
  obtain ⟨r, hstore, hr⟩ := afterStore_ok hr
  rcases ret_cases (updateJsonHost_ok hstore) hr with ⟨hfill, rfl⟩ | ⟨⟨body, hbody, hupd⟩, hr⟩
  · exact hostsListed_stable.of_fills h hfill
  · cases hr
    refine hostsListed_stable.withLogs ?_ w
    -- An update that leaves the targets of the store as they are, and the alias.
    have hsame : ∀ {root' : Json} {name nqn : String}, root'.entries tagTargets = d.root.entries tagTargets →
        Paired (SubsysPaired HostsListed) ⟨root', d.lists.updateHost name ⟨name, nqn⟩⟩ := by
      intro root' name nqn hroot
      refine Paired.mapSubsystems (T := Eq) (S := fun _ => Eq) h (by rw [hroot]; exact List.forall₂_refl _) ?_ ?_ (fun _ => rfl) ?_
      · rintro t _ rfl
        exact ⟨rfl, List.forall₂_refl _⟩
      · rintro t s _ rfl
        rfl
      · rintro t s _ target subsys - - - - rfl hl
        exact hl.rename (Or.inl rfl) hl.array (fun m hm _ => hm) (fun hm => hm)
    generalize r.out = out at hupd ⊢
    generalize r.root = root' at hupd ⊢
    cases hupd with
    | keep => exact hsame (Json.entries_putAt_ne (by decide) ..)
    | create => exact hsame (Json.entries_pushAt_ne (by decide) ..)
    | @rename old new nqn i x x' hx hold hnew hne hfresh hnqn =>
      refine Paired.mapSubsystems (T := fun t t' => t' = targetRenamed old new t)
        (S := fun _ s s' => s' = s.adjust tagHosts (renameFirst old new)) h ?_ ?_ ?_ (fun _ => rfl) ?_
      · rw [Json.entries_putAt_ne (by decide), entries_renameInGroups_ne (by decide), entries_renameInAllowedHosts,
          Json.entries_putAt_ne (by decide)]
        exact List.forall₂_map_right_iff.mpr (List.forall₂_same.mpr (fun _ _ => rfl))
      · rintro t _ rfl
        refine ⟨Json.strField_adjust_ne (by decide) t _, ?_⟩
        rw [targetRenamed, Json.entries_adjust_arrayMap]
        exact List.forall₂_map_right_iff.mpr (List.forall₂_same.mpr (fun _ _ => rfl))
      · rintro t s _ rfl
        exact Json.strField_adjust_ne (by decide) s _
      · rintro t s _ target subsys htarget hsubsys - - rfl hl
        obtain ⟨hkeep, hren⟩ := @mem_strings_renameFirst s tagHosts old new
        refine hl.rename (Or.inr ?_) ?_ hkeep hren
        · exact hfree old body rfl hbody new hnew (Ne.symm hne) subsys (mem_subsystems htarget hsubsys)
        · rw [Json.canPush_adjust (isArray_renameFirst old new), hl.array]

/-! ## Deleting a host -/

/-- What becomes of an access list: its mentions stay, apart from those of `name` where `gone` says. -/
structure AclKept (name : String) (gone : Option String → Prop) (s s' : Json) : Prop where
  nqn : s'.strField tagSubnqn = s.strField tagSubnqn
  array : s'.canPush tagHosts = s.canPush tagHosts
  mentions : ∀ m ∈ s.strings tagHosts, ¬(m = name ∧ gone (s.strField tagSubnqn)) → m ∈ s'.strings tagHosts

/-- What becomes of a target: its access lists are kept. -/
structure TargetKept (name : String) (gone : Option String → Option String → Prop) (t t' : Json) : Prop where
  key : t'.strField tagAlias = t.strField tagAlias
  subsystems :
    List.Forall₂ (AclKept name (gone (t.strField tagAlias))) (t.entries tagSubsystems) (t'.entries tagSubsystems)

theorem AclKept.refl (name : String) (gone : Option String → Prop) (s : Json) : AclKept name gone s s :=
  ⟨rfl, rfl, fun _ hm _ => hm⟩

theorem AclKept.trans {name : String} {gone : Option String → Prop} {s s' s'' : Json} (h : AclKept name gone s s')
    (h' : AclKept name gone s' s'') : AclKept name gone s s'' :=
  ⟨h'.nqn.trans h.nqn, h'.array.trans h.array, fun m hm hne => h'.mentions m (h.mentions m hm hne) (by rwa [h.nqn])⟩

theorem AclKept.of_fills {name : String} {gone : Option String → Prop} {s s' : Json} (h : Json.Fills s s') :
    AclKept name gone s s' :=
  ⟨h.strField _, h.canPush _, fun m hm _ => by rwa [h.strings]⟩

theorem TargetKept.refl (name : String) (gone : Option String → Option String → Prop) (t : Json) : TargetKept name gone t t :=
  ⟨rfl, List.forall₂_same.mpr (fun s _ => .refl name _ s)⟩

theorem TargetKept.trans {name : String} {gone : Option String → Option String → Prop} {t t' t'' : Json}
    (h : TargetKept name gone t t') (h' : TargetKept name gone t' t'') : TargetKept name gone t t'' := by
  refine ⟨h'.key.trans h.key, Keyed.forall₂_trans (P := AclKept name _) (fun _ _ _ => AclKept.trans) h.subsystems ?_⟩
  rw [← h.key]
  exact h'.subsystems

theorem TargetKept.of_fills {name : String} {gone : Option String → Option String → Prop} {t t' : Json}
    (h : Json.Fills t t') : TargetKept name gone t t' :=
  ⟨h.strField _, (h.entries _).imp (fun _ _ hs => .of_fills hs)⟩

/-- The targets of two stores, entry by entry. -/
def AclsKept (name : String) (gone : Option String → Option String → Prop) (root root' : Json) : Prop :=
  List.Forall₂ (TargetKept name gone) (root.entries tagTargets) (root'.entries tagTargets)

/-- A mention of the host is taken from the access list of a subsystem. -/
theorem AclsKept.delJsonAcl {name : String} {gone : Option String → Option String → Prop} (root : Json) {tgt nqn : String}
    (hgone : gone (some tgt) (some nqn)) : AclsKept name gone root (delJsonAcl root tgt nqn name).root := by
  rcases delJsonAcl_ok root tgt nqn name with ⟨-, hfill⟩ | ⟨-, i, t, j, s, k, ht, hs, hk, hroot⟩
  · exact (hfill.entries _).imp (fun _ _ h => .of_fills h)
  · unfold AclsKept
    rw [hroot, Json.entries_putAt]
    refine Keyed.forall₂_set (.refl name gone) ht.get ⟨Json.strField_putAt_ne (by decide) .., ?_⟩
    rw [Json.entries_putAt]
    refine Keyed.forall₂_set (.refl name _) hs.get ⟨Json.strField_removeAt_ne (by decide) .., Json.canPush_removeAt .., ?_⟩
    intro m hm hne
    rw [ht.key, hs.key] at hne
    rw [Json.strings, Json.entries_removeAt]
    exact Keyed.mem_keys_eraseIdx hk hm (fun heq => hne ⟨(Option.some.inj heq).symm, hgone⟩)

/-- The walk over the records: the mentions of the host go from the lists of the restricted subsystems that have a record. -/
theorem AclsKept.delHostAcls {name : String} {gone : Option String → Option String → Prop} {targets : List Target}
    (hgone : ∀ target ∈ targets, ∀ subsys ∈ target.subsysList, subsys.isRestricted = true →
      subsys.hostList.any (fun x => x.name == name) = true → gone (some target.name) (some subsys.nqn)) (root : Json) :
    AclsKept name gone root (targets.foldl (delHostAcls name) root) := by
  have hrefl : ∀ root, AclsKept name gone root root := fun root => List.forall₂_same.mpr (fun t _ => .refl name gone t)
  have htrans : ∀ r₁ r₂ r₃, AclsKept name gone r₁ r₂ → AclsKept name gone r₂ r₃ → AclsKept name gone r₁ r₃ :=
    fun _ _ _ h h' => Keyed.forall₂_trans (P := TargetKept name gone) (fun _ _ _ => TargetKept.trans) h h'
  refine foldl_related hrefl htrans (fun root target htarget => ?_) root
  refine foldl_related hrefl htrans (fun root subsys hsubsys => ?_) root
  split
  · rename_i hcond
    obtain ⟨hres, hany⟩ := Bool.and_eq_true_iff.mp hcond
    exact .delJsonAcl root (hgone target htarget subsys hsubsys hres hany)
  · exact hrefl root

/-- What the walk over the store looks at: in the target at a place, the list of the subsystem at the same place. Where that
list names the host, a subsystem goes if there is one at the place of the name. -/
def NothingGoes (root : Json) (name : String) : Prop :=
  ∀ (i : Nat) (t s : Json) (k : Nat), (root.entries tagTargets)[i]? = some t → (t.entries tagSubsystems)[i]? = some s →
    findArrayString (s.arrayOr tagHosts) name = some k → (t.entries tagSubsystems).length ≤ k

theorem delAllowedStep_eq {i : Nat} {name : String} {array : Json}
    (h : ∀ s k, array.elems[i]? = some s → findArrayString (s.arrayOr tagHosts) name = some k → array.elems.length ≤ k) :
    delAllowedStep i name array = array := by
  unfold delAllowedStep
  split
  · rfl
  · rename_i list hlist
    split
    · rename_i k hk
      cases hs : array.elems[i]? with
      | none => simp [arrayGet, hs, Json.objectGet] at hlist
      | some s =>
        have hget : arrayGet array i = s := by rw [arrayGet, hs, Option.getD_some]
        rw [hget] at hlist
        have hlen := h s k hs (by rwa [arrayOr_of_objectGet hlist])
        cases array with
        | array xs =>
          show Json.array (xs.eraseIdx k) = Json.array xs
          rw [List.eraseIdx_of_length_le (by exact hlen)]
        | _ => rfl
    · rfl

theorem targetWithout_eq {name : String} {i : Nat} {t : Json}
    (h : ∀ s k, (t.entries tagSubsystems)[i]? = some s → findArrayString (s.arrayOr tagHosts) name = some k →
      (t.entries tagSubsystems).length ≤ k) : targetWithout name i t = t := by
  unfold targetWithout Json.adjust
  split
  · rfl
  · rename_i array harray
    have hstep : delAllowedStep i name array = array := delAllowedStep_eq (by rwa [entries_of_objectGet harray] at h)
    have hloop : (List.range array.elems.length).foldl (fun array _ => delAllowedStep i name array) array = array := by
      induction List.range array.elems.length with
      | nil => rfl
      | cons _ _ ih => rw [List.foldl_cons, hstep, ih]
    dsimp only
    rw [hloop]
    exact Json.objectSet_objectGet harray

theorem entries_nothingGoes {root : Json} {name : String} (h : NothingGoes root name) :
    (delFromAllowedHosts root name).entries tagTargets = root.entries tagTargets := by
  rw [entries_delFromAllowedHosts]
  refine List.ext_getElem? (fun i => ?_)
  rw [List.getElem?_mapIdx]
  cases ht : (root.entries tagTargets)[i]? with
  | none => rfl
  | some t =>
    rw [Option.map_some, targetWithout_eq (fun s k hs hk => h i t s k ht hs hk)]

/-- No subsystem that is open to every host has a record of the host under the names of a restricted one that has a record of it
too. -/
def NamesTell (lists : Lists) (name : String) : Prop :=
  ∀ target ∈ lists.targetList, ∀ subsys ∈ target.subsysList, ∀ target' ∈ lists.targetList, ∀ subsys' ∈ target'.subsysList,
    target'.name = target.name → subsys'.nqn = subsys.nqn → subsys.isRestricted = false → subsys'.isRestricted = true →
    name ∈ subsys.hostList.map Host.name → name ∉ subsys'.hostList.map Host.name

theorem Paired.delHost (h : Paired (SubsysPaired HostsListed) d) {host : Option String}
    (hgoes : ∀ name, host = some name → NothingGoes d.root name) (htell : ∀ name, host = some name → NamesTell d.lists name)
    (hr : NvmeDem.delHost w d host = .ok a) : Paired (SubsysPaired HostsListed) a.dem := by
  obtain ⟨r, hstore, hr⟩ := afterStore_ok hr
  rcases ret_cases (delJsonHost_ok hstore) hr with ⟨hroot, rfl⟩ | ⟨⟨i, x, name, hx, hkey, rfl, hroot⟩, hr⟩
  · rw [hroot]
    exact h
  · cases hr
    refine hostsListed_stable.withLogs ?_ w
    have hsame : r.root.entries tagTargets = d.root.entries tagTargets := by
      have hremoved : (d.root.removeAt tagHosts i).entries tagTargets = d.root.entries tagTargets :=
        Json.entries_removeAt_ne (by decide) d.root i
      rw [hroot, entries_delFromGroups_ne (by decide), entries_nothingGoes, hremoved]
      unfold NothingGoes
      rw [hremoved]
      exact hgoes name rfl
    let gone : Option String → Option String → Prop := fun tgt nqn => ∃ target ∈ d.lists.targetList,
      ∃ subsys ∈ target.subsysList, tgt = some target.name ∧ nqn = some subsys.nqn ∧ subsys.isRestricted = true ∧
        name ∈ subsys.hostList.map Host.name
    have hkept : AclsKept name gone r.root (d.lists.targetList.foldl (delHostAcls name) r.root) := by
      refine .delHostAcls (fun target htarget subsys hsubsys hres hany => ?_) r.root
      obtain ⟨y, hy, heq⟩ := List.any_eq_true.mp hany
      exact ⟨target, htarget, subsys, hsubsys, rfl, rfl, hres, List.mem_map.mpr ⟨y, hy, beq_iff_eq.mp heq⟩⟩
    unfold AclsKept at hkept
    rw [hsame] at hkept
    refine Paired.mapSubsystems (S := fun t => AclKept name (gone (t.strField tagAlias))) h hkept
      (fun t t' ht => ⟨ht.key, ht.subsystems⟩) (fun _ _ _ hs => hs.nqn) (fun subsys => ?_) ?_
    · unfold Subsystem.delHost
      split <;> rfl
    · intro t s s' target subsys htarget hsubsys halias hnqn hs hl
      unfold Subsystem.delHost
      split
      · -- The record goes, so that the mention may.
        refine ⟨hs.array.trans hl.array, hl.nodup.sublist (List.eraseP_sublist.map _), fun y hy => ?_⟩
        obtain ⟨hy, hne⟩ := Keyed.mem_eraseP_of_nodup hl.nodup hy
        exact hs.mentions _ (hl.listed y hy) (fun hgone => hne hgone.1)
      · rename_i hres
        refine ⟨hs.array.trans hl.array, hl.nodup, fun y hy => hs.mentions _ (hl.listed y hy) ?_⟩
        rintro ⟨hname, target', htarget', subsys', hsubsys', halias', hnqn', hres', hmem⟩
        rw [halias] at halias'
        rw [hnqn] at hnqn'
        exact htell name rfl target htarget subsys hsubsys target' htarget' subsys' hsubsys'
          (Option.some.inj halias').symm (Option.some.inj hnqn').symm (by simpa using hres) hres'
          (List.mem_map.mpr ⟨y, hy, hname⟩) hmem

end

/-! ## Runs -/

/-- The requests that set subsystems, link and unlink hosts, and update and delete them. -/
def Request.editsHosts : Request → Bool
  | .setSubsys _ _ _ | .linkHost _ _ _ _ | .unlinkHost _ _ _ | .updateHost _ _ | .delHost _ => true
  | _ => false

/-- A request keeps the lists of the store and the records together: an update of a restricted subsystem that has hosts gives an
access, and none gives an empty NQN; a host takes an alias that is free; and a host that is deleted takes no subsystem with it. -/
def Request.KeepsLists (J : JsonLib) (d : Daemon) : Request → Prop
  | .setSubsys tgt (some old) data =>
    ∀ body t i j s target subsys, J.loads data = some body → TargetAt d.root tgt i t → SubsysAt t old j s →
      FreeNqn t body (some old) → findTarget d.lists tgt = some target → findSubsys target old = some subsys →
      (body.strField tagSubnqn = some "" → old = "") ∧ AccessGiven subsys body
  | .updateHost (some old) data => ∀ body, J.loads data = some body → AliasFree d.lists old body
  | .delHost (some name) => NothingGoes d.root name ∧ NamesTell d.lists name
  | _ => True

theorem keepsSubsys_hostsListed {J : JsonLib} {d : Daemon} {tgt data : String} {nqn : Option String}
    (h : Request.KeepsLists J d (.setSubsys tgt nqn data)) : KeepsSubsys J HostsListed d tgt nqn data where
  same := fun _ _ hl => hl.configSubsys
  change := by
    intro old body t i j s s' newnqn target subsys hnqn hbody ht hs hupd hfind hfound hfresh hl
    subst hnqn
    have hobj := Json.isObject_of_strField hs.key
    obtain ⟨hempty, hgiven⟩ := h body t i j s target subsys hbody ht hs (freeNqn_of_update hobj hupd hfresh) hfind hfound
    exact ⟨newnqn_empty hobj hupd hempty, hl.update hobj hupd hgiven⟩
  create := by
    intro body t i newnqn _ _ _ _ _ _
    exact .of_nil (updateSubsysAccess_hosts body _ rfl).1 rfl

theorem HostsListed.step {J : JsonLib} {op : World × Request} {d d' : Daemon} (h : Paired (SubsysPaired HostsListed) d)
    (hop : op.2.editsHosts = true) (hkeeps : op.2.KeepsLists J d) (hs : demStep J op d d') :
    Paired (SubsysPaired HostsListed) d' := by
  obtain ⟨w, req⟩ := op
  obtain ⟨-, a, hr, rfl⟩ := hs
  cases req with
  | setSubsys tgt nqn data => exact h.setSubsys hostsListed_stable (keepsSubsys_hostsListed hkeeps) hr
  | linkHost tgt subnqn host data => exact h.linkHost hr
  | unlinkHost tgt subnqn name => exact h.unlinkHost hr
  | updateHost host data =>
    refine h.updateHost (fun old body hold => ?_) hr
    subst hold
    exact hkeeps body
  | delHost host =>
    refine h.delHost (fun name hname => ?_) (fun name hname => ?_) hr
    · subst hname
      exact hkeeps.1
    · subst hname
      exact hkeeps.2
  | _ => cases hop

/-- In every run of requests that keep the lists of the store and the records together, no subsystem has a host twice, and a
host that is linked is never on the list already. -/
theorem hosts_linked_once {J : JsonLib} {d₀ d : Daemon} (h₀ : Paired (SubsysPaired HostsListed) d₀)
    (hrun : Run (demStep J) (fun d op => op.2.editsHosts = true ∧ op.2.KeepsLists J d) d₀ d) :
    (∀ subsys ∈ d.lists.subsystems, (subsys.hostList.map Host.name).Nodup) ∧
      ∀ w tgt subnqn host data, linkHost J w d tgt subnqn host data ≠ .error .relinked := by
  have h : Paired (SubsysPaired HostsListed) d := hrun.invariant h₀ (fun _ _ _ hi ha hs => HostsListed.step hi ha.1 ha.2 hs)
  refine ⟨fun subsys hsubsys => ?_, fun w tgt subnqn host data => linkHost_ne_relinked h host data⟩
  obtain ⟨target, htarget, hsubsys⟩ := List.mem_flatMap.mp hsubsys
  obtain ⟨t, -, -, hrel⟩ := Pairs.of_mem h htarget
  obtain ⟨s, -, -, hl⟩ := Pairs.of_mem hrel hsubsys
  exact hl.nodup

/-- A daemon with a host and a target that has a restricted subsystem without hosts. -/
def aclDaemon : Daemon where
  root := .object [(tagHosts, .array [.object [(tagAlias, .string "h"), (tagHostnqn, .string "q")]]),
    (tagTargets, .array [.object [(tagAlias, .string "t"),
      (tagSubsystems, .array [.object [(tagSubnqn, .string "s"), (tagAllowAny, .integer 0)]])]])]
  lists := { targetList := [{ ptr := 0, name := "t", subsysList := [{ nqn := "s" }] }] }

theorem aclDaemon_paired : Paired (SubsysPaired HostsListed) aclDaemon :=
  .cons ⟨rfl, .cons ⟨rfl, .of_nil rfl rfl⟩ .nil⟩ .nil

/-- The texts of two bodies: one with a restricted access, one with an NQN. -/
def restrictedText : String := "\x7b\"AllowAnyHost\":0\x7d"
def sameSubnqnText : String := "\x7b\"SUBNQN\":\"s\"\x7d"

def aclBodies : JsonLib :=
  .ofTexts [(restrictedText, .object [(tagAllowAny, .integer 0)]), (sameSubnqnText, .object [(tagSubnqn, .string "s")])]

/-- A host is linked, the access of the subsystem is given again, and the host is linked again: the store refuses it. -/
theorem hosts_linked_once_updated :
    ∃ d : Daemon, d.lists.targetList.map (fun t => t.subsysList.map Subsystem.hostList) = [[[⟨"h", "q"⟩]]] ∧
      (∀ subsys ∈ d.lists.subsystems, (subsys.hostList.map Host.name).Nodup) ∧
      ∀ w tgt subnqn host data, linkHost aclBodies w d tgt subnqn host data ≠ .error .relinked := by
  have hlink := Run.request { addr := 1 } (.linkHost "t" "s" (some "h") "")
    (.start : Run (demStep aclBodies) (fun d op => op.2.editsHosts = true ∧ op.2.KeepsLists aclBodies d) aclDaemon _)
    ⟨rfl, trivial⟩ (by decide) rfl
  have hupdate := Run.request { addr := 1 } (.setSubsys "t" (some "s") restrictedText) hlink
    ⟨rfl, fun body t i j s target subsys hbody _ _ _ _ _ => by
      cases hbody
      exact ⟨fun h => absurd h (by decide), fun _ _ => ⟨_, rfl, by decide⟩⟩⟩ (by decide) rfl
  have hagain := Run.request { addr := 1 } (.linkHost "t" "s" (some "h") "") hupdate ⟨rfl, trivial⟩ (by decide) rfl
  exact ⟨_, rfl, hosts_linked_once aclDaemon_paired hagain⟩

/-- A host is linked, the subsystem is updated without an access, and the host is linked again: its record is on the list. -/
theorem hosts_linked_twice :
    ¬∀ (J : JsonLib) (d₀ d : Daemon), Paired (SubsysPaired HostsListed) d₀ →
      Run (demStep J) (fun _ op => op.2.editsHosts = true) d₀ d →
        ∀ w tgt subnqn host data, linkHost J w d tgt subnqn host data ≠ .error .relinked := by
  intro h
  have hlink := Run.request { addr := 1 } (.linkHost "t" "s" (some "h") "")
    (.start : Run (demStep aclBodies) (fun _ op => op.2.editsHosts = true) aclDaemon _) rfl (by decide) rfl
  have hupdate := Run.request { addr := 1 } (.setSubsys "t" (some "s") sameSubnqnText) hlink rfl (by decide) rfl
  exact h aclBodies aclDaemon _ aclDaemon_paired hupdate {} "t" "s" (some "h") "" rfl

end NvmeDem
