import NvmeDem.Dem.Requests
import NvmeDem.Lemmas.Inventory

/-!
# The aliases of the targets

A request on a target finds its entry in the store by the alias, and its record in the lists by the same alias. The store keeps
an alias as long as it is given, a record keeps the first 64 characters of it. As long as no longer one is given, the store and
the lists have the same aliases in the same order.
-/

namespace NvmeDem

open Jansson

/-- The records have the aliases of the entries, in their order. An alias of a record fits its field, and the records have
addresses of their own. -/
structure SameAliases (d : Daemon) : Prop where
  array : d.root.canPush tagTargets = true
  aliases : d.lists.targetList.map Target.name = d.root.keys tagTargets tagAlias
  fits : ∀ t ∈ d.lists.targetList, t.name.length ≤ maxAliasSize
  distinct : (d.lists.targetList.map Target.ptr).Nodup

theorem SameRoot.aliases {root root' : Json} (h : SameRoot root root') :
    root'.keys tagTargets tagAlias = root.keys tagTargets tagAlias := by
  have hall := h.targets
  unfold Json.keys
  generalize root.entries tagTargets = xs at hall
  generalize root'.entries tagTargets = ys at hall
  induction hall with
  | nil => rfl
  | cons hx _ ih =>
    have hfield : ∀ {t t' : Json}, SameEntry t t' → t'.strField tagAlias = t.strField tagAlias := by
      intro t t' ht
      simp only [Json.strField, ht tagAlias (by decide) (by decide)]
    simp only [List.filterMap_cons, hfield hx, ih]

namespace SameAliases

variable {J : JsonLib} {w : World} {d : Daemon} {a : Answer}

theorem of_fills (h : SameAliases d) {root' : Json} (hfill : Json.Fills d.root root') :
    SameAliases { d with root := root' } :=
  ⟨by rw [hfill.canPush, h.array], by rw [hfill.keys, h.aliases], h.fits, h.distinct⟩

theorem find (h : SameAliases d) {name : String} (hname : name ∈ d.root.keys tagTargets tagAlias) :
    ∃ target, findTarget d.lists name = some target ∧ target.name = name := by
  rw [← h.aliases] at hname
  obtain ⟨t, ht, rfl⟩ := List.mem_map.mp hname
  have hsome : (findTarget d.lists t.name).isSome = true := List.find?_isSome.mpr ⟨t, ht, beq_self_eq_true _⟩
  obtain ⟨target, htarget⟩ := Option.isSome_iff_exists.mp hsome
  exact ⟨target, htarget, beq_iff_eq.mp (List.find?_some (p := fun u : Target => u.name == t.name) htarget)⟩

theorem fresh_addr (hf : w.Fresh d) : ∀ t ∈ d.lists.targetList, (t.ptr == w.addr) = false := by
  intro t ht
  rw [beq_eq_false_iff_ne]
  rintro hptr
  exact hf (by simpa [Lists.addresses] using Or.inl ⟨t, ht, hptr⟩)

/-! ## Adding and deleting -/

/-- An entry and a record with an alias that no entry has. -/
theorem push (h : SameAliases d) (hf : w.Fresh d) {t : Json} {u : Target}
    (ht : t.strField tagAlias = some u.name) (hlen : u.name.length ≤ maxAliasSize) (hptr : u.ptr = w.addr) :
    SameAliases
      { root := d.root.pushAt tagTargets t, lists := { d.lists with targetList := d.lists.targetList ++ [u] } } := by
  refine ⟨by simpa using h.array, ?_, Keyed.forall_mem_concat h.fits hlen, ?_⟩
  · rw [Json.keys, Json.entries_pushAt_of_canPush h.array, List.filterMap_append, List.map_append, h.aliases]
    simp [Json.keys, ht]
  · refine Keyed.nodup_map_concat h.distinct (fun hmem => ?_)
    obtain ⟨v, hv, heq⟩ := List.mem_map.mp hmem
    exact beq_eq_false_iff_ne.mp (fresh_addr hf v hv) (heq.trans hptr)

theorem addTarget (h : SameAliases d) (hf : w.Fresh d) {tgt : Option String}
    (hlen : ∀ name, tgt = some name → name.length ≤ maxAliasSize) (hr : addTarget w d tgt = .ok a) : SameAliases a.dem := by
  unfold NvmeDem.addTarget at hr
  split at hr
  · cases hr
  · rename_i r hstore
    rcases addJsonTarget_ok hstore with ⟨hne, hroot⟩ | ⟨hz, -, hroot⟩
    · rw [if_neg hne] at hr
      cases hr
      rw [hroot]
      exact h
    · rw [if_pos hz] at hr
      split at hr
      · cases hr
      · rename_i name
        cases hr
        have hcut := cCut_of_le (hlen name rfl)
        rw [hroot]
        refine h.push (w := w) hf ?_ ?_ rfl
        · rw [strField_newTarget, hcut]
        · rw [hcut]
          exact hlen name rfl

theorem delTarget (h : SameAliases d) {tgt : Option String} (hr : delTarget d tgt = .ok a) : SameAliases a.dem := by
  obtain ⟨r, hstore, hr⟩ := afterStore_ok hr
  rcases ret_cases (delJsonTarget_ok hstore) hr with ⟨hroot, rfl⟩ | ⟨⟨i, t, name, ht, rfl, hroot⟩, hr⟩
  · rw [hroot]
    exact h
  · obtain ⟨target, hfind, -⟩ := h.find (List.mem_filterMap.mpr ⟨t, List.mem_of_getElem? ht.get, ht.key⟩)
    simp only [cStr, Option.getD_some, hfind] at hr
    cases hr
    have hfirst := ht.first
    rw [findArray, Json.elems_arrayOr] at hfirst
    refine ⟨?_, ?_, fun u hu => h.fits u (List.mem_of_mem_eraseP hu), h.distinct.sublist (List.eraseP_sublist.map _)⟩
    · show r.root.canPush tagTargets = true
      rw [hroot, delFromGroups, Json.canPush_adjust_ne (by decide), Json.canPush_removeAt, h.array]
    · show (d.lists.targetList.eraseP (fun t => t.name == name)).map Target.name = r.root.keys tagTargets tagAlias
      have hkeys : r.root.keys tagTargets tagAlias =
          (d.root.keys tagTargets tagAlias).eraseP (fun k => k == name) := by
        rw [hroot, Json.keys, entries_delFromGroups_ne (by decide), Json.entries_removeAt,
          Keyed.keys_eraseIdx_first hfirst]
        rfl
      rw [hkeys, ← h.aliases, List.eraseP_map]
      rfl

/-! ## Updating -/

/-- The end of an update: the record at `ptr` becomes `target`, with what it reports. -/
theorem updateTargetEnd {root : Json} {lists : Lists} {ptr : Nat} {target : Target}
    (hr : updateTargetEnd J w root lists ptr target = .ok a) (harray : root.canPush tagTargets = true)
    (hdistinct : (lists.targetList.map Target.ptr).Nodup) (hptr : target.ptr = ptr)
    (hfits : ∀ t ∈ lists.targetList, t.name.length ≤ maxAliasSize) (hlen : target.name.length ≤ maxAliasSize)
    (haliases : (Keyed.modifyFirst (fun t => t.ptr == ptr) (fun _ => target) lists.targetList).map Target.name =
      root.keys tagTargets tagAlias) : SameAliases a.dem := by
  obtain ⟨⟨ret, root', target'⟩, hget, hr⟩ := bind_eq_ok hr
  cases hr
  have hrep := Reported.getConfig hget
  have hname : target'.name = target.name := by rw [hrep.target]
  have hptr' : target'.ptr = ptr := by rw [hrep.target, hptr]
  refine ⟨by rw [hrep.root.canPush, harray], ?_, ?_, Keyed.nodup_modifyFirst hdistinct (fun _ => hptr') (Or.inl rfl)⟩
  · show (Keyed.modifyFirst (fun t => t.ptr == ptr) (fun _ => target') lists.targetList).map Target.name = _
    rw [hrep.root.aliases, ← haliases, Keyed.map_modifyFirst_const hname]
  · intro t ht
    rcases Keyed.mem_modifyFirst ht with ht | ⟨u, -, -, rfl⟩
    · exact hfits t ht
    · rw [hname]
      exact hlen

theorem name_updateTo (out : TargetArg) (target : Target) : (target.updateTo out).name = out.name := by
  unfold Target.updateTo
  dsimp only
  split <;> rfl

theorem ptr_updateTo (out : TargetArg) (target : Target) : (target.updateTo out).ptr = target.ptr := by
  unfold Target.updateTo
  dsimp only
  split <;> rfl

/-- An update of a target that is there: its entry `t'` and its record have the alias `new`. -/
theorem update_found (h : SameAliases d) {root' t t' : Json} {i : Nat} {old new : String} {target : Target} {out : TargetArg}
    (ht : TargetAt d.root old i t) (hfind : findTarget d.lists old = some target)
    (hset : root'.entries tagTargets = (d.root.entries tagTargets).set i t')
    (hpush : root'.canPush tagTargets = d.root.canPush tagTargets) (ht' : t'.strField tagAlias = some new)
    (hout : out.name = new) (hlen : new.length ≤ maxAliasSize)
    (hr : NvmeDem.updateTargetEnd J w root' d.lists target.ptr (target.updateTo out) = .ok a) : SameAliases a.dem := by
  have hfirst := ht.first
  rw [findArray, Json.elems_arrayOr] at hfirst
  have hname : (target.updateTo out).name = new := by rw [name_updateTo, hout]
  refine updateTargetEnd hr (hpush.trans h.array) h.distinct (ptr_updateTo ..) h.fits (by rwa [hname]) ?_
  rw [Keyed.modifyFirst_of_find (p := fun t : Target => t.name == old) h.distinct hfind,
    Keyed.map_modifyFirst (fun _ _ _ => hname), h.aliases, Json.keys, Json.keys, hset, Keyed.keys_set_first hfirst ht']

theorem updateTarget (h : SameAliases d) (hf : w.Fresh d) {tgt : Option String} {data : String}
    (hlen : ∀ body name, J.loads data = some body → body.strField tagAlias = some name → name.length ≤ maxAliasSize)
    (hr : updateTarget J w d tgt data = .ok a) : SameAliases a.dem := by
  obtain ⟨r, hstore, hr⟩ := afterStore_ok hr
  rcases ret_cases (updateJsonTarget_ok hstore) hr with ⟨hfill, rfl⟩ | ⟨⟨body, hbody, hupd⟩, hr⟩
  · exact h.of_fills hfill
  · generalize r.out = out at hupd hr
    generalize r.root = root' at hupd hr
    cases hupd with
    | @keep old i t t' _ ht hfields =>
      obtain ⟨target, hfind, hname⟩ := h.find (List.mem_filterMap.mpr ⟨t, List.mem_of_getElem? ht.get, ht.key⟩)
      have hold : old.length ≤ maxAliasSize := hname ▸ h.fits target (List.mem_of_find?_eq_some hfind)
      simp only [hfind] at hr
      refine h.update_found ht hfind (Json.entries_putAt ..) (Json.canPush_putAt ..) ?_ ?_ hold hr
      · rw [strField_updateTargetFields hfields, ht.key]
      · rw [name_updateTargetFields hfields, cCut_of_le hold]
    | @rename old buf i t t' _ ht hbuf hne hfresh hfields =>
      obtain ⟨target, hfind, -⟩ := h.find (List.mem_filterMap.mpr ⟨t, List.mem_of_getElem? ht.get, ht.key⟩)
      have hnew := hlen body buf hbody hbuf
      simp only [hfind] at hr
      refine h.update_found ht hfind (entries_targets_renamed d.root _ t' i old buf) ?_ ?_ ?_ hnew hr
      · rw [Json.canPush_putAt, renameInGroups, Json.canPush_adjust_ne (by decide), Json.canPush_putAt]
      · exact strField_target_renamed ht.key hbuf hfields
      · rw [name_updateTargetFields hfields, cCut_of_le hnew]
    | @create buf t' _ hbuf hfresh hpush hfields =>
      have hnew := hlen body buf hbody hbuf
      have hout : out.name = buf := by rw [name_updateTargetFields hfields, cCut_of_le hnew]
      have ht' : t'.strField tagAlias = some buf := by rw [strField_updateTargetFields hfields, strField_newTarget]
      have hpushed := h.push (w := w) hf (t := t') (u := Target.updateTo out { ptr := w.addr, name := out.name })
        (by rw [name_updateTo, hout, ht']) (by rw [name_updateTo, hout]; exact hnew) (ptr_updateTo ..)
      have hlast : Keyed.modifyFirst (fun t => t.ptr == w.addr)
          (fun _ => Target.updateTo out { ptr := w.addr, name := out.name }) (allocTarget d.lists w out.name).targetList =
          d.lists.targetList ++ [Target.updateTo out { ptr := w.addr, name := out.name }] :=
        Keyed.modifyFirst_concat (fresh_addr hf) (beq_self_eq_true _)
      have halloc : ((allocTarget d.lists w out.name).targetList.map Target.ptr) =
          (d.lists.targetList ++ [Target.updateTo out { ptr := w.addr, name := out.name }]).map Target.ptr := by
        simp [allocTarget, ptr_updateTo]
      refine updateTargetEnd hr hpushed.array (by rw [halloc]; exact hpushed.distinct) (ptr_updateTo ..) ?_
        (by rw [name_updateTo, hout]; exact hnew) (by rw [hlast]; exact hpushed.aliases)
      refine Keyed.forall_mem_concat h.fits ?_
      rw [hout, cCut_of_le hnew]
      exact hnew

end SameAliases

/-! ## Runs -/

/-- The requests that add, update and delete targets. -/
def Request.editsTargets : Request → Bool
  | .addTarget _ | .updateTarget _ _ | .delTarget _ => true
  | _ => false

/-- The aliases that a request gives fit the field of a record. -/
def Request.ShortAlias (J : JsonLib) : Request → Prop
  | .addTarget (some name) => name.length ≤ maxAliasSize
  | .updateTarget _ data =>
    ∀ body name, J.loads data = some body → body.strField tagAlias = some name → name.length ≤ maxAliasSize
  | _ => True

theorem SameAliases.step {J : JsonLib} {op : World × Request} {d d' : Daemon} (h : SameAliases d)
    (hop : op.2.editsTargets = true) (hshort : op.2.ShortAlias J) (hs : demStep J op d d') : SameAliases d' := by
  obtain ⟨w, req⟩ := op
  obtain ⟨hf, a, hr, rfl⟩ := hs
  cases req with
  | addTarget tgt =>
    refine h.addTarget hf (fun name hname => ?_) hr
    subst hname
    exact hshort
  | updateTarget tgt data => exact h.updateTarget hf hshort hr
  | delTarget tgt => exact h.delTarget hr
  | _ => cases hop

theorem emptyDaemon_sameAliases : SameAliases emptyDaemon :=
  ⟨rfl, rfl, List.forall_mem_nil _, List.nodup_nil⟩

/-- The text of a body that gives an alias. -/
def aliasText : String := "\x7b\"Alias\":\"u\"\x7d"

def aliasBodies : JsonLib := .ofTexts [(aliasText, .object [(tagAlias, .string "u")])]

end NvmeDem
