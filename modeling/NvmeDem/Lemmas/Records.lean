import NvmeDem.Dem.Requests
import NvmeDem.Lemmas.Effects

/-!
# The hosts of the store and their copies in the lists

A host of the store is an alias and an NQN. `Mirrored` says that every copy of a host in the lists, a record of a subsystem or a
link of a group, has the alias and the NQN of one host of the store. Most requests leave the hosts of the store as they are and
add no copy: `Shrinks`.
-/

namespace NvmeDem

open Jansson

/-! ## The hosts of the store -/

/-- The alias and the NQN of an entry, as far as it has them. -/
def hostPair (x : Json) : Option String × Option String := (x.strField tagAlias, x.strField tagHostnqn)

def hostPairs (root : Json) : List (Option String × Option String) := (root.entries tagHosts).map hostPair

/-- The store has a host with an alias and an NQN. -/
def IsHost (root : Json) (name nqn : String) : Prop := (some name, some nqn) ∈ hostPairs root

instance (root : Json) (name nqn : String) : Decidable (IsHost root name nqn) := inferInstanceAs (Decidable (_ ∈ _))

theorem keys_eq_hostPairs (root : Json) : root.keys tagHosts tagAlias = (hostPairs root).filterMap Prod.fst := by
  rw [hostPairs, List.filterMap_map]
  rfl

theorem nqns_eq_hostPairs (root : Json) : root.keys tagHosts tagHostnqn = (hostPairs root).filterMap Prod.snd := by
  rw [hostPairs, List.filterMap_map]
  rfl

theorem hostPairs_of_entries {root root' : Json} (h : root'.entries tagHosts = root.entries tagHosts) :
    hostPairs root' = hostPairs root := by rw [hostPairs, h, hostPairs]

theorem hostPairs_of_fills {root root' : Json} (h : Json.Fills root root') : hostPairs root' = hostPairs root := by
  have hall := h.entries tagHosts
  unfold hostPairs
  generalize root.entries tagHosts = xs at hall
  generalize root'.entries tagHosts = ys at hall
  induction hall with
  | nil => rfl
  | cons hx _ ih => simp only [List.map_cons, hostPair, hx.strField, ih]

/-- The calls that edit the hosts of the store. -/
def StoreOp.editsHosts : StoreOp → Bool
  | .addHost _ => true
  | .updateHost _ _ _ => true
  | .delHost _ _ => true
  | _ => false

/-- A renamed target leaves the other arrays of the root alone. -/
theorem entries_targetUpdate {root new root' : Json} {arg out : TargetArg} {tgt : Option String}
    (h : TargetUpdate root new arg tgt out root') : root'.entries tagHosts = root.entries tagHosts := by
  cases h with
  | keep => exact Json.entries_putAt_ne (by decide) ..
  | rename =>
    rw [Json.entries_putAt_ne (by decide), entries_renameInGroups_ne (by decide), Json.entries_putAt_ne (by decide)]
  | create => exact Json.entries_pushAt_ne (by decide) ..

theorem hostPairs_effect {J : JsonLib} {root root' : Json} {op : StoreOp} (h : Effect J root op root')
    (hop : op.editsHosts = false) : hostPairs root' = hostPairs root := by
  cases h with
  | rejoinGroup hfill => exact hostPairs_of_fills hfill
  | keepSubsys hfill => exact hostPairs_of_fills hfill
  | addHost => cases hop
  | updateHost => cases hop
  | delHost => cases hop
  | addGroup => exact hostPairs_of_entries (Json.entries_pushAt_ne (by decide) ..)
  | updateGroup hnew hname hupd =>
    refine hostPairs_of_entries ?_
    cases hupd with
    | rename => exact Json.entries_putAt_ne (by decide) ..
    | create => exact Json.entries_pushAt_ne (by decide) ..
  | joinGroup => exact hostPairs_of_entries (Json.entries_putAt_ne (by decide) ..)
  | leaveGroup => exact hostPairs_of_entries (Json.entries_putAt_ne (by decide) ..)
  | delGroup => exact hostPairs_of_entries (Json.entries_removeAt_ne (by decide) ..)
  | updateTarget hnew hupd => exact hostPairs_of_entries (entries_targetUpdate hupd)
  | addTarget => exact hostPairs_of_entries (Json.entries_pushAt_ne (by decide) ..)
  | delTarget =>
    refine hostPairs_of_entries ?_
    rw [entries_delFromGroups_ne (by decide), Json.entries_removeAt_ne (by decide)]
  | setAcl hadd =>
    obtain ⟨i, t, j, s, -, -, -, hroot⟩ := hadd.added
    rw [hroot]
    exact hostPairs_of_entries (Json.entries_putAt_ne (by decide) ..)
  | _ => exact hostPairs_of_entries (Json.entries_putAt_ne (by decide) ..)

/-- A call that does not edit the hosts leaves them as they are, whatever it returns. -/
theorem hostPairs_run {J : JsonLib} {root root' : Json} {op : StoreOp} {ret : Int} (h : op.run J root = .ok (ret, root'))
    (hop : op.editsHosts = false) : hostPairs root' = hostPairs root := by
  rcases run_cases h with ⟨-, hfill⟩ | ⟨-, heff⟩
  · exact hostPairs_of_fills hfill
  · exact hostPairs_effect heff hop

/-! ## The copies in the lists -/

def Lists.subsystems (lists : Lists) : List Subsystem := lists.targetList.flatMap Target.subsysList

/-- Every copy of a host is one of a host of the store, and a subsystem has at most one of each. -/
structure Mirrored (d : Daemon) : Prop where
  hosts : (d.root.keys tagHosts tagAlias).Nodup
  distinct : ∀ s ∈ d.lists.subsystems, (s.hostList.map Host.name).Nodup
  records : ∀ s ∈ d.lists.subsystems, ∀ h ∈ s.hostList, IsHost d.root h.name h.nqn
  links : ∀ l ∈ d.lists.hostList, IsHost d.root l.name l.nqn

/-- The subsystems of a target have no records but those of the subsystems that a target had. -/
def SubsysShrink (xs ys : List Subsystem) : Prop :=
  ∀ y ∈ ys, y.hostList = [] ∨ ∃ x ∈ xs, y.hostList.Sublist x.hostList

namespace SubsysShrink

theorem of_mem {xs ys : List Subsystem} (h : ∀ y ∈ ys, y ∈ xs) : SubsysShrink xs ys :=
  fun y hy => Or.inr ⟨y, h y hy, List.Sublist.refl _⟩

theorem trans {xs ys zs : List Subsystem} (h : SubsysShrink xs ys) (h' : SubsysShrink ys zs) : SubsysShrink xs zs := by
  intro z hz
  rcases h' z hz with hnil | ⟨y, hy, hzy⟩
  · exact Or.inl hnil
  · rcases h y hy with hnil | ⟨x, hx, hyx⟩
    · rw [hnil] at hzy
      exact Or.inl (List.sublist_nil.mp hzy)
    · exact Or.inr ⟨x, hx, hzy.trans hyx⟩

theorem map {xs : List Subsystem} {f : Subsystem → Subsystem} (h : ∀ x ∈ xs, (f x).hostList.Sublist x.hostList) :
    SubsysShrink xs (xs.map f) := by
  intro y hy
  obtain ⟨x, hx, rfl⟩ := List.mem_map.mp hy
  exact Or.inr ⟨x, hx, h x hx⟩

theorem modifyFirst {xs : List Subsystem} {p : Subsystem → Bool} {f : Subsystem → Subsystem}
    (h : ∀ x ∈ xs, (f x).hostList.Sublist x.hostList) : SubsysShrink xs (Keyed.modifyFirst p f xs) := by
  intro y hy
  rcases Keyed.mem_modifyFirst hy with hy | ⟨x, hx, -, rfl⟩
  · exact Or.inr ⟨y, hy, List.Sublist.refl _⟩
  · exact Or.inr ⟨x, hx, h x hx⟩

theorem onSubsys {t : Target} {nqn : String} {f : Subsystem → Subsystem}
    (h : ∀ x ∈ t.subsysList, (f x).hostList.Sublist x.hostList) :
    SubsysShrink t.subsysList (t.onSubsys nqn f).subsysList := modifyFirst h

end SubsysShrink

/-- The lists have no copies of hosts but those that they had. -/
structure Shrinks (l l' : Lists) : Prop where
  records : SubsysShrink l.subsystems l'.subsystems
  links : ∀ x ∈ l'.hostList, x ∈ l.hostList

theorem Mirrored.of_shrinks {d d' : Daemon} (h : Mirrored d) (hp : hostPairs d'.root = hostPairs d.root)
    (hs : Shrinks d.lists d'.lists) : Mirrored d' where
  hosts := by
    rw [keys_eq_hostPairs, hp, ← keys_eq_hostPairs]
    exact h.hosts
  distinct := by
    intro s' hs'
    rcases hs.records s' hs' with hnil | ⟨s, hs, hsub⟩
    · rw [hnil]
      exact List.nodup_nil
    · exact (h.distinct s hs).sublist (hsub.map _)
  records := by
    intro s' hs' x hx
    unfold IsHost
    rw [hp]
    rcases hs.records s' hs' with hnil | ⟨s, hs, hsub⟩
    · rw [hnil] at hx
      cases hx
    · exact h.records s hs x (hsub.subset hx)
  links := by
    intro l hl
    unfold IsHost
    rw [hp]
    exact h.links l (hs.links l hl)

namespace Shrinks

variable {l l' l'' : Lists}

theorem refl (l : Lists) : Shrinks l l := ⟨.of_mem (fun _ h => h), fun _ h => h⟩

theorem trans (h : Shrinks l l') (h' : Shrinks l' l'') : Shrinks l l'' :=
  ⟨h.records.trans h'.records, fun x hx => h.links x (h'.links x hx)⟩

/-- Lists that keep their links, where each target is one that was there with fewer records, or has no subsystems. -/
theorem of_targets (hl : l'.hostList = l.hostList)
    (ht : ∀ t' ∈ l'.targetList, t'.subsysList = [] ∨ ∃ t ∈ l.targetList, SubsysShrink t.subsysList t'.subsysList) :
    Shrinks l l' := by
  refine ⟨?_, fun x hx => hl ▸ hx⟩
  intro s' hs'
  obtain ⟨t', ht', hs'⟩ := List.mem_flatMap.mp hs'
  rcases ht t' ht' with hnil | ⟨t, hmem, hshrink⟩
  · rw [hnil] at hs'
    cases hs'
  · rcases hshrink s' hs' with hnil | ⟨s, hs, hsub⟩
    · exact Or.inl hnil
    · exact Or.inr ⟨s, List.mem_flatMap.mpr ⟨t, hmem, hs⟩, hsub⟩

theorem map {f : Target → Target} (h : ∀ t ∈ l.targetList, SubsysShrink t.subsysList (f t).subsysList) :
    Shrinks l { l with targetList := l.targetList.map f } := by
  refine of_targets rfl ?_
  intro t' ht'
  obtain ⟨t, ht, rfl⟩ := List.mem_map.mp ht'
  exact Or.inr ⟨t, ht, h t ht⟩

theorem modifyFirst {p : Target → Bool} {f : Target → Target}
    (h : ∀ t ∈ l.targetList, p t = true → SubsysShrink t.subsysList (f t).subsysList) :
    Shrinks l { l with targetList := Keyed.modifyFirst p f l.targetList } := by
  refine of_targets rfl ?_
  intro t' ht'
  rcases Keyed.mem_modifyFirst ht' with ht' | ⟨t, ht, hp, rfl⟩
  · exact Or.inr ⟨t', ht', .of_mem (fun _ h => h)⟩
  · exact Or.inr ⟨t, ht, h t ht hp⟩

theorem onTarget {name : String} {f : Target → Target}
    (h : ∀ t ∈ l.targetList, SubsysShrink t.subsysList (f t).subsysList) : Shrinks l (l.onTarget name f) :=
  modifyFirst (fun t ht _ => h t ht)

/-- A target that is changed as the one that was found would be. -/
theorem onTarget_of_find {name : String} {target : Target} {f : Target → Target} (hfind : findTarget l name = some target)
    (h : ∀ t, SubsysShrink target.subsysList (f t).subsysList) : Shrinks l (l.onTarget name f) := by
  refine of_targets rfl ?_
  intro t' ht'
  rcases Keyed.mem_modifyFirst ht' with ht' | ⟨t, -, -, rfl⟩
  · exact Or.inr ⟨t', ht', .of_mem (fun _ h => h)⟩
  · exact Or.inr ⟨target, List.mem_of_find?_eq_some hfind, h t⟩

theorem notify (l : Lists) (list : List EventNotification) : Shrinks l (l.notify list) := ⟨(refl l).records, (refl l).links⟩

/-- A log that comes in leaves the records alone. -/
theorem logEvent (target : Target) (e : LogEvent) : SubsysShrink target.subsysList (target.logEvent e).subsysList := by
  cases e with
  | invalidate => exact .map (fun x _ => List.Sublist.refl _)
  | fetch portid log =>
    refine foldl_related (R := fun t t' : Target => SubsysShrink t.subsysList t'.subsysList)
      (fun _ => .of_mem (fun _ h => h)) (fun _ _ _ => .trans) (fun t e _ => ?_) target
    exact .onSubsys (fun x _ => List.Sublist.refl x.hostList)

theorem withLogs (l : Lists) (w : World) : Shrinks l (l.withLogs w) :=
  map (fun t _ => foldl_related (R := fun t t' : Target => SubsysShrink t.subsysList t'.subsysList)
    (fun _ => .of_mem (fun _ h => h)) (fun _ _ _ => .trans) (fun t e _ => logEvent t e) t)

end Shrinks

end NvmeDem
