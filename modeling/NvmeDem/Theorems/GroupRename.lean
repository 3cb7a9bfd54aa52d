import NvmeDem.Dem.Groups
import NvmeDem.Lemmas.Groups

/-!
# A group that is renamed

The store gives the group of the URI the name of the body. The lists are searched for the new name, which no group has yet, so
that a group without members is made beside the old one: the members stay with the name that the store no longer has.
-/

namespace NvmeDem

open Jansson Keyed

/-- The groups of the lists have the names that the store has. -/
def SameNames (d : Daemon) : Prop := (d.lists.groupList.map Group.name).Perm (d.root.keys tagGroups tagName)

/-- What is expected of a rename: the names agree again, and the group that has the new name is the old one, with its targets and
its hosts. -/
structure RenamedWell (old new : String) (d d' : Daemon) : Prop where
  names : SameNames d'
  group : ∃ group group' : Group, findGroup d.lists old = some group ∧ findGroup d'.lists new = some group' ∧
    group'.targetList = group.targetList ∧
    ∀ link ∈ d.lists.hostList, link.group = some group.ptr → link ∈ d'.lists.hostList ∧ link.group = some group'.ptr

namespace GroupRenameAux

variable {J : JsonLib} {root body : Json} {data name old new : String} {r : Reply String}

theorem updateJsonGroupBody_out {group : Option String} {at? : Option Nat}
    (h : updateJsonGroupBody J root group at? data name = .ok r) (hret : r.ret = 0) (hbody : J.loads data = some body)
    (hname : body.strField tagName = some new) : r.out = new := by
  unfold updateJsonGroupBody at h
  simp only [hbody, Json.objectGet_of_strField hname, Json.stringValue] at h
  split at h
  · cases h
  · rename_i newname hcopy
    obtain rfl : new = newname := Option.some.inj (strcpy_ok hcopy)
    split at h
    · cases h
      exact absurd hret eexist_ne
    · split at h
      · cases h
      · rename_i copied hcut
        obtain rfl : new = copied := Option.some.inj (strcpy_ok hcut)
        split at h
        · cases h
          rfl
        · split at h
          · cases h
          · cases h
            rfl

/-- The name that the daemon reads back is the one of the body. -/
theorem updateJsonGroup_out (h : updateJsonGroup J root (some old) data name = .ok r) (hret : r.ret = 0)
    (hbody : J.loads data = some body) (hname : body.strField tagName = some new) : r.out = new := by
  unfold updateJsonGroup at h
  split at h
  · cases h
    exact absurd hret einval_ne
  · dsimp only at h
    split at h
    · cases h
      exact absurd hret enoent_ne
    · exact updateJsonGroupBody_out h hret hbody hname

/-- The names of the store after a rename: as many as before, and the same if the name is. -/
theorem keys_rename {x : Json} {i : Nat} (hx : (root.entries tagGroups)[i]? = some x) (hold : x.strField tagName = some old)
    (hname : body.strField tagName = some new) :
    ((root.putAt tagGroups i (jsonUpdateString x body tagName)).keys tagGroups tagName).length =
        (root.keys tagGroups tagName).length ∧
      (new = old → (root.putAt tagGroups i (jsonUpdateString x body tagName)).keys tagGroups tagName =
        root.keys tagGroups tagName) := by
  have hnew : (jsonUpdateString x body tagName).strField tagName = some new := by
    unfold jsonUpdateString
    simp only [Json.objectGet_of_strField hname, Json.isObject_of_strField hold, Json.stringValue, if_true]
    exact strField_jsonSetString_self (Json.isObject_of_strField hold) (Or.inl (by rw [hold]; rfl))
  unfold Json.keys
  rw [Json.entries_putAt]
  refine ⟨?_, fun heq => keys_set_of_eq hx (by rw [hnew, hold, heq])⟩
  obtain ⟨l, rest, hxs, hset, -⟩ := split_at hx
  rw [hset, hxs]
  simp only [List.filterMap_append, List.filterMap_cons_some hold, List.filterMap_cons_some hnew, List.length_append,
    List.length_cons]

theorem isSome_findGroup_iff {lists : Lists} : (findGroup lists name).isSome = true ↔ name ∈ lists.groupList.map Group.name := by
  simp [findGroup]

end GroupRenameAux

open GroupRenameAux

/-- A rename that succeeds does what is expected of it exactly when the new name is the old one. -/
theorem renamedWell_iff {J : JsonLib} {w : World} {d : Daemon} {a : Answer} {old new data : String} {body : Json}
    (h : SameNames d) (hbody : J.loads data = some body) (hname : body.strField tagName = some new)
    (hr : updateGroup J w d (some old) data = .ok a) (hret : a.ret = 0) : RenamedWell old new d a.dem ↔ new = old := by
  obtain ⟨r, hstore, hr⟩ := afterStore_ok hr
  rcases hr with ⟨hne, rfl⟩ | ⟨hz, hr⟩
  · exact absurd hret hne
  · rcases updateJsonGroup_ok hstore with ⟨hne, -⟩ | ⟨-, body', new', hbody', hname', hupd⟩
    · exact absurd hz hne
    · obtain rfl := Option.some.inj (hbody.symm.trans hbody')
      obtain rfl := Option.some.inj (hname.symm.trans hname')
      rw [updateJsonGroup_out hstore hz hbody hname] at hr
      generalize hroot : r.root = root' at hupd
      cases hupd with
      | @rename _ i x hx hold hfresh =>
        obtain ⟨hcount, hsame⟩ := keys_rename hx hold hname
        rcases hfresh with heq | hfresh
        · -- the group is found under its own name
          obtain rfl := heq
          have hmem : old ∈ d.lists.groupList.map Group.name :=
            h.mem_iff.mpr (List.mem_filterMap.mpr ⟨x, List.mem_of_getElem? hx, hold⟩)
          rw [if_pos (isSome_findGroup_iff.mpr hmem)] at hr
          cases hr
          refine iff_of_true ⟨?_, ?_⟩ rfl
          · unfold SameNames
            rw [hroot, hsame rfl]
            exact h
          · obtain ⟨group, hfind⟩ := Option.isSome_iff_exists.mp (isSome_findGroup_iff.mpr hmem)
            exact ⟨group, group, hfind, hfind, rfl, fun link hl hg => ⟨hl, hg⟩⟩
        · -- a group is made, and there is one more of them than the store has
          have hnew : new ∉ d.lists.groupList.map Group.name := fun hm => hfresh (h.mem_iff.mp hm)
          rw [if_neg (fun hs => hnew (isSome_findGroup_iff.mp hs))] at hr
          cases hr
          refine iff_of_false ?_ ?_
          · rintro ⟨hnames, -⟩
            have hlength := hnames.length_eq
            rw [hroot, hcount, ← h.length_eq] at hlength
            simp [initGroup] at hlength
          · rintro rfl
            exact hfresh (List.mem_filterMap.mpr ⟨x, List.mem_of_getElem? hx, hold⟩)

/-- A daemon with a group that has a target and a host. -/
def renamedDaemon : Daemon where
  root := .object [(tagGroups, .array [.object [(tagName, .string "g")]])]
  lists :=
    { targetList := [{ ptr := 7, name := "t", groupMember := true }]
      groupList := [{ ptr := 1, name := "g", targetList := [7] }]
      hostList := [{ group := some 1, name := "h", nqn := "nqn.h" }] }

def renameText (new : String) : String := "\x7b\"Name\":\"" ++ new ++ "\"\x7d"

def renameBodies : JsonLib :=
  .ofTexts [(renameText "g", .object [(tagName, .string "g")]), (renameText "k", .object [(tagName, .string "k")])]

/-- A group is given the name that it has. -/
theorem renamedWell_iff_same : ∃ a : Answer, updateGroup renameBodies { addr := 2 } renamedDaemon (some "g") (renameText "g") = .ok a ∧
    RenamedWell "g" "g" renamedDaemon a.dem :=
  ⟨_, rfl, (@renamedWell_iff renameBodies { addr := 2 } renamedDaemon _ "g" "g" (renameText "g") _ (List.Perm.refl _) rfl rfl rfl
    rfl).mpr rfl⟩

/-- A group is given another name: it keeps its old one, and a group with the new name and no members stands beside it. -/
theorem renamed_group_empty :
    ¬∀ (J : JsonLib) (w : World) (d : Daemon) (a : Answer) (old new data : String) (body : Json), SameNames d →
      J.loads data = some body → body.strField tagName = some new → updateGroup J w d (some old) data = .ok a → a.ret = 0 →
        RenamedWell old new d a.dem := by
  intro h
  obtain ⟨-, group, group', hfind, hfind', htargets, -⟩ :=
    h renameBodies { addr := 2 } renamedDaemon _ "g" "k" (renameText "k") _ (List.Perm.refl _) rfl rfl rfl rfl
  have hold : (findGroup renamedDaemon.lists "g").map Group.targetList = some [7] := rfl
  have hnew : some group' = some { ptr := 2, name := "k" } := hfind'.symm.trans rfl
  rw [hfind, Option.map_some, ← htargets, Option.some.inj hnew] at hold
  exact absurd hold (by decide)

end NvmeDem
