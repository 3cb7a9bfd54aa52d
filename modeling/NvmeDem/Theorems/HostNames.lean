import NvmeDem.Lemmas.Walks

/-!
# A host and the lists that name it

A host has one entry, and its alias stands in the list of hosts of each group it is in and of each subsystem that allows it. A
deletion and a rename are meant to reach the entry and every mention, and nothing else: `hostDeleted` and `hostRenamed` say what
the root should be afterwards.

The rename does that for every alias that its caller's buffer holds. The deletion reaches the entry and the groups, but not the
lists of allowed hosts: what it removes from a target is a whole subsystem.
-/

namespace NvmeDem

open Jansson

/-! ## Deleting -/

/-- The root without a host: its entry and every mention of it are gone. -/
def hostDeleted (root : Json) (name : String) : Json :=
  onHostLists (listWithout name)
    (root.adjust tagHosts (Json.arrayFilter (fun host => decide (host.strField tagAlias ≠ some name))))

/-- The entry that a deletion removes is the only one with its alias. -/
theorem removeAt_eq_filter {root x : Json} {i : Nat} {name : String} (hx : (root.entries tagHosts)[i]? = some x)
    (hname : x.strField tagAlias = some name) (hn : (root.keys tagHosts tagAlias).Nodup) :
    root.removeAt tagHosts i =
      root.adjust tagHosts (Json.arrayFilter (fun host => decide (host.strField tagAlias ≠ some name))) := by
  rw [Json.adjust_of_entries hx]
  refine congrArg (root.objectSet tagHosts) ?_
  rw [← Json.elems_arrayOr] at hx
  cases harray : root.arrayOr tagHosts with
  | array xs =>
    rw [harray] at hx
    refine congrArg Json.array (Keyed.eraseIdx_eq_filter hx hname ?_)
    rwa [Json.keys, ← Json.elems_arrayOr, harray] at hn
  | _ => simp [harray, Json.elems] at hx

/-- A list that lost a name was not without it. -/
theorem not_mem_of_listWithout {j : Json} {name : String} (h : j.adjust tagHosts (listWithout name) = j) :
    name ∉ j.strings tagHosts := by
  intro hmem
  have hentries : j.entries tagHosts = (listWithout name (j.arrayOr tagHosts)).elems := by
    rw [← Refers.entries_adjust j tagHosts (listWithout name) rfl, h]
  rw [Json.strings, hentries, listWithout, Json.elems_arrayFilter] at hmem
  obtain ⟨v, hv, hval⟩ := List.mem_filterMap.mp hmem
  exact of_decide_eq_true (List.mem_filter.mp hv).2 hval

/-- Where the walk over the targets leaves what it should leave, no subsystem names the host. -/
theorem not_mem_of_delFromAllowedHosts {root : Json} {name : String}
    (h : (delFromAllowedHosts root name).entries tagTargets =
      (root.entries tagTargets).map (onAccessLists (listWithout name))) :
    ∀ tgt ∈ root.entries tagTargets, ∀ subsys ∈ tgt.entries tagSubsystems, name ∉ subsys.strings tagHosts := by
  rw [entries_delFromAllowedHosts] at h
  intro tgt htgt
  obtain ⟨i, hi⟩ := List.mem_iff_getElem?.mp htgt
  have htgt' : targetWithout name i tgt = onAccessLists (listWithout name) tgt := by
    have hat := congrArg (fun xs => xs[i]?) h
    simpa only [List.getElem?_mapIdx, List.getElem?_map, hi, Option.map_some, Option.some.injEq] using hat
  have hleft : (targetWithout name i tgt).entries tagSubsystems =
      ((List.range (tgt.arrayOr tagSubsystems).elems.length).foldl (fun array _ => delAllowedStep i name array)
        (tgt.arrayOr tagSubsystems)).elems := Refers.entries_adjust tgt tagSubsystems _ rfl
  have hright : (onAccessLists (listWithout name) tgt).entries tagSubsystems =
      (tgt.entries tagSubsystems).map (fun subsys => subsys.adjust tagHosts (listWithout name)) :=
    Json.entries_adjust_arrayMap tgt tagSubsystems _
  have heq := congrArg (Json.entries · tagSubsystems) htgt'
  simp only [hleft, hright] at heq
  -- there are as many subsystems as before: none was removed, so none was changed
  rcases foldl_delAllowedStep i name (List.range (tgt.arrayOr tagSubsystems).elems.length) (tgt.arrayOr tagSubsystems)
    with hsame | hless
  · rw [hsame, Json.elems_arrayOr] at heq
    intro subsys hsubsys
    exact not_mem_of_listWithout (List.map_inj_left.mp (heq.symm.trans (List.map_id' _).symm) subsys hsubsys)
  · rw [heq, List.length_map, Json.elems_arrayOr] at hless
    exact absurd hless (Nat.lt_irrefl _)

/-- Where no subsystem names the host, the walk over the targets changes nothing, as it should. -/
theorem delFromAllowedHosts_of_not_mem {root : Json} {name : String}
    (h : ∀ tgt ∈ root.entries tagTargets, ∀ subsys ∈ tgt.entries tagSubsystems, name ∉ subsys.strings tagHosts) :
    delFromAllowedHosts root name = root.adjust tagTargets (Json.arrayMap (onAccessLists (listWithout name))) := by
  refine Json.adjust_congr (Json.arrayMapIdx_eq_arrayMap (fun i tgt htgt => Json.adjust_congr ?_))
  rw [Json.elems_arrayOr] at htgt
  have hnone : ∀ subsys ∈ (tgt.arrayOr tagSubsystems).elems, name ∉ subsys.strings tagHosts := by
    rw [Json.elems_arrayOr]
    exact h tgt htgt
  rw [foldl_delAllowedStep_of_not_mem _ hnone]
  refine (Json.arrayMap_eq_self (fun subsys hsubsys => Json.adjust_eq_self (listWithout_eq_self ?_))).symm
  rw [elems_hosts]
  exact hnone subsys hsubsys

/-- A deletion of a host removes its entry and its mentions and nothing else when no subsystem of any target allows the host, and
only then. -/
theorem delJsonHost_deletes {root : Json} {name nqn : String} {r : Reply String}
    (hhosts : (root.keys tagHosts tagAlias).Nodup) (hgroups : GroupListsNodup root)
    (h : delJsonHost root (some name) nqn = .ok r) (hret : r.ret = 0) :
    r.root = hostDeleted root name ↔
      ∀ tgt ∈ root.entries tagTargets, ∀ subsys ∈ tgt.entries tagSubsystems, name ∉ subsys.strings tagHosts := by
  rcases delJsonHost_ok h with ⟨hne, -⟩ | ⟨-, i, x, name', hx, hname, heq, hroot⟩
  · exact absurd hret hne
  cases heq
  have hremove := removeAt_eq_filter hx hname hhosts
  have htargets : (root.removeAt tagHosts i).entries tagTargets = root.entries tagTargets :=
    Json.entries_removeAt_ne (by decide) root i
  rw [hroot, hostDeleted, ← hremove]
  constructor
  · intro heq
    rw [← htargets]
    refine not_mem_of_delFromAllowedHosts ?_
    have hentries := congrArg (Json.entries · tagTargets) heq
    simp only [onHostLists] at hentries
    rwa [entries_delFromGroups_ne (by decide), Json.entries_adjust_ne (by decide), Json.entries_adjust_arrayMap] at hentries
  · intro hnone
    rw [← htargets] at hnone
    rw [delFromAllowedHosts_of_not_mem hnone, delFromGroups_eq, onHostLists]
    intro group hgroup
    rw [Json.entries_adjust_ne (by decide), Json.entries_removeAt_ne (by decide)] at hgroup
    exact hgroups group hgroup

/-- A host, in a group, and a target with a subsystem that allows the host if `allowed` has it. -/
def hostOf (allowed : List Json) : Json :=
  .object [(tagHosts, .array [.object [(tagAlias, .string "h")]]),
    (tagTargets, .array [.object [(tagAlias, .string "t"),
      (tagSubsystems, .array [.object [(tagSubnqn, .string "s"), (tagHosts, .array allowed)]])]]),
    (tagGroups, .array [.object [(tagName, .string "g"), (tagHosts, .array [.string "h"])]])]

theorem hostOf_groups (allowed : List Json) : GroupListsNodup (hostOf allowed) := by
  intro group hgroup
  obtain rfl := List.mem_singleton.mp hgroup
  exact List.nodup_singleton "h"

theorem hostOf_access {allowed : List Json} (h : (allowed.filterMap Json.stringValue).Nodup) :
    AccessListsNodup (hostOf allowed) := by
  intro tgt htgt subsys hsubsys
  obtain rfl := List.mem_singleton.mp htgt
  obtain rfl := List.mem_singleton.mp hsubsys
  exact h

/-- A host that is in a group and that the subsystem does not allow. -/
theorem delJsonHost_deletes_from_group :
    ∃ r : Reply String, delJsonHost (hostOf []) (some "h") "" = .ok r ∧ r.root = hostDeleted (hostOf []) "h" := by
  have hhosts : ((hostOf []).keys tagHosts tagAlias).Nodup := List.nodup_singleton "h"
  refine ⟨_, rfl, (delJsonHost_deletes hhosts (hostOf_groups []) rfl rfl).mpr ?_⟩
  intro tgt htgt subsys hsubsys
  obtain rfl := List.mem_singleton.mp htgt
  obtain rfl := List.mem_singleton.mp hsubsys
  exact List.not_mem_nil

/-- The host that the only subsystem of a target allows is deleted: the target has no subsystem left. -/
theorem delJsonHost_deletes_subsystem :
    ¬∀ (root : Json) (name nqn : String) (r : Reply String), (root.keys tagHosts tagAlias).Nodup → AccessListsNodup root →
      GroupListsNodup root → delJsonHost root (some name) nqn = .ok r → r.ret = 0 → r.root = hostDeleted root name := by
  intro h
  have hroot := h (hostOf [.string "h"]) "h" "" _ (List.nodup_singleton "h") (hostOf_access (List.nodup_singleton "h"))
    (hostOf_groups _) rfl rfl
  have hcount := congrArg (fun j => (j.entries tagTargets).map (fun t => (t.entries tagSubsystems).length)) hroot
  exact absurd hcount (by decide)

/-! ## Renaming -/

/-- An entry with a new alias, if it has the old one. -/
def entryRenamed (old new : String) (host : Json) : Json :=
  if host.strField tagAlias = some old then host.objectSet tagAlias (.string new) else host

/-- The root with a host under a new alias: in its entry and in every mention of it. -/
def hostRenamed (root : Json) (old new : String) : Json :=
  onHostLists (listRenamed old new) (root.adjust tagHosts (Json.arrayMap (entryRenamed old new)))

/-- The entry that a rename edits is the only one with its alias. -/
theorem putAt_eq_map {root x : Json} {i : Nat} {old new : String} (hx : (root.entries tagHosts)[i]? = some x)
    (hold : x.strField tagAlias = some old) (hn : (root.keys tagHosts tagAlias).Nodup) :
    root.putAt tagHosts i (x.objectSet tagAlias (.string new)) =
      root.adjust tagHosts (Json.arrayMap (entryRenamed old new)) := by
  rw [Json.adjust_of_entries hx]
  refine congrArg (root.objectSet tagHosts) ?_
  rw [← Json.elems_arrayOr] at hx
  cases harray : root.arrayOr tagHosts with
  | array xs =>
    rw [harray] at hx
    rw [Json.keys, ← Json.elems_arrayOr, harray] at hn
    exact congrArg Json.array (Keyed.set_eq_map (Json.objectSet · tagAlias (.string new)) hx hold hn)
  | _ => simp [harray, Json.elems] at hx

/-- The three edits of a rename. -/
theorem renames_eq {root x : Json} {i : Nat} {old new : String} (hx : (root.entries tagHosts)[i]? = some x)
    (hold : x.strField tagAlias = some old) (hhosts : (root.keys tagHosts tagAlias).Nodup) (haccess : AccessListsNodup root)
    (hgroups : GroupListsNodup root) :
    renameInGroups (renameInAllowedHosts (root.putAt tagHosts i (x.objectSet tagAlias (.string new))) old new)
      tagHosts old new = hostRenamed root old new := by
  rw [putAt_eq_map hx hold hhosts, renameInAllowedHosts_eq, renameInGroups_eq]
  · rfl
  · intro group hgroup
    rw [Json.entries_adjust_ne (by decide), Json.entries_adjust_ne (by decide)] at hgroup
    exact hgroups group hgroup
  · intro tgt htgt
    rw [Json.entries_adjust_ne (by decide)] at htgt
    exact haccess tgt htgt

/-- A search for an alias that no entry has. -/
theorem findArray_fresh {j : Json} {k tag val : String} (h : val ∉ j.keys k tag) :
    findArray (j.arrayOr k) tag val = none := by
  rw [findArray, List.findIdx?_eq_none_iff, Json.elems_arrayOr]
  exact fun x hx => decide_eq_false (fun hval => h (List.mem_filterMap.mpr ⟨x, hx, hval⟩))

/-- What an update of a host that gives another alias and no NQN does: it renames the host, if the caller's buffer holds the
alias. -/
theorem updateJsonHost_alias {J : JsonLib} {root x body : Json} {i : Nat} {old new data : String} {out : HostOut}
    (hi : findArray (root.arrayOr tagHosts) tagAlias old = some i) (hx : (root.entries tagHosts)[i]? = some x)
    (hold : x.strField tagAlias = some old) (hfresh : new ∉ root.keys tagHosts tagAlias) (hdata : data ≠ "")
    (hbody : J.loads data = some body) (halias : body.strField tagAlias = some new)
    (hnqn : body.objectGet tagHostnqn = none) :
    updateJsonHost J root (some old) data out =
      (strcpy maxAliasSize (some new)).map (fun _ =>
        { ret := 0
          resp := s!"{tagHost} '{new}' {addedOrUpdated (some old)}"
          root := renameInGroups (renameInAllowedHosts (root.putAt tagHosts i (x.objectSet tagAlias (.string new))) old new)
            tagHosts old new
          out := { out with newalias := new } }) := by
  obtain ⟨value, hvalue, hstring⟩ := Option.bind_eq_some_iff.mp halias
  have hne : old ≠ new := by
    rintro rfl
    exact hfresh (List.mem_filterMap.mpr ⟨x, List.mem_of_getElem? hx, hold⟩)
  unfold updateJsonHost updateJsonHostBody
  rw [if_neg hdata]
  simp only [hi, hbody, hvalue, hstring, Json.ensureArray_of_entries hx]
  cases hcopy : strcpy maxAliasSize (some new) with
  | error f => rfl
  | ok new' =>
    obtain rfl : new = new' := Option.some.inj (strcpy_ok hcopy)
    have hlook : looksForName (some old) new = true := decide_eq_true hne
    have hget : arrayGet (root.arrayOr tagHosts) i = x := arrayGet_arrayOr hx
    have hwrite : jsonUpdateString x body tagAlias = x.objectSet tagAlias (.string new) := by
      simp only [jsonUpdateString, hvalue, hstring, Json.isObject_of_strField hold, if_true, jsonSetString,
        Json.objectGet_of_strField hold]
    simp only [hlook, findArray_fresh hfresh, Option.isSome_none, if_true, Bool.false_eq_true, if_false, updateJsonHostNqn,
      jsonUpdateStringEx, hnqn, hget, hwrite, Except.map]
    rw [arrayGet_arrayOr (getElem?_renamed hx), Json.putAt_getElem? (getElem?_renamed hx)]

/-- An update that gives a host an alias that is not in use, and nothing else, renames the host in its entry and in every list,
and changes nothing else, when the alias has at most 64 bytes, and only then: a longer one is written past the caller's buffer. -/
theorem updateJsonHost_renames {J : JsonLib} {root body : Json} {old new data : String} {out : HostOut}
    (hhosts : (root.keys tagHosts tagAlias).Nodup) (haccess : AccessListsNodup root) (hgroups : GroupListsNodup root)
    (hold : old ∈ root.keys tagHosts tagAlias) (hfresh : new ∉ root.keys tagHosts tagAlias) (hdata : data ≠ "")
    (hbody : J.loads data = some body) (halias : body.strField tagAlias = some new)
    (hnqn : body.objectGet tagHostnqn = none) :
    (∃ r : Reply HostOut, updateJsonHost J root (some old) data out = .ok r ∧ r.ret = 0 ∧ r.root = hostRenamed root old new) ↔
      new.length ≤ maxAliasSize := by
  cases hi : findArray (root.arrayOr tagHosts) tagAlias old with
  | none => exact absurd hold (findArray_arrayOr_none hi)
  | some i =>
    obtain ⟨hx, hname⟩ := findArray_arrayOr_some hi
    rw [updateJsonHost_alias hi hx hname hfresh hdata hbody halias hnqn, renames_eq hx hname hhosts haccess hgroups]
    constructor
    · rintro ⟨r, hr, -⟩
      by_contra hlong
      rw [strcpy, if_neg hlong] at hr
      cases hr
    · intro hshort
      rw [strcpy_of_le hshort]
      exact ⟨_, rfl, rfl, rfl⟩

/-- The text of a body that gives an alias, and a parser that reads it. -/
def newAliasText (new : String) : String := "\x7b\"Alias\":\"" ++ new ++ "\"\x7d"

def newAliasBody (new : String) : JsonLib := .ofTexts [(newAliasText new, .object [(tagAlias, .string new)])]

/-- The host of a group and of a subsystem gets another alias. -/
theorem updateJsonHost_renames_everywhere :
    ∃ r : Reply HostOut, updateJsonHost (newAliasBody "k") (hostOf [.string "h"]) (some "h") (newAliasText "k") ⟨"", ""⟩ = .ok r ∧
      r.ret = 0 ∧ r.root = hostRenamed (hostOf [.string "h"]) "h" "k" := by
  have hhosts : ((hostOf [.string "h"]).keys tagHosts tagAlias).Nodup := List.nodup_singleton "h"
  exact (updateJsonHost_renames hhosts (hostOf_access (List.nodup_singleton "h")) (hostOf_groups _)
    (List.mem_singleton_self "h") (by decide) (by decide) rfl rfl rfl).mpr (by decide)

/-- The alias has 65 bytes. -/
theorem updateJsonHost_overflows :
    ¬∀ (J : JsonLib) (root body : Json) (old new data : String) (out : HostOut), (root.keys tagHosts tagAlias).Nodup →
      AccessListsNodup root → GroupListsNodup root → old ∈ root.keys tagHosts tagAlias →
      new ∉ root.keys tagHosts tagAlias → data ≠ "" → J.loads data = some body → body.strField tagAlias = some new →
      body.objectGet tagHostnqn = none →
        ∃ r : Reply HostOut,
          updateJsonHost J root (some old) data out = .ok r ∧ r.ret = 0 ∧ r.root = hostRenamed root old new := by
  intro h
  have hhosts : ((hostOf []).keys tagHosts tagAlias).Nodup := List.nodup_singleton "h"
  have hlong : String.ofList (List.replicate 65 'a') ∉ (hostOf []).keys tagHosts tagAlias := by decide
  obtain ⟨r, hr, -⟩ := h (newAliasBody (String.ofList (List.replicate 65 'a'))) (hostOf []) _ "h" _
    (newAliasText (String.ofList (List.replicate 65 'a'))) ⟨"", ""⟩ hhosts (hostOf_access List.nodup_nil) (hostOf_groups _)
    (List.mem_singleton_self "h") hlong (by decide) rfl rfl rfl
  cases hr

end NvmeDem
