import NvmeDem.Lemmas.Requests
import Mathlib.Data.List.InsertIdx

/-!
# Requests that change a host or make a copy of one

For each request on a host, and for each that makes a record or a link, when every copy is still one of a host of the store.
-/

namespace NvmeDem

open Jansson

/-! ## The hosts of the store after an edit -/

theorem hostPairs_of_set {root root' x : Json} {i : Nat} (h : root'.entries tagHosts = (root.entries tagHosts).set i x) :
    hostPairs root' = (hostPairs root).set i (hostPair x) := by
  rw [hostPairs, h, hostPairs, List.map_set]

theorem hostPairs_of_eraseIdx {root root' : Json} {i : Nat}
    (h : root'.entries tagHosts = (root.entries tagHosts).eraseIdx i) : hostPairs root' = (hostPairs root).eraseIdx i := by
  rw [hostPairs, h, hostPairs, List.eraseIdx_map]

theorem hostPairs_get {root x : Json} {i : Nat} (h : (root.entries tagHosts)[i]? = some x) :
    (hostPairs root)[i]? = some (hostPair x) := by
  rw [hostPairs, List.getElem?_map, h]
  rfl

theorem IsHost.mem_keys {root : Json} {name nqn : String} (h : IsHost root name nqn) :
    name ∈ root.keys tagHosts tagAlias := by
  rw [keys_eq_hostPairs]
  exact List.mem_filterMap.mpr ⟨_, h, rfl⟩

/-- When aliases are distinct, a host is the entry with its alias. -/
theorem IsHost.eq_entry {root x : Json} {i : Nat} {name nqn : String} (h : IsHost root name nqn)
    (hn : (root.keys tagHosts tagAlias).Nodup) (hx : (root.entries tagHosts)[i]? = some x)
    (hname : x.strField tagAlias = some name) : x.strField tagHostnqn = some nqn := by
  rw [keys_eq_hostPairs] at hn
  have hmem : hostPair x ∈ hostPairs root := List.mem_of_getElem? (hostPairs_get hx)
  have heq := Keyed.eq_of_count_le_one (List.nodup_iff_count_le_one.mp hn name) h hmem rfl (hname : (hostPair x).1 = _)
  exact (congrArg Prod.snd heq).symm

/-- Another entry than the one that is replaced stays. -/
theorem IsHost.set_ne {root root' x x' : Json} {i : Nat} {name nqn : String} (h : IsHost root name nqn)
    (hx : (root.entries tagHosts)[i]? = some x) (hset : root'.entries tagHosts = (root.entries tagHosts).set i x')
    (hne : x.strField tagAlias ≠ some name) : IsHost root' name nqn := by
  unfold IsHost
  rw [hostPairs_of_set hset]
  obtain ⟨l, r, hlr, hset, -⟩ := Keyed.split_at (hostPairs_get hx)
  unfold IsHost at h
  rw [hlr] at h
  rw [hset]
  rcases List.mem_append.mp h with h | h
  · exact List.mem_append_left _ h
  · rcases List.mem_cons.mp h with h | h
    · exact absurd (congrArg Prod.fst h).symm hne
    · exact List.mem_append_right _ (List.mem_cons_of_mem _ h)

theorem IsHost.set_self {root root' x x' : Json} {i : Nat} {name nqn : String}
    (hx : (root.entries tagHosts)[i]? = some x) (hset : root'.entries tagHosts = (root.entries tagHosts).set i x')
    (hname : x'.strField tagAlias = some name) (hnqn : x'.strField tagHostnqn = some nqn) : IsHost root' name nqn := by
  unfold IsHost
  rw [hostPairs_of_set hset]
  have hpair : hostPair x' = (some name, some nqn) := by rw [hostPair, hname, hnqn]
  rw [← hpair]
  obtain ⟨hi, -⟩ := List.getElem?_eq_some_iff.mp (hostPairs_get hx)
  exact List.mem_of_getElem? (List.getElem?_set_self hi)

/-- Another entry than the one that is removed stays. -/
theorem IsHost.eraseIdx_ne {root root' x : Json} {i : Nat} {name nqn : String} (h : IsHost root name nqn)
    (hx : (root.entries tagHosts)[i]? = some x) (herase : root'.entries tagHosts = (root.entries tagHosts).eraseIdx i)
    (hne : x.strField tagAlias ≠ some name) : IsHost root' name nqn := by
  unfold IsHost
  rw [hostPairs_of_eraseIdx herase]
  obtain ⟨l, r, hlr, -, herase⟩ := Keyed.split_at (hostPairs_get hx)
  unfold IsHost at h
  rw [hlr] at h
  rw [herase]
  rcases List.mem_append.mp h with h | h
  · exact List.mem_append_left _ h
  · rcases List.mem_cons.mp h with h | h
    · exact absurd (congrArg Prod.fst h).symm hne
    · exact List.mem_append_right _ h

/-- A new entry at the end leaves the hosts that are there. -/
theorem IsHost.pushAt {root x : Json} {name nqn : String} (h : IsHost root name nqn) :
    IsHost (root.pushAt tagHosts x) name nqn := by
  unfold IsHost hostPairs
  rcases Json.entries_pushAt root tagHosts x with heq | heq
  · rw [heq, List.map_append]
    exact List.mem_append_left _ h
  · rw [heq]
    exact h

/-- The aliases after a new entry whose alias, if it has one, is new. -/
theorem nodup_keys_pushAt {root x : Json} (hn : (root.keys tagHosts tagAlias).Nodup)
    (hx : ∀ name, x.strField tagAlias = some name → name ∉ root.keys tagHosts tagAlias) :
    ((root.pushAt tagHosts x).keys tagHosts tagAlias).Nodup := by
  unfold Json.keys at hn hx ⊢
  rcases Json.entries_pushAt root tagHosts x with heq | heq
  · rw [heq]
    exact Keyed.nodup_keys_concat hx hn
  · rw [heq]
    exact hn

namespace Mirrored

variable {J : JsonLib} {w : World} {d : Daemon} {a : Answer}

/-- A copy has an alias of the store. -/
theorem record_mem_keys (h : Mirrored d) {s : Subsystem} (hs : s ∈ d.lists.subsystems) {x : Host} (hx : x ∈ s.hostList) :
    x.name ∈ d.root.keys tagHosts tagAlias := (h.records s hs x hx).mem_keys

/-- A new host of the store leaves the copies. -/
theorem pushAt (h : Mirrored d) {x : Json}
    (hx : ∀ name, x.strField tagAlias = some name → name ∉ d.root.keys tagHosts tagAlias) :
    Mirrored { d with root := d.root.pushAt tagHosts x } where
  hosts := nodup_keys_pushAt h.hosts hx
  distinct := h.distinct
  records := fun s hs y hy => (h.records s hs y hy).pushAt
  links := fun l hl => (h.links l hl).pushAt

theorem addHost (h : Mirrored d) {host : Option String} (hr : addHost d host = .ok a) : Mirrored a.dem := by
  obtain ⟨r, hstore, hr⟩ := afterStore_ok hr
  have hroot : Mirrored { d with root := r.root } := by
    rcases addJsonHost_ok hstore with ⟨-, heq⟩ | ⟨-, hfresh, heq⟩
    · rw [heq]
      exact h
    · rw [heq]
      refine h.pushAt (fun name hname => ?_)
      cases host with
      | none => cases hname
      | some b =>
        have hb : b = name := by
          simpa [jsonSetStringPtr, Json.strField, Json.stringValue, Json.objectSet, Json.objectGet, Json.setField] using hname
        exact hb ▸ hfresh b rfl
  rcases hr with ⟨-, rfl⟩ | ⟨-, hr⟩
  · exact hroot
  · cases hr
    exact hroot

/-! ## Updating a host -/

theorem mem_subsystems_updateHost {lists : Lists} {name : String} {out : HostOut} {s' : Subsystem}
    (h : s' ∈ (lists.updateHost name out).subsystems) : ∃ s ∈ lists.subsystems, s' = s.updateHost name out := by
  obtain ⟨t', ht', hs'⟩ := List.mem_flatMap.mp h
  obtain ⟨t, ht, rfl⟩ := List.mem_map.mp ht'
  obtain ⟨s, hs, rfl⟩ := List.mem_map.mp hs'
  exact ⟨s, List.mem_flatMap.mpr ⟨t, ht, hs⟩, rfl⟩

/-- The entry of a host is replaced, and its records with it. `hrec` and `hlink` say that the copies of the host become, or
already are, copies of the new entry. -/
theorem replace (h : Mirrored d) {root' x x' : Json} {i : Nat} {old new nqn : String}
    (hx : (d.root.entries tagHosts)[i]? = some x) (hold : x.strField tagAlias = some old)
    (hset : root'.entries tagHosts = (d.root.entries tagHosts).set i x') (hnew : x'.strField tagAlias = some new)
    (hfresh : new = old ∨ new ∉ d.root.keys tagHosts tagAlias)
    (hrec : ∀ s ∈ d.lists.subsystems, ∀ y ∈ s.hostList, y.name = old → x'.strField tagHostnqn = some nqn)
    (hlink : ∀ l ∈ d.lists.hostList, l.name = old → new = old ∧ x'.strField tagHostnqn = some l.nqn) :
    Mirrored { root := root', lists := d.lists.updateHost old ⟨new, nqn⟩ } where
  hosts := by
    unfold Json.keys
    rw [hset]
    rcases hfresh with rfl | hfresh
    · rw [Keyed.keys_set_of_eq hx (hnew.trans hold.symm)]
      exact h.hosts
    · exact Keyed.nodup_keys_set_of_fresh hx hnew hfresh h.hosts
  distinct := by
    intro s' hs'
    obtain ⟨s, hs, rfl⟩ := mem_subsystems_updateHost hs'
    refine Keyed.nodup_modifyFirst (h.distinct s hs) (fun _ => rfl) (hfresh.imp_right (fun hfresh hm => ?_))
    obtain ⟨y, hy, rfl⟩ := List.mem_map.mp hm
    exact hfresh (h.record_mem_keys hs hy)
  records := by
    intro s' hs' y hy
    obtain ⟨s, hs, rfl⟩ := mem_subsystems_updateHost hs'
    rcases Keyed.mem_modifyFirst_of_nodup (h.distinct s hs) hy with ⟨hy, hne⟩ | ⟨z, hz, hname, rfl⟩
    · refine (h.records s hs y hy).set_ne hx hset (fun heq => hne ?_)
      rw [hold] at heq
      exact (Option.some.inj heq).symm
    · exact .set_self hx hset hnew (hrec s hs z hz hname)
  links := by
    intro l hl
    by_cases hname : l.name = old
    · obtain ⟨rfl, hnqn⟩ := hlink l hl hname
      rw [hname]
      exact .set_self hx hset hnew hnqn
    · refine (h.links l hl).set_ne hx hset (fun heq => hname ?_)
      rw [hold] at heq
      exact (Option.some.inj heq).symm

/-- What an update of a host that has copies has to give: its records take the NQN that the caller is handed, and its links
take nothing. -/
structure KeepsCopies (d : Daemon) (old : String) (new : Json) : Prop where
  records : ∀ s ∈ d.lists.subsystems, ∀ y ∈ s.hostList, y.name = old → (new.strField tagHostnqn).isSome = true
  aliases : ∀ l ∈ d.lists.hostList, l.name = old → ∀ name, new.strField tagAlias = some name → name = old
  nqns : ∀ l ∈ d.lists.hostList, l.name = old → ∀ nqn, new.strField tagHostnqn = some nqn → nqn = l.nqn

/-- The alias that an update gives is not that of another host, if it gives one. -/
def NameFree (root : Json) (old : String) (new : Json) : Prop :=
  ∀ name, new.strField tagAlias = some name → name = old ∨ name ∉ root.keys tagHosts tagAlias

/-- An NQN that the body gives is set in an entry that had one, and handed to the caller. -/
theorem nqn_given {x x' new : Json} {nqn₀ nqn : String} (hn : (x.strField tagHostnqn).isSome = true)
    (hnew : (new.strField tagHostnqn).isSome = true)
    (h : jsonUpdateStringEx x new tagHostnqn maxNqnSize nqn₀ = .ok (x', nqn)) : x'.strField tagHostnqn = some nqn := by
  obtain ⟨m, hm⟩ := Option.isSome_iff_exists.mp hnew
  have hobj : x.isObject = true := by
    obtain ⟨n, hn⟩ := Option.isSome_iff_exists.mp hn
    obtain ⟨v, hv, -⟩ := Option.bind_eq_some_iff.mp hn
    exact Json.isObject_of_objectGet hv
  obtain ⟨rfl, rfl⟩ := jsonUpdateStringEx_some hm hobj h
  exact strField_jsonSetString_self hobj (Or.inl hn)

/-- An NQN that the body does not give, or gives as it is, stays. -/
theorem nqn_kept {x x' new : Json} {nqn₀ nqn n : String} (hn : x.strField tagHostnqn = some n)
    (hnew : ∀ m, new.strField tagHostnqn = some m → m = n)
    (h : jsonUpdateStringEx x new tagHostnqn maxNqnSize nqn₀ = .ok (x', nqn)) : x'.strField tagHostnqn = some n := by
  cases hm : new.strField tagHostnqn with
  | none =>
    obtain ⟨rfl, -⟩ := jsonUpdateStringEx_none hm h
    exact hn
  | some m =>
    have hset := nqn_given (by simp [hn]) (by simp [hm]) h
    obtain ⟨v, hv, -⟩ := Option.bind_eq_some_iff.mp hn
    obtain ⟨-, rfl⟩ := jsonUpdateStringEx_some hm (Json.isObject_of_objectGet hv) h
    rw [hset, hnew nqn hm]

/-- The entry of a host after an update, with its alias `new`, mirrors the copies again. -/
theorem replace_updated (h : Mirrored d) {root' x x₁ x' body : Json} {i : Nat} {old new nqn₀ nqn : String}
    (hx : (d.root.entries tagHosts)[i]? = some x) (hold : x.strField tagAlias = some old)
    (hset : root'.entries tagHosts = (d.root.entries tagHosts).set i x')
    (hsame : x₁.strField tagHostnqn = x.strField tagHostnqn) (hnew : x₁.strField tagAlias = some new)
    (hnqn : jsonUpdateStringEx x₁ body tagHostnqn maxNqnSize nqn₀ = .ok (x', nqn))
    (hfresh : new = old ∨ new ∉ d.root.keys tagHosts tagAlias) (hk : KeepsCopies d old body)
    (hlink : ∀ l ∈ d.lists.hostList, l.name = old → new = old) :
    Mirrored { root := root', lists := d.lists.updateHost old ⟨new, nqn⟩ } := by
  -- A host with a copy has the NQN of the copy in the store.
  have hof : ∀ n, IsHost d.root old n → x₁.strField tagHostnqn = some n :=
    fun n hn => hsame.trans (hn.eq_entry h.hosts hx hold)
  refine h.replace hx hold hset ((strField_jsonUpdateStringEx_hostnqn hnqn).trans hnew) hfresh ?_ ?_
  · intro s hs y hy hname
    have hn := hof y.nqn (hname ▸ h.records s hs y hy)
    exact nqn_given (by simp [hn]) (hk.records s hs y hy hname) hnqn
  · intro l hl hname
    have hn := hof l.nqn (hname ▸ h.links l hl)
    exact ⟨hlink l hl hname, nqn_kept hn (hk.nqns l hl hname) hnqn⟩

theorem updateHost (h : Mirrored d) {host : Option String} {data : String}
    (hk : ∀ old body, host = some old → J.loads data = some body → NameFree d.root old body → KeepsCopies d old body)
    (hr : updateHost J w d host data = .ok a) : Mirrored a.dem := by
  obtain ⟨r, hstore, hr⟩ := afterStore_ok hr
  rcases ret_cases (updateJsonHost_ok hstore) hr with ⟨hfill, rfl⟩ | ⟨⟨body, hbody, hupd⟩, hr⟩
  · exact h.of_shrinks (hostPairs_of_fills hfill) (.refl _)
  · cases hr
    suffices hm : Mirrored { root := r.root, lists := d.lists.updateHost (host.getD r.out.newalias) r.out } from
      hm.of_shrinks rfl (.withLogs _ w)
    generalize r.out = out at hupd
    generalize r.root = root' at hupd
    cases hupd with
    | @keep old nqn i x x' hx hold hbody' hnqn =>
      have hfree : NameFree d.root old body := by
        intro name hname
        rcases hbody' with hb | hb
        · simp [Json.strField, hb] at hname
        · exact Or.inl (Option.some.inj (hname.symm.trans hb))
      exact h.replace_updated hx hold (Json.entries_putAt ..) rfl hold hnqn (Or.inl rfl) (hk old body rfl hbody hfree)
        (fun _ _ _ => rfl)
    | @rename old newalias nqn i x x' hx hold hbody' hne hfresh hnqn =>
      have hkeeps := hk old body rfl hbody (fun name hname => Or.inr (Option.some.inj (hbody'.symm.trans hname) ▸ hfresh))
      refine h.replace_updated hx hold (entries_hosts_renamed d.root _ x' i old newalias) ?_
        (strField_jsonUpdateString_self (by simp [hold]) hbody') hnqn (Or.inr hfresh) hkeeps
        (fun l hl hname => hkeeps.aliases l hl hname newalias hbody')
      simp only [Json.strField, objectGet_jsonUpdateString_ne (by decide : tagHostnqn ≠ tagAlias)]
    | @create newalias nqn x' hbody' hfresh hpush hnqn =>
      have hpushed : Mirrored { d with root := d.root.pushAt tagHosts x' } := by
        refine h.pushAt (fun name hname => ?_)
        rw [strField_jsonUpdateStringEx_hostnqn hnqn, strField_jsonSetString_self rfl (Or.inr rfl)] at hname
        exact Option.some.inj hname ▸ hfresh
      -- No record has the new alias, so that no record changes.
      refine hpushed.of_shrinks rfl ⟨?_, fun _ hl => hl⟩
      intro s' hs'
      obtain ⟨s, hs, rfl⟩ := mem_subsystems_updateHost hs'
      refine Or.inr ⟨s, hs, ?_⟩
      have hsame : (s.updateHost newalias ⟨newalias, nqn⟩).hostList = s.hostList := by
        refine Keyed.modifyFirst_of_forall_not (fun y hy => ?_)
        simp only [beq_eq_false_iff_ne]
        rintro rfl
        exact hfresh (h.record_mem_keys hs hy)
      exact hsame ▸ List.Sublist.refl _

/-! ## Deleting a host -/

theorem hostPairs_delHostAcls (name : String) (targets : List Target) (root : Json) :
    hostPairs (targets.foldl (delHostAcls name) root) = hostPairs root := by
  refine foldl_related (R := fun root root' : Json => hostPairs root' = hostPairs root) (fun _ => rfl)
    (fun _ _ _ h h' => h'.trans h) (fun root target _ => ?_) root
  refine foldl_related (R := fun root root' : Json => hostPairs root' = hostPairs root) (fun _ => rfl)
    (fun _ _ _ h h' => h'.trans h) (fun root subsys _ => ?_) root
  split
  · exact hostPairs_run (J := noJson) (rfl : (StoreOp.delAcl target.name subsys.nqn name).run noJson root = .ok _) rfl
  · rfl

/-- A host can be deleted that is in no group, and on no list of a subsystem that is open to every host. -/
theorem delHost (h : Mirrored d) {host : Option String}
    (hlink : ∀ name, host = some name → ∀ l ∈ d.lists.hostList, l.name ≠ name)
    (hopen : ∀ name, host = some name → ∀ s ∈ d.lists.subsystems, s.isRestricted = false → ∀ y ∈ s.hostList, y.name ≠ name)
    (hr : delHost w d host = .ok a) : Mirrored a.dem := by
  obtain ⟨r, hstore, hr⟩ := afterStore_ok hr
  rcases ret_cases (delJsonHost_ok hstore) hr with ⟨heq, rfl⟩ | ⟨⟨i, x, name, hx, hkey, rfl, heq⟩, hr⟩
  · rw [heq]
    exact h
  · cases hr
    have herase : r.root.entries tagHosts = (d.root.entries tagHosts).eraseIdx i := by
      rw [heq, entries_delFromGroups_ne (by decide), entries_delFromAllowedHosts_ne (by decide), Json.entries_removeAt]
    have hstay : ∀ {b n : String}, IsHost d.root b n → b ≠ name → IsHost r.root b n := by
      intro b n hb hne
      refine hb.eraseIdx_ne hx herase (fun hb' => hne ?_)
      rw [hkey] at hb'
      exact (Option.some.inj hb').symm
    have hdel : Mirrored { root := r.root, lists := d.lists.delHost name } := by
      have hsub : ∀ s' ∈ (d.lists.delHost name).subsystems, ∃ s ∈ d.lists.subsystems, s' = s.delHost name := by
        intro s' hs'
        obtain ⟨t', ht', hs'⟩ := List.mem_flatMap.mp hs'
        obtain ⟨t, ht, rfl⟩ := List.mem_map.mp ht'
        obtain ⟨s, hs, rfl⟩ := List.mem_map.mp hs'
        exact ⟨s, List.mem_flatMap.mpr ⟨t, ht, hs⟩, rfl⟩
      refine ⟨?_, ?_, ?_, fun l hl => hstay (h.links l hl) (hlink name rfl l hl)⟩
      · unfold Json.keys
        rw [herase]
        exact Keyed.nodup_keys_eraseIdx h.hosts
      · intro s' hs'
        obtain ⟨s, hs, rfl⟩ := hsub s' hs'
        unfold Subsystem.delHost
        split
        · exact (h.distinct s hs).sublist (List.eraseP_sublist.map _)
        · exact h.distinct s hs
      · intro s' hs' y hy
        obtain ⟨s, hs, rfl⟩ := hsub s' hs'
        unfold Subsystem.delHost at hy
        split at hy
        · obtain ⟨hy, hne⟩ := Keyed.mem_eraseP_of_nodup (h.distinct s hs) hy
          exact hstay (h.records s hs y hy) hne
        · rename_i hres
          exact hstay (h.records s hs y hy) (hopen name rfl s hs (by simpa using hres) y hy)
    exact hdel.of_shrinks (hostPairs_delHostAcls ..) (.withLogs _ w)

/-! ## Making a copy -/

/-- A record of a host of the store that a subsystem does not have yet can be added to it. -/
theorem addRecord (h : Mirrored d) {tgt subnqn name nqn : String} (hhost : IsHost d.root name nqn)
    (hnot : ∀ t, findTarget d.lists tgt = some t → ∀ s, findSubsys t subnqn = some s → ∀ y ∈ s.hostList, y.name ≠ name) :
    Mirrored { d with lists := d.lists.onTarget tgt (fun t => t.onSubsys subnqn (fun s =>
      { s with hostList := s.hostList ++ [{ name := name, nqn := nqn }] })) } := by
  have hsub : ∀ s' ∈ (d.lists.onTarget tgt (fun t => t.onSubsys subnqn (fun s =>
      { s with hostList := s.hostList ++ [{ name := name, nqn := nqn }] }))).subsystems,
      s' ∈ d.lists.subsystems ∨ ∃ s ∈ d.lists.subsystems, (∀ y ∈ s.hostList, y.name ≠ name) ∧
        s' = { s with hostList := s.hostList ++ [{ name := name, nqn := nqn }] } := by
    intro s' hs'
    obtain ⟨t', ht', hs'⟩ := List.mem_flatMap.mp hs'
    rcases Keyed.mem_modifyFirst_find ht' with ht' | ⟨t, ht, hfind, rfl⟩
    · exact Or.inl (List.mem_flatMap.mpr ⟨t', ht', hs'⟩)
    · rcases Keyed.mem_modifyFirst_find hs' with hs' | ⟨s, hs, hfinds, rfl⟩
      · exact Or.inl (List.mem_flatMap.mpr ⟨t, ht, hs'⟩)
      · exact Or.inr ⟨s, List.mem_flatMap.mpr ⟨t, ht, hs⟩, hnot t hfind s hfinds, rfl⟩
  refine ⟨h.hosts, ?_, ?_, h.links⟩
  · intro s' hs'
    rcases hsub s' hs' with hs' | ⟨s, hs, hne, rfl⟩
    · exact h.distinct s' hs'
    · refine Keyed.nodup_map_concat (h.distinct s hs) (fun hmem => ?_)
      obtain ⟨y, hy, heq⟩ := List.mem_map.mp hmem
      exact hne y hy heq
  · intro s' hs' y hy
    rcases hsub s' hs' with hs' | ⟨s, hs, -, rfl⟩
    · exact h.records s' hs' y hy
    · rcases List.mem_append.mp hy with hy | hy
      · exact h.records s hs y hy
      · rw [List.mem_singleton.mp hy]
        exact hhost

theorem linkHost (h : Mirrored d) {tgt subnqn data : String} {host : Option String}
    (hr : linkHost J w d tgt subnqn host data = .ok a) : Mirrored a.dem := by
  obtain ⟨r, hstore, hr⟩ := afterStore_ok hr
  have hrun : (StoreOp.setAcl tgt subnqn host data w.host).run J d.root = .ok (r.ret, r.root) := by
    simp [StoreOp.run, hstore, Except.map, Reply.step]
  have hroot : Mirrored { d with root := r.root } := h.of_shrinks (hostPairs_run hrun rfl) (.refl _)
  rcases hr with ⟨-, rfl⟩ | ⟨hz, hr⟩
  · exact hroot
  · rcases setJsonAcl_ok hstore with ⟨hne, -⟩ | ⟨-, hadd⟩
    · exact absurd hz hne
    · split at hr
      · cases hr
        exact hroot
      · rename_i target hfind
        split at hr
        · cases hr
          exact hroot
        · rename_i subsys hsub
          dsimp only at hr
          split at hr
          · cases hr
          · rename_i hany
            cases hr
            have hname := hadd.getD_eq
            obtain ⟨i, x, hx, halias, hnqn⟩ := hadd.known
            have hhost : IsHost r.root r.out.newalias r.out.nqn := by
              unfold IsHost
              rw [hostPairs_run hrun rfl]
              have hpair : hostPair x = (some r.out.newalias, some r.out.nqn) := by rw [hostPair, halias, hnqn]
              exact hpair ▸ List.mem_of_getElem? (hostPairs_get hx)
            have hlinked : Mirrored { root := r.root, lists := d.lists.onTarget tgt (fun t => t.onSubsys subnqn (fun s =>
                { s with hostList := s.hostList ++ [{ name := host.getD r.out.newalias, nqn := r.out.nqn }] })) } := by
              refine addRecord hroot (by rw [hname]; exact hhost) ?_
              intro t ht s hs y hy hy'
              obtain rfl := Option.some.inj (hfind.symm.trans ht)
              obtain rfl := Option.some.inj (hsub.symm.trans hs)
              exact hany (List.any_eq_true.mpr ⟨y, hy, beq_iff_eq.mpr hy'⟩)
            exact hlinked.of_shrinks rfl ((Shrinks.notify _ _).trans (.withLogs _ w))

/-- The NQN that is looked up for a host is the one it has. -/
theorem getJsonHostNqn_ok {root : Json} {name nqn buf n : String} {ret : Int} (hhosts : (root.keys tagHosts tagAlias).Nodup)
    (hhost : IsHost root name nqn) (h : getJsonHostNqn root name buf = .ok (ret, n)) : n = nqn := by
  unfold getJsonHostNqn at h
  split at h
  · rename_i hnone
    have hm := hhost.mem_keys
    simp [Json.keys, Json.entries, hnone] at hm
  · rename_i hosts hget
    split at h
    · rename_i hnot
      exact absurd hhost.mem_keys (findArray_objectGet_none hget hnot)
    · rename_i i hi
      obtain ⟨hx, hkey⟩ := findArray_objectGet_some hget hi
      have hnqn := hhost.eq_entry hhosts hx hkey
      obtain ⟨v, hv, hvs⟩ := Option.bind_eq_some_iff.mp hnqn
      rw [hv] at h
      dsimp only at h
      rw [hvs] at h
      obtain ⟨m, hm, heq⟩ := map_eq_ok h
      obtain rfl := Option.some.inj (strcpy_ok hm)
      cases heq
      rfl

/-- A host of the store that has an NQN can be linked to a group. -/
theorem addHostToGroup (h : Mirrored d) {group : Option Group} {name buf : String} {lists : Lists}
    (hhost : ∃ nqn, IsHost d.root name nqn) (hr : addHostToGroup d.root d.lists group name buf = .ok lists) :
    Mirrored { d with lists := lists } := by
  obtain ⟨nqn, hhost⟩ := hhost
  obtain ⟨⟨ret, n⟩, hn, hr⟩ := bind_eq_ok hr
  obtain ⟨name', hcopy, hr⟩ := bind_eq_ok hr
  obtain rfl := Option.some.inj (strcpy_ok hcopy)
  cases hr
  refine ⟨h.hosts, h.distinct, h.records, ?_⟩
  intro l hl
  rcases List.mem_append.mp hl with hl | hl
  · exact h.links l hl
  · obtain rfl := getJsonHostNqn_ok h.hosts hhost hn
    rw [List.mem_singleton.mp hl]
    exact hhost

theorem setHostMember (h : Mirrored d) {name member : String} {data : Option String}
    (hhost : ∀ m, memberAlias J data member = some m → m ∈ d.root.keys tagHosts tagAlias → ∃ nqn, IsHost d.root m nqn)
    (hr : setGroupMember J w d name data member .host = .ok a) : Mirrored a.dem := by
  obtain ⟨r, hstore, hr⟩ := afterStore_ok hr
  have hrun : (StoreOp.setGroupMember name data member .host w.name).run J d.root = .ok (r.ret, r.root) := by
    simp [StoreOp.run, hstore, Except.map, Reply.step]
  have hp := hostPairs_run hrun rfl
  have hroot : Mirrored { d with root := r.root } := h.of_shrinks hp (.refl _)
  rcases hr with ⟨-, rfl⟩ | ⟨hz, hr⟩
  · exact hroot
  · rcases setJsonGroupMember_ok hstore with ⟨hne, -⟩ | ⟨-, i, x, m, -, hm, hout, hkey, -⟩
    · exact absurd hz hne
    · obtain ⟨lists, hl, hr⟩ := bind_eq_ok hr
      cases hr
      refine addHostToGroup (d := { d with root := r.root }) hroot ?_ hl
      unfold IsHost
      rw [hp, hout]
      exact hhost m hm hkey

end Mirrored

end NvmeDem
