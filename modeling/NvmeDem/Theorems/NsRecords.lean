import NvmeDem.Dem.Requests
import NvmeDem.Lemmas.Paired

/-!
# The namespaces of a subsystem, in the store and in the lists

A namespace is a device of the target, or a part of one. The store takes the fields that the body of a request has and keeps the
others; the record takes its device from a variable that the store function fills in from the body; a load takes the device of
the entry and has a default for the part. The three agree if the body gives the device and its part. Of the null block device a
managed target looks at no part, a load neither, and a target that is managed locally takes the part that is given.

A managed target that does not have the device is not told of it: the store has changed by then.
-/

namespace NvmeDem

open Jansson Keyed

/-- The namespaces of an entry and of its record, pair by pair: a load makes the record of the entry. -/
def SameNs (s : Json) (subsys : Subsystem) : Prop :=
  Pairs (Json.intField tagNsid) Ns.nsid (fun iter ns => checkNamespace iter = some ns) (s.entries tagNsids) subsys.nsList

theorem checkNamespace_fills {iter iter' : Json} (h : Json.Fills iter iter') : checkNamespace iter' = checkNamespace iter := by
  simp only [checkNamespace, h.intField]

theorem sameNs_stable : Stable SameNs where
  fills := fun hfill h =>
    Pairs.of_left (hfill.entries tagNsids) h (fun hx => hx.intField tagNsid)
      (fun hx hrel => (checkNamespace_fills hx).trans hrel)
  pages := fun _ _ _ h => h

/-- A load gives the namespaces of the record. -/
theorem SameNs.load {s : Json} {subsys : Subsystem} (h : SameNs s subsys) :
    checkNamespaces (s.arrayOr tagNsids) = subsys.nsList := by
  unfold checkNamespaces
  rw [Json.elems_arrayOr]
  exact Pairs.filterMap_eq h

/-! ## What a body gives -/

/-- The entry that a request changes: the first with the number, or a new one. -/
def nsEntry (s : Json) (nsid : Int) : Json :=
  (findArrayInt (s.arrayOr tagNsids) tagNsid nsid).elim (newNs nsid) (arrayGet (s.arrayOr tagNsids))

/-- The part of the device that a body gives: none is needed of the null block device of a managed target, and zero of the one
of a target that is managed locally. An entry whose part is not a number is loaded with the part zero. -/
def GivesDevns (target : Target) (iter body : Json) (devid : Int) : Prop :=
  if devid = nullBlkDevid then
    target.mgmtMode ≠ .localMgmt ∨ ∃ z, body.objectGet tagDevnsid = some z ∧ cInt z.integerValue = 0
  else ∃ z, body.objectGet tagDevnsid = some z ∧ (NumberOrAbsent iter tagDevnsid ∨ cInt z.integerValue = 0)

/-- The part of the device that the record is given. -/
def givenDevns (body : Json) (devid : Int) : Int :=
  if devid = nullBlkDevid then 0 else cInt (((body.objectGet tagDevnsid).map Json.integerValue).getD 0)

/-- A body gives a device that the target has, and its part. -/
def GivesNs (target : Target) (iter body : Json) : Prop :=
  ∃ dev, body.objectGet tagDevid = some dev ∧ GivesDevns target iter body (cInt dev.integerValue) ∧
    (target.mgmtMode = .localMgmt ∨ target.deviceList.any (fun nsdev =>
      nsdev.nsdev == cInt dev.integerValue && nsdev.nsid == givenDevns body (cInt dev.integerValue)) = true)

theorem cInt_cInt (n : Int) : cInt (cInt n) = cInt n := Int.bmod_bmod

/-- What an update leaves in the entry, and what the caller reads back, as far as the body gives it. -/
theorem updateNsFields_device {iter body dev : Json} (arg : NsArg) (hobj : iter.isObject = true)
    (hdev : NumberOrAbsent iter tagDevid) (hbody : body.objectGet tagDevid = some dev) :
    (updateNsFields iter body arg).1.intField tagNsid = iter.intField tagNsid ∧
      (updateNsFields iter body arg).1.intField tagDevid = some dev.integerValue ∧
      (updateNsFields iter body arg).2.nsid = arg.nsid ∧
      (updateNsFields iter body arg).2.devid = cInt dev.integerValue := by
  obtain ⟨sdev, odev⟩ := jsonUpdateIntEx_some hbody hobj hdev arg.devid
  unfold updateNsFields
  refine ⟨?_, ?_, rfl, odev⟩
  · simp only [Json.intField, objectGet_jsonUpdateIntEx_ne (k := tagNsid) (y := tagDevnsid) (by decide),
      objectGet_jsonUpdateIntEx_ne (k := tagNsid) (y := tagDevid) (by decide)]
  · rw [← sdev]
    simp only [Json.intField, objectGet_jsonUpdateIntEx_ne (k := tagDevid) (y := tagDevnsid) (by decide)]

theorem updateNsFields_part {iter body z : Json} (arg : NsArg) (hobj : iter.isObject = true)
    (hbody : body.objectGet tagDevnsid = some z) (hz : NumberOrAbsent iter tagDevnsid ∨ cInt z.integerValue = 0) :
    (updateNsFields iter body arg).2.devns = cInt z.integerValue ∧
      (((updateNsFields iter body arg).1.intField tagDevnsid).map cInt).getD 0 = cInt z.integerValue := by
  have hobj₁ := (isObject_jsonUpdateIntEx iter body tagDevid arg.devid).trans hobj
  have hget : (jsonUpdateIntEx iter body tagDevid arg.devid).1.objectGet tagDevnsid = iter.objectGet tagDevnsid :=
    objectGet_jsonUpdateIntEx_ne (by decide) iter body _
  have hout : (updateNsFields iter body arg).2.devns = cInt z.integerValue := by
    simp only [updateNsFields, jsonUpdateIntEx.eq_def _ body tagDevnsid, hbody, hobj₁, if_true]
  refine ⟨hout, ?_⟩
  by_cases hnum : NumberOrAbsent (jsonUpdateIntEx iter body tagDevid arg.devid).1 tagDevnsid
  · have hset := (jsonUpdateIntEx_some hbody hobj₁ hnum arg.devns).1
    exact congrArg (fun n => (Option.map cInt n).getD 0) hset
  · obtain ⟨hkeep, hnone⟩ := jsonSetInt_of_not hnum z.integerValue
    have hzero : cInt z.integerValue = 0 := by
      refine hz.resolve_left (fun h => hnum ?_)
      simpa only [NumberOrAbsent, Json.intField, hget] using h
    simp only [updateNsFields, jsonUpdateIntEx.eq_def _ body tagDevnsid, hbody, hobj₁, if_true, hkeep, hnone, hzero]
    rfl

/-- An entry whose device can be set: the record that the target is given is the one that a load makes of the entry. -/
theorem updateNsFields_same {target : Target} {iter body : Json} (arg : NsArg) {nsid : Int}
    (hid : iter.intField tagNsid = some nsid) (hrange : cInt nsid = nsid) (hdev : NumberOrAbsent iter tagDevid)
    (hnsid : arg.nsid = nsid) (hg : GivesNs target iter body) :
    checkNamespace (updateNsFields iter body arg).1 = some (requestedNs target (updateNsFields iter body arg).2) ∧
      hasNsdev target (requestedNs target (updateNsFields iter body arg).2) = true := by
  obtain ⟨dev, hdevid, hdevns, hlisted⟩ := hg
  have hobj := Json.isObject_of_intField hid
  obtain ⟨sid, sdev, oid, odev⟩ := updateNsFields_device arg hobj hdev hdevid
  generalize hdevice : cInt dev.integerValue = devid at hdevns hlisted odev
  -- The part that the record is given, and the part that is loaded.
  have hpart : (requestedNs target (updateNsFields iter body arg).2).devns = givenDevns body devid ∧
      (if devid = nullBlkDevid then 0 else (((updateNsFields iter body arg).1.intField tagDevnsid).map cInt).getD 0) =
        givenDevns body devid := by
    unfold GivesDevns at hdevns
    by_cases hnull : devid = nullBlkDevid
    · have hgiven : givenDevns body devid = 0 := if_pos hnull
      rw [if_pos hnull] at hdevns
      rw [hgiven, if_pos hnull]
      refine ⟨?_, rfl⟩
      unfold requestedNs
      rcases hdevns with hmode | ⟨z, hz, hzero⟩
      · exact if_pos ⟨hmode, odev.trans hnull⟩
      · dsimp only
        split
        · rfl
        · rw [(updateNsFields_part arg hobj hz (Or.inr hzero)).1, hzero]
    · rw [if_neg hnull] at hdevns
      obtain ⟨z, hz, hnum⟩ := hdevns
      obtain ⟨hout, hload⟩ := updateNsFields_part arg hobj hz hnum
      have hgiven : givenDevns body devid = cInt z.integerValue := by
        rw [givenDevns, if_neg hnull, hz]
        rfl
      rw [hgiven, if_neg hnull, hload]
      refine ⟨Eq.trans ?_ hout, rfl⟩
      exact if_neg (fun h => hnull (odev.symm.trans h.2))
  have hns : requestedNs target (updateNsFields iter body arg).2 =
      { nsid := nsid, devid := devid, devns := givenDevns body devid } := by
    rw [← hpart.1, ← odev, ← hnsid, ← oid]
    rfl
  refine ⟨?_, ?_⟩
  · simp only [checkNamespace, sid, hid, sdev, hrange, hdevice, hpart.2, hns]
  · rw [hns]
    unfold hasNsdev
    rcases hlisted with hlocal | hlisted
    · rw [decide_eq_true hlocal, Bool.true_or]
    · rw [hlisted, Bool.or_true]

/-! ## Requests -/

theorem nsEntry_first {s e : Json} {nsid : Int} {k : Nat}
    (hfirst : (s.entries tagNsids).findIdx? (fun iter => decide (iter.intField tagNsid = some nsid)) = some k)
    (he : (s.entries tagNsids)[k]? = some e) : nsEntry s nsid = e := by
  rw [nsEntry, findArrayInt, Json.elems_arrayOr, hfirst, Option.elim_some, arrayGet, Json.elems_arrayOr, he]
  rfl

theorem findIdx?_none_of_fresh {s : Json} {nsid : Int} (hfresh : nsid ∉ s.intKeys tagNsids tagNsid) :
    (s.entries tagNsids).findIdx? (fun iter => decide (iter.intField tagNsid = some nsid)) = none := by
  rw [List.findIdx?_eq_none_iff]
  intro x hx
  rw [decide_eq_false_iff_not]
  exact fun heq => hfresh (List.mem_filterMap.mpr ⟨x, hx, heq⟩)

theorem nsEntry_fresh {s : Json} {nsid : Int} (hfresh : nsid ∉ s.intKeys tagNsids tagNsid) : nsEntry s nsid = newNs nsid := by
  rw [nsEntry, findArrayInt, Json.elems_arrayOr, findIdx?_none_of_fresh hfresh, Option.elim_none]

/-- A namespace set in an entry and in its record. -/
theorem SameNs.update {s s' body : Json} {subsys : Subsystem} {target : Target} {arg out : NsArg} {nsid : Int}
    (h : SameNs s subsys) (hrange : cInt nsid = nsid) (hg : GivesNs target (nsEntry s nsid) body)
    (hupd : NsUpdate s body arg nsid out s') :
    SameNs s' (subsys.setNs (requestedNs target out)) ∧ hasNsdev target (requestedNs target out) = true := by
  unfold SameNs Subsystem.setNs
  cases hupd with
  | @change k n hfirst hn hid =>
    rw [nsEntry_first hfirst hn] at hg
    obtain ⟨x, ns, hx, hfound, hkey, hload⟩ := Pairs.find h hfirst
    obtain rfl := Option.some.inj (hn.symm.trans hx)
    have hdev : NumberOrAbsent n tagDevid := by
      refine Or.inl ?_
      unfold checkNamespace at hload
      split at hload
      · rename_i hdevid
        rw [hdevid]
        rfl
      · cases hload
    obtain ⟨hsame, hlisted⟩ := updateNsFields_same { arg with nsid := nsid } hid hrange hdev rfl hg
    refine ⟨?_, hlisted⟩
    have hany : subsys.nsList.any (fun m => m.nsid == nsid) = true :=
      List.any_eq_true.mpr ⟨ns, List.mem_of_find?_eq_some hfound, beq_iff_eq.mpr hkey⟩
    have hnsid : (requestedNs target (updateNsFields n body { arg with nsid := nsid }).2).nsid = nsid := rfl
    rw [hnsid, if_pos hany, Json.entries_putAt]
    refine Pairs.modify h hfirst (fun _ _ _ _ _ _ => ⟨?_, hsame⟩)
    obtain ⟨dev, hdevid, -, -⟩ := hg
    exact (updateNsFields_device _ (Json.isObject_of_intField hid) hdev hdevid).1.trans hid
  | create hfresh hpush =>
    rw [nsEntry_fresh hfresh] at hg
    have hid : (newNs nsid).intField tagNsid = some nsid := intField_jsonSetInt_self rfl (Or.inr rfl)
    obtain ⟨hsame, hlisted⟩ := updateNsFields_same { arg with nsid := nsid } hid hrange (Or.inr rfl) rfl hg
    refine ⟨?_, hlisted⟩
    have hnone : subsys.nsList.any (fun m => m.nsid == nsid) = false := by
      have hfind := Pairs.find_none h (findIdx?_none_of_fresh hfresh)
      rw [List.any_eq_false]
      exact fun m hm => List.find?_eq_none.mp hfind m hm
    have hnsid : (requestedNs target (updateNsFields (newNs nsid) body { arg with nsid := nsid }).2).nsid = nsid := rfl
    rw [hnsid, hnone, if_neg Bool.false_ne_true, Json.entries_pushAt_of_canPush hpush]
    refine Pairs.concat h ?_ hsame
    obtain ⟨dev, hdevid, -, -⟩ := hg
    exact (updateNsFields_device _ rfl (Or.inr rfl) hdevid).1.trans hid

theorem nqn_setNs (ns : Ns) (subsys : Subsystem) : (subsys.setNs ns).nqn = subsys.nqn := by
  unfold Subsystem.setNs
  split <;> rfl

section

variable {J : JsonLib} {w : World} {d : Daemon} {a : Answer} {tgt nqn : String}

/-- A request that sets a namespace gives a device that the target has, and its part, if the store takes the request. -/
def SetsNs (J : JsonLib) (d : Daemon) (tgt nqn data : String) : Prop :=
  ∀ body nsid t i s j target, J.loads data = some body → body.objectGet tagNsid = some nsid → TargetAt d.root tgt i t →
    SubsysAt t nqn j s → s.canPush tagNsids = true → findTarget d.lists tgt = some target →
    GivesNs target (nsEntry s (cInt nsid.integerValue)) body

theorem Paired.setNs (h : Paired (SubsysPaired SameNs) d) {data : String} (hsets : SetsNs J d tgt nqn data)
    (hr : setNs J w d tgt nqn data = .ok a) : Paired (SubsysPaired SameNs) a.dem := by
  obtain ⟨r, hstore, hr⟩ := afterStore_ok hr
  obtain rfl := Except.ok.inj hstore
  rcases ret_cases (setJsonNs_ok J d.root tgt nqn data w.ns) hr with
    ⟨hfill, rfl⟩ | ⟨⟨i, t, j, s, s', body, nsid, ht, hs, hbody, hnsid, hupd, hroot⟩, hr⟩
  · exact sameNs_stable.of_fills h hfill
  · obtain ⟨target, hfind, -, hrel⟩ := h.find ht
    obtain ⟨subsys, hfound, -, hsame⟩ := hrel.find hs
    have hgives := hsets body nsid t i s j target hbody hnsid ht hs (canPush_nsUpdate hupd) hfind
    have hdevice := (hsame.update (cInt_cInt _) hgives hupd).2
    simp only [hfind, hdevice, if_true, hfound] at hr
    cases hr
    rw [hroot]
    refine Paired.onSubsys h ht hs (fun _ subsys _ _ hsubsys hsame => ⟨?_, (hsame.update (cInt_cInt _) hgives hupd).1⟩)
    rw [strField_nsUpdate hupd, hs.key, nqn_setNs, hsubsys]

theorem Paired.delNs (h : Paired (SubsysPaired SameNs) d) {nsid : Int} (hr : delNs w d tgt nqn nsid = .ok a) :
    Paired (SubsysPaired SameNs) a.dem := by
  obtain ⟨r, hstore, hr⟩ := afterStore_ok hr
  obtain rfl := Except.ok.inj hstore
  rcases ret_cases (delJsonNs_ok d.root tgt nqn nsid) hr with ⟨hroot, rfl⟩ | ⟨⟨i, t, j, s, k, n, ht, hs, hfirst, -, -, hroot⟩, hr⟩
  · rw [hroot]
    exact h
  · obtain ⟨target, hfind, -, hrel⟩ := h.find ht
    obtain ⟨subsys, hfound, -, hsame⟩ := hrel.find hs
    obtain ⟨-, ns, -, hns, hkey, -⟩ := Pairs.find hsame hfirst
    have hany : subsys.nsList.any (fun m => m.nsid == nsid) = true :=
      List.any_eq_true.mpr ⟨ns, List.mem_of_find?_eq_some hns, beq_iff_eq.mpr hkey⟩
    simp only [hfind, hfound, hany, if_true] at hr
    cases hr
    rw [hroot]
    refine Paired.onSubsys h ht hs (fun _ subsys _ _ hsubsys hsame => ⟨?_, ?_⟩)
    · rw [Json.strField_removeAt_ne (by decide), hs.key, ← hsubsys]
    · unfold SameNs
      rw [Json.entries_removeAt]
      exact Pairs.erase hsame hfirst

end

/-! ## Runs -/

/-- The requests that set and delete namespaces. -/
def Request.editsNs : Request → Bool
  | .setNs _ _ _ | .delNs _ _ _ => true
  | _ => false

/-- A request that sets a namespace gives a device that the target has, and its part. -/
def Request.GivesDevices (J : JsonLib) (d : Daemon) : Request → Prop
  | .setNs tgt nqn data => SetsNs J d tgt nqn data
  | _ => True

/-- In every run of requests that give a device of the target and its part, the namespaces of each subsystem are those that a
load makes of its entry. -/
theorem ns_records_match {J : JsonLib} {d₀ d : Daemon} (h₀ : Paired (SubsysPaired SameNs) d₀)
    (hrun : Run (demStep J) (fun d op => op.2.editsNs = true ∧ op.2.GivesDevices J d) d₀ d) :
    Paired (SubsysPaired (fun s subsys => SameNs s subsys ∧ checkNamespaces (s.arrayOr tagNsids) = subsys.nsList)) d := by
  have h : Paired (SubsysPaired SameNs) d := by
    refine hrun.invariant h₀ (fun d op d' h hallowed hs => ?_)
    obtain ⟨w, req⟩ := op
    obtain ⟨hop, hgives⟩ := hallowed
    obtain ⟨-, a, hr, rfl⟩ := hs
    cases req with
    | setNs tgt nqn data => exact h.setNs hgives hr
    | delNs tgt nqn nsid => exact h.delNs hr
    | _ => cases hop
  exact Pairs.imp h (fun t target hrel => Pairs.imp hrel (fun s subsys hsame => ⟨hsame, hsame.load⟩))

/-- A daemon with a target, managed in a given way, that has one device and a subsystem without namespaces. -/
def nsDaemon (mode : MgmtMode) : Daemon where
  root := .object [(tagTargets, .array [.object [(tagAlias, .string "t"),
    (tagSubsystems, .array [.object [(tagSubnqn, .string "s")]])]])]
  lists := { targetList := [{ ptr := 0, name := "t", mgmtMode := mode, deviceList := [⟨2, 1⟩], subsysList := [{ nqn := "s" }] }] }

theorem nsDaemon_paired (mode : MgmtMode) : Paired (SubsysPaired SameNs) (nsDaemon mode) :=
  .cons ⟨rfl, .cons ⟨rfl, .nil⟩ .nil⟩ .nil

/-- The texts of two bodies: one with the device and its part, one with the number of the namespace alone. -/
def nsText : String := "\x7b\"NSID\":1,\"DeviceID\":2,\"DeviceNSID\":1\x7d"
def nsidText : String := "\x7b\"NSID\":1\x7d"

def nsBodies : JsonLib :=
  .ofTexts [(nsText, .object [(tagNsid, .integer 1), (tagDevid, .integer 2), (tagDevnsid, .integer 1)]),
    (nsidText, .object [(tagNsid, .integer 1)])]

/-- A namespace is added on a managed target. -/
theorem ns_records_match_added :
    ∃ d : Daemon, d.lists.targetList.map (fun t => t.subsysList.map Subsystem.nsList) = [[[⟨1, 2, 1⟩]]] ∧
      Paired (SubsysPaired (fun s subsys => SameNs s subsys ∧ checkNamespaces (s.arrayOr tagNsids) = subsys.nsList)) d := by
  have hset := Run.request { addr := 1, ns := ⟨7, 8, 9⟩ } (.setNs "t" "s" nsText)
    (.start : Run (demStep nsBodies) (fun d op => op.2.editsNs = true ∧ op.2.GivesDevices nsBodies d) (nsDaemon .inBandMgmt) _)
    ⟨rfl, fun body nsid t i s j target hbody hnsid ht hs _ hfind => by
      cases hbody
      cases hnsid
      cases hfind
      obtain rfl := Option.some.inj (ht.first : some 0 = _)
      cases ht.get
      obtain rfl := Option.some.inj (hs.first : some 0 = _)
      cases hs.get
      exact ⟨_, rfl, ⟨_, rfl, Or.inl (Or.inr rfl)⟩, Or.inr rfl⟩⟩ (by decide) rfl
  exact ⟨_, rfl, ns_records_match (nsDaemon_paired _) hset⟩

/-- A namespace is set without a device: the record takes one from a variable that was not written to, and a load skips the
entry. -/
theorem ns_records_differ :
    ¬∀ (J : JsonLib) (d₀ d : Daemon), Paired (SubsysPaired SameNs) d₀ →
      Run (demStep J) (fun _ op => op.2.editsNs = true) d₀ d →
        Paired (SubsysPaired (fun s subsys => checkNamespaces (s.arrayOr tagNsids) = subsys.nsList)) d := by
  intro h
  have hset := Run.request { addr := 1, ns := ⟨7, 8, 9⟩ } (.setNs "t" "s" nsidText)
    (.start : Run (demStep nsBodies) (fun _ op => op.2.editsNs = true) (nsDaemon .localMgmt) _) rfl (by decide) rfl
  have hpaired := h nsBodies (nsDaemon .localMgmt) _ (nsDaemon_paired _) hset
  obtain ⟨⟨-, hsub⟩, -⟩ := List.forall₂_cons.mp hpaired
  obtain ⟨⟨-, hload⟩, -⟩ := List.forall₂_cons.mp hsub
  have hbad : ([] : List Ns) = [⟨1, 8, 9⟩] := hload
  exact absurd hbad (by decide)

end NvmeDem
