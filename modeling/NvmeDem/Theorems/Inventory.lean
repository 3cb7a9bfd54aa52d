import NvmeDem.Lemmas.Inventory
import NvmeDem.Lemmas.Reconfig
import NvmeDem.Lemmas.Targets

/-!
# The inventory of a target after it was asked

Out of band a target spells its whole inventory in a text, and what the daemon holds afterwards is that inventory, in the lists and
in the root, whatever it held before. In band that holds of the list of interfaces alone: no device is ever taken off the list,
the devices of the root are overwritten by each device that is new, and of the interfaces the root is left with the new ones.
-/

namespace NvmeDem

open Jansson Keyed

/-! ## Entries and what they spell -/

/-- An entry that spells a device; the namespace of the null block device is not looked at. -/
def SpellsNsdev (iter : Json) (dev : Nsdev) : Prop :=
  iter.intField tagDevid = some dev.nsdev ∧ (dev.nsdev ≠ nullBlkDevid → iter.intField tagDevnsid = some dev.nsid)

def SpellsIface (iter : Json) (iface : FabricIface) : Prop :=
  iter.strField tagType = some iface.type ∧ iter.strField tagFamily = some iface.fam ∧
    iter.strField tagAddress = some iface.addr

/-- What tells devices apart: the null block device is known by its number alone. -/
def Nsdev.ident (dev : Nsdev) : Int × Option Int := (dev.nsdev, if dev.nsdev = nullBlkDevid then none else some dev.nsid)

structure FabricIface.Fits (iface : FabricIface) : Prop where
  type : iface.type.length ≤ configTypeSize
  fam : iface.fam.length ≤ configFamilySize
  addr : iface.addr.length ≤ configAddressSize

/-- The entries list each element once, in some order. -/
def StoresOnce {α : Type} (R : Json → α → Prop) (entries : List Json) (xs : List α) : Prop :=
  ∃ l : List α, l.Perm xs ∧ List.Forall₂ R entries l

theorem sameNsdev_iff (x y : Nsdev) : sameNsdev x y = true ↔ x.ident = y.ident := by
  simp only [sameNsdev, Nsdev.ident, Bool.and_eq_true, Bool.or_eq_true, beq_iff_eq, Prod.mk.injEq]
  refine and_congr_right (fun hdev => ?_)
  rw [hdev]
  by_cases hnull : y.nsdev = nullBlkDevid
  · simp [hnull]
  · simp [hnull]

theorem spellsNsdev_entry (dev : Nsdev) : SpellsNsdev (nsdevEntry dev) dev := by
  have hid : (jsonSetInt (.object []) tagDevid dev.nsdev).intField tagDevid = some dev.nsdev :=
    intField_jsonSetInt_self rfl (Or.inr rfl)
  unfold nsdevEntry
  by_cases hnull : dev.nsdev = nullBlkDevid
  · rw [if_pos hnull]
    exact ⟨hid, fun h => absurd hnull h⟩
  · rw [if_neg hnull]
    refine ⟨?_, fun _ => intField_jsonSetInt_self rfl (Or.inr rfl)⟩
    rw [Json.intField, objectGet_jsonSetInt_ne (by decide)]
    exact hid

theorem spellsIface_entry (iface : FabricIface) : SpellsIface (ifaceEntry iface) iface := by
  unfold ifaceEntry
  refine ⟨?_, ?_, strField_jsonSetString_self rfl (Or.inr rfl)⟩
  · rw [Json.strField, objectGet_jsonSetString_ne (by decide), objectGet_jsonSetString_ne (by decide)]
    exact strField_jsonSetString_self rfl (Or.inr rfl)
  · rw [Json.strField, objectGet_jsonSetString_ne (by decide)]
    exact strField_jsonSetString_self rfl (Or.inr rfl)

/-- An array put into the entry of a target. -/
theorem TargetAt.setArray {root t : Json} {name : String} {i : Nat} (ht : TargetAt root name i t) (tag : String)
    (htag : tagAlias ≠ tag) (array : List Json) :
    setTargetArray root name tag array = some (root.putAt tagTargets i (t.objectSet tag (.array array))) ∧
      TargetAt (root.putAt tagTargets i (t.objectSet tag (.array array))) name i (t.objectSet tag (.array array)) ∧
      (t.objectSet tag (.array array)).entries tag = array := by
  have hget : arrayGet (root.arrayOr tagTargets) i = t := by
    have h := (findArray_arrayOr_some ht.first).1
    exact Option.some.inj (h.symm.trans ht.get)
  have hkey : (t.objectSet tag (.array array)).strField tagAlias = some name := by
    rw [Json.strField_objectSet_ne htag, ht.key]
  refine ⟨?_, ⟨findArray_putAt ht.first hkey, ?_, hkey⟩, ?_⟩
  · simp [setTargetArray, ht.first, hget]
  · obtain ⟨hi, -⟩ := List.getElem?_eq_some_iff.1 ht.get
    rw [Json.entries_putAt, List.getElem?_set_self hi]
  · rw [Json.entries_objectSet_self, if_pos (Json.isObject_of_strField ht.key)]
    rfl

/-! ## Out of band -/

section

variable {J : JsonLib} {root new t : Json} {target : Target} {data : String} {i : Nat}

theorem oobNsdev_of_spells {iter : Json} {dev : Nsdev} (h : SpellsNsdev iter dev) (hdev : IsInt dev.nsdev ∧ IsInt dev.nsid) :
    ∃ read, oobNsdev iter = some read ∧ read.ident = dev.ident := by
  unfold oobNsdev
  rw [h.1]
  dsimp only
  rw [cInt_of_isInt hdev.1]
  by_cases hnull : dev.nsdev = nullBlkDevid
  · rw [if_pos hnull]
    exact ⟨_, rfl, by simp [Nsdev.ident, hnull]⟩
  · rw [if_neg hnull, h.2 hnull]
    exact ⟨_, rfl, by simp [Nsdev.ident, hnull, cInt_of_isInt hdev.2]⟩

theorem spells_of_ident {iter : Json} {dev dev' : Nsdev} (h : SpellsNsdev iter dev) (hid : dev.ident = dev'.ident) :
    SpellsNsdev iter dev' := by
  simp only [Nsdev.ident, Prod.mk.injEq] at hid
  obtain ⟨hdev, hns⟩ := hid
  refine ⟨by rw [h.1, hdev], fun hnull => ?_⟩
  rw [hdev, if_neg hnull, if_neg hnull] at hns
  rw [h.2 (hdev ▸ hnull), Option.some.inj hns]

/-- The whole loop, on entries that are all good. -/
theorem readOobNsdevs_eq {iters : List Json} {devs : List Nsdev} (h : List.Forall₂ SpellsNsdev iters devs)
    (hdevs : ∀ dev ∈ devs, IsInt dev.nsdev ∧ IsInt dev.nsid) (array : List Json) (list : List (Nsdev × Bool)) :
    ∃ reads : List Nsdev, reads.map Nsdev.ident = devs.map Nsdev.ident ∧
      readOobNsdevs iters array list =
        (true, array ++ reads.map nsdevEntry, reads.foldl (markOrAdd sameNsdev) list) := by
  induction h generalizing array list with
  | nil => exact ⟨[], rfl, by simp [readOobNsdevs]⟩
  | cons hd _ ih =>
    obtain ⟨read, hread, hid⟩ := oobNsdev_of_spells hd (hdevs _ List.mem_cons_self)
    obtain ⟨reads, hids, hloop⟩ := ih (fun dev hdev => hdevs dev (List.mem_cons_of_mem _ hdev))
      (array ++ [nsdevEntry read]) (markOrAdd sameNsdev list read)
    refine ⟨read :: reads, by rw [List.map_cons, List.map_cons, hid, hids], ?_⟩
    simp only [readOobNsdevs, hread, hloop, List.map_cons, List.foldl_cons, List.append_assoc, List.singleton_append]

theorem setJsonOobNsdevs_exact (ht : TargetAt root target.name i t) (hload : J.loads data = some new) {devs : List Nsdev}
    (hspell : List.Forall₂ SpellsNsdev (new.entries tagNsdevs) devs)
    (hdevs : ∀ dev ∈ devs, IsInt dev.nsdev ∧ IsInt dev.nsid) :
    ∃ root' target', setJsonOobNsdevs J root target data = .ok (0, root', target') ∧
      (∀ x, x ∈ target'.deviceList.map Nsdev.ident ↔ x ∈ devs.map Nsdev.ident) ∧
      ∃ t', TargetAt root' target'.name i t' ∧ List.Forall₂ SpellsNsdev (t'.entries tagNsdevs) devs := by
  obtain ⟨reads, hids, hloop⟩ := readOobNsdevs_eq hspell hdevs [] (unmarked target.deviceList)
  rw [List.nil_append] at hloop
  obtain ⟨hset, hat, hentries⟩ := ht.setArray tagNsdevs (by decide) (reads.map nsdevEntry)
  refine ⟨_, { target with deviceList := marked (reads.foldl (markOrAdd sameNsdev) (unmarked target.deviceList)) }, ?_, ?_, _,
    hat, ?_⟩
  · unfold setJsonOobNsdevs
    simp only [hload, hloop, hset, if_pos]
  · intro x
    rw [← hids]
    exact mem_keys_marked sameNsdev_iff target.deviceList reads
  · rw [hentries, List.forall₂_map_left_iff]
    have hread : List.Forall₂ (fun read dev => Nsdev.ident read = Nsdev.ident dev) reads devs := by
      have hmap : List.Forall₂ (fun k k' => k = k') (reads.map Nsdev.ident) (devs.map Nsdev.ident) := by
        rw [hids]
        exact List.forall₂_refl _
      rwa [List.forall₂_map_left_iff, List.forall₂_map_right_iff] at hmap
    exact hread.imp (fun read dev hid => spells_of_ident (spellsNsdev_entry read) hid)

theorem oobXport_of_spells {iter : Json} {iface : FabricIface} (h : SpellsIface iter iface) (hfits : iface.Fits) :
    oobXport iter = .ok [iface] := by
  obtain ⟨htype, hfam, haddr⟩ := h
  unfold oobXport
  simp only [htype, hfam, haddr]
  rw [strcpy_of_le hfits.type, strcpy_of_le hfits.fam, strcpy_of_le hfits.addr]
  rfl

theorem collect_oobXport {iters : List Json} {ifaces : List FabricIface} (h : List.Forall₂ SpellsIface iters ifaces)
    (hfits : ∀ iface ∈ ifaces, iface.Fits) : collect oobXport iters = .ok ifaces := by
  induction h with
  | nil => rfl
  | cons hx _ ih =>
    exact collect_cons_of_ok (oobXport_of_spells hx (hfits _ List.mem_cons_self))
      (ih (fun iface hi => hfits iface (List.mem_cons_of_mem _ hi)))

theorem mem_marked_ifaces (list ifaces : List FabricIface) (iface : FabricIface) :
    iface ∈ marked (ifaces.foldl (markOrAdd (fun x y => x == y)) (unmarked list)) ↔ iface ∈ ifaces := by
  have hsame : ∀ x y : FabricIface, (x == y) = true ↔ id x = id y := fun _ _ => beq_iff_eq
  have h : iface ∈ (marked (ifaces.foldl (markOrAdd (fun x y => x == y)) (unmarked list))).map id ↔ iface ∈ ifaces.map id :=
    mem_keys_marked hsame list ifaces
  rwa [List.map_id, List.map_id] at h

theorem forall₂_entries (ifaces : List FabricIface) : List.Forall₂ SpellsIface (ifaces.map ifaceEntry) ifaces := by
  rw [List.forall₂_map_left_iff]
  exact List.forall₂_same.2 (fun iface _ => spellsIface_entry iface)

theorem setJsonOobInterfaces_exact (ht : TargetAt root target.name i t) (hload : J.loads data = some new)
    {ifaces : List FabricIface} (hspell : List.Forall₂ SpellsIface (new.entries tagInterfaces) ifaces)
    (hfits : ∀ iface ∈ ifaces, iface.Fits) :
    ∃ root' target', setJsonOobInterfaces J root target data = .ok (0, root', target') ∧
      (∀ iface, iface ∈ target'.fabricIfaceList ↔ iface ∈ ifaces) ∧
      ∃ t', TargetAt root' target'.name i t' ∧ List.Forall₂ SpellsIface (t'.entries tagInterfaces) ifaces := by
  obtain ⟨hset, hat, hentries⟩ := ht.setArray tagInterfaces (by decide) (ifaces.map ifaceEntry)
  let list := ifaces.foldl (markOrAdd (fun x y => x == y)) (unmarked target.fabricIfaceList)
  refine ⟨_, { target with fabricIfaceList := marked list }, ?_, mem_marked_ifaces target.fabricIfaceList ifaces, _, hat, ?_⟩
  · unfold setJsonOobInterfaces
    simp only [hload, collect_oobXport hspell hfits, bind, Except.bind, hset]
    rfl
  · rw [hentries]
    exact forall₂_entries ifaces

/-- Of a text that spells devices and interfaces the daemon keeps exactly these. -/
theorem oob_inventory_exact (ht : TargetAt root target.name i t) (hload : J.loads data = some new) :
    (∀ devs, List.Forall₂ SpellsNsdev (new.entries tagNsdevs) devs → (∀ dev ∈ devs, IsInt dev.nsdev ∧ IsInt dev.nsid) →
      ∃ root' target', setJsonOobNsdevs J root target data = .ok (0, root', target') ∧
        (∀ x, x ∈ target'.deviceList.map Nsdev.ident ↔ x ∈ devs.map Nsdev.ident) ∧
        ∃ t', TargetAt root' target'.name i t' ∧ List.Forall₂ SpellsNsdev (t'.entries tagNsdevs) devs) ∧
    (∀ ifaces, List.Forall₂ SpellsIface (new.entries tagInterfaces) ifaces → (∀ iface ∈ ifaces, iface.Fits) →
      ∃ root' target', setJsonOobInterfaces J root target data = .ok (0, root', target') ∧
        (∀ iface, iface ∈ target'.fabricIfaceList ↔ iface ∈ ifaces) ∧
        ∃ t', TargetAt root' target'.name i t' ∧ List.Forall₂ SpellsIface (t'.entries tagInterfaces) ifaces) :=
  ⟨fun _ => setJsonOobNsdevs_exact ht hload, fun _ => setJsonOobInterfaces_exact ht hload⟩

end

/-- A target of the lists and the root with its entry. -/
def listedTarget : Target :=
  { ptr := 0, name := "t", deviceList := [⟨-1, 3⟩, ⟨4, 1⟩], fabricIfaceList := [⟨"tcp", "ipv4", "10.0.0.1"⟩] }

def listedEntry : Json := .object [(tagAlias, .string "t"), (tagNsdevs, .array [])]

def listedRoot : Json := .object [(tagTargets, .array [listedEntry])]

def nullOnly : JsonLib := JsonLib.ofTexts [("null", .object [(tagNsdevs, .array [.object [(tagDevid, .integer (-1))]])])]

theorem listed : TargetAt listedRoot listedTarget.name 0 listedEntry := ⟨by decide, rfl, by decide⟩

theorem oob_inventory_of_listed :
    (∃ root' target', setJsonOobNsdevs nullOnly listedRoot listedTarget "null" = .ok (0, root', target') ∧
      ∀ x, x ∈ target'.deviceList.map Nsdev.ident ↔ x ∈ [((-1 : Int), (none : Option Int))]) ∧
    ∃ root' target', setJsonOobInterfaces nullOnly listedRoot listedTarget "null" = .ok (0, root', target') ∧
      ∀ iface, iface ∉ target'.fabricIfaceList := by
  have hload : nullOnly.loads "null" = some (.object [(tagNsdevs, .array [.object [(tagDevid, .integer (-1))]])]) := rfl
  obtain ⟨hdevs, hifaces⟩ := oob_inventory_exact listed hload
  obtain ⟨root', target', hr, hmem, -⟩ := hdevs [⟨-1, 0⟩]
    (.cons ⟨by decide, fun h => absurd rfl h⟩ .nil) (by decide)
  obtain ⟨root'', target'', hr', hmem', -⟩ := hifaces [] .nil (fun iface hi => absurd hi List.not_mem_nil)
  exact ⟨⟨root', target', hr, hmem⟩, root'', target'', hr', fun iface hi => List.not_mem_nil ((hmem' iface).1 hi)⟩

/-! ## In band -/

section

variable {root t : Json} {target : Target} {i : Nat}

/-- The devices that are new are added to the list; the last of them is the one device of the root. -/
theorem getInbNsdevs_eq (ht : TargetAt root target.name i t) (devs : List Nsdev) (hn : (devs.map inbNsdev).Nodup) :
    ∃ root' t', getInbNsdevs root target devs =
        (root', { target with deviceList := target.deviceList ++ (devs.map inbNsdev).filter (fun d => d ∉ target.deviceList) }) ∧
      TargetAt root' target.name i t' ∧
      t'.entries tagNsdevs =
        (((devs.map inbNsdev).filter (fun d => d ∉ target.deviceList)).getLast?.map (fun d => [nsdevEntry d])).getD
          (t.entries tagNsdevs) := by
  unfold getInbNsdevs
  generalize devs.map inbNsdev = ds at hn
  induction ds generalizing root t target with
  | nil => exact ⟨root, t, by simp, ht, rfl⟩
  | cons d ds ih =>
    obtain ⟨hd, hn⟩ := List.nodup_cons.1 hn
    by_cases hmem : d ∈ target.deviceList
    · rw [List.foldl_cons, addInbNsdev, if_pos hmem, List.filter_cons_of_neg (by simpa using hmem)]
      exact ih ht hn
    · obtain ⟨hset, hat, hentries⟩ := ht.setArray tagNsdevs (by decide) [nsdevEntry d]
      have hstep : addInbNsdev (root, target) d =
          (root.putAt tagTargets i (t.objectSet tagNsdevs (.array [nsdevEntry d])),
            { target with deviceList := target.deviceList ++ [d] }) := by
        rw [addInbNsdev, if_neg hmem]
        simp only [hset, Option.getD_some]
      have hat₁ : TargetAt (root.putAt tagTargets i (t.objectSet tagNsdevs (.array [nsdevEntry d])))
          { target with deviceList := target.deviceList ++ [d] }.name i (t.objectSet tagNsdevs (.array [nsdevEntry d])) := hat
      obtain ⟨root', t', hfold, hat', hent'⟩ := ih hat₁ hn
      have hrest : ds.filter (fun x => x ∉ target.deviceList ++ [d]) = ds.filter (fun x => x ∉ target.deviceList) := by
        refine List.filter_congr (fun x hx => ?_)
        have hne : x ≠ d := fun heq => hd (heq ▸ hx)
        simp [hne]
      rw [hrest] at hfold hent'
      refine ⟨root', t', ?_, hat', ?_⟩
      · rw [List.foldl_cons, hstep, hfold, List.filter_cons_of_pos (by simpa using hmem), List.append_assoc]
        rfl
      · rw [hent', List.filter_cons_of_pos (by simpa using hmem), hentries, List.getLast?_cons]
        cases (ds.filter (fun x => x ∉ target.deviceList)).getLast? <;> rfl

theorem getInbXports_eq (ht : TargetAt root target.name i t) {ifaces : List FabricIface} (hn : ifaces.Nodup) :
    ∃ root' t' list, getInbXports root target ifaces = (root', { target with fabricIfaceList := list }) ∧
      (∀ iface, iface ∈ list ↔ iface ∈ ifaces) ∧ TargetAt root' target.name i t' ∧
      t'.entries tagInterfaces = (ifaces.filter (fun x => x ∉ target.fabricIfaceList)).map ifaceEntry ∧
      t'.entries tagNsdevs = t.entries tagNsdevs := by
  have hfst : (unmarked target.fabricIfaceList).map Prod.fst = target.fabricIfaceList := by
    simp [unmarked, Function.comp_def]
  have hfresh : ((ifaces.foldl (markOrAdd (fun x y => x == y)) (unmarked target.fabricIfaceList)).drop
      target.fabricIfaceList.length).map Prod.fst = ifaces.filter (fun x => x ∉ target.fabricIfaceList) := by
    rw [List.map_drop, fst_foldl_markOrAdd hn, hfst, List.drop_left]
  obtain ⟨hset, hat, hentries⟩ := ht.setArray tagInterfaces (by decide)
    ((ifaces.filter (fun x => x ∉ target.fabricIfaceList)).map ifaceEntry)
  refine ⟨_, _, _, ?_, mem_marked_ifaces target.fabricIfaceList ifaces, hat, hentries, ?_⟩
  · simp only [getInbXports, hfresh, hset, Option.getD_some]
  · exact Json.entries_objectSet_ne (by decide) t _

/-- What the daemon holds is what a target reported: each device and each interface, in the lists and once in the root. -/
structure InbExact (root : Json) (target : Target) (devs : List Nsdev) (ifaces : List FabricIface) : Prop where
  devices : ∀ dev, dev ∈ target.deviceList ↔ dev ∈ devs
  interfaces : ∀ iface, iface ∈ target.fabricIfaceList ↔ iface ∈ ifaces
  stored : ∃ i t, TargetAt root target.name i t ∧ StoresOnce SpellsNsdev (t.entries tagNsdevs) devs ∧
    StoresOnce SpellsIface (t.entries tagInterfaces) ifaces

/-- Nothing has vanished, no device is new unless it is the only one there ever was, and every interface is new. -/
structure InbFresh (t : Json) (target : Target) (devs : List Nsdev) (ifaces : List FabricIface) : Prop where
  kept : ∀ dev ∈ target.deviceList, dev ∈ devs
  known : ((∀ dev ∈ devs, dev ∈ target.deviceList) ∧ StoresOnce SpellsNsdev (t.entries tagNsdevs) devs) ∨
    (target.deviceList = [] ∧ ∃ dev, devs = [dev])
  fresh : ∀ iface ∈ ifaces, iface ∉ target.fabricIfaceList

theorem StoresOnce.length {α : Type} {R : Json → α → Prop} {entries : List Json} {xs : List α}
    (h : StoresOnce R entries xs) : entries.length = xs.length := by
  obtain ⟨l, hperm, hrel⟩ := h
  rw [hrel.length_eq, hperm.length_eq]

theorem storesOnce_nsdevs_iff {devs : List Nsdev} (hn : devs ≠ []) (hkept : ∀ dev ∈ target.deviceList, dev ∈ devs) :
    StoresOnce SpellsNsdev (((devs.filter (fun d => d ∉ target.deviceList)).getLast?.map (fun d => [nsdevEntry d])).getD
        (t.entries tagNsdevs)) devs ↔
      ((∀ dev ∈ devs, dev ∈ target.deviceList) ∧ StoresOnce SpellsNsdev (t.entries tagNsdevs) devs) ∨
        (target.deviceList = [] ∧ ∃ dev, devs = [dev]) := by
  cases hlast : (devs.filter (fun d => d ∉ target.deviceList)).getLast? with
  | none =>
    have hall : ∀ dev ∈ devs, dev ∈ target.deviceList := by
      simpa [List.filter_eq_nil_iff] using List.getLast?_eq_none_iff.1 hlast
    have hne : target.deviceList ≠ [] := by
      obtain ⟨dev, hdev⟩ := List.exists_mem_of_ne_nil _ hn
      exact List.ne_nil_of_mem (hall dev hdev)
    exact ⟨fun h => Or.inl ⟨hall, h⟩, fun h => (h.resolve_right (fun h => hne h.1)).2⟩
  | some d =>
    have hd : d ∈ devs ∧ d ∉ target.deviceList := by
      simpa using List.mem_filter.1 (List.mem_of_getLast? hlast)
    constructor
    · intro h
      obtain ⟨dev, rfl⟩ := List.length_eq_one_iff.1 h.length.symm
      refine Or.inr ⟨List.eq_nil_iff_forall_not_mem.2 (fun x hx => ?_), dev, rfl⟩
      rw [List.mem_singleton.1 hd.1, ← List.mem_singleton.1 (hkept x hx)] at hd
      exact hd.2 hx
    · rintro (⟨hall, -⟩ | ⟨-, dev, rfl⟩)
      · exact absurd (hall d hd.1) hd.2
      · rw [List.mem_singleton.1 hd.1]
        exact ⟨[dev], .refl _, .cons (spellsNsdev_entry dev) .nil⟩

theorem storesOnce_ifaces_iff {ifaces : List FabricIface} :
    StoresOnce SpellsIface ((ifaces.filter (fun x => x ∉ target.fabricIfaceList)).map ifaceEntry) ifaces ↔
      ∀ iface ∈ ifaces, iface ∉ target.fabricIfaceList := by
  constructor
  · intro h
    have hlen := h.length
    rw [List.length_map, List.length_filter_eq_length_iff] at hlen
    simpa using hlen
  · intro h
    have hall : ifaces.filter (fun x => x ∉ target.fabricIfaceList) = ifaces :=
      List.filter_eq_self.2 (by simpa using h)
    rw [hall]
    exact ⟨ifaces, .refl _, forall₂_entries ifaces⟩

theorem getInbConfig_zero {inv : Inventory} {root' : Json} {target' : Target}
    (h : getInbConfig inv root target = (0, root', target')) (hifaces : inv.inbXports.2 ≠ []) :
    getInbXports (getInbNsdevs root target inv.inbNsdevs.2).1 (getInbNsdevs root target inv.inbNsdevs.2).2 inv.inbXports.2 =
      (root', target') := by
  unfold getInbConfig at h
  split at h
  · exact absurd (congrArg Prod.fst h) einval_ne
  · split at h
    · rename_i hne
      exact absurd (congrArg Prod.fst h) hne
    · split at h
      · rename_i hne
        exact absurd (congrArg Prod.fst h) hne
      · dsimp only at h
        split at h
        · rename_i hne
          exact absurd (congrArg Prod.fst h) hne
        · exact (Prod.mk.inj h).2

theorem TargetAt.unique {name : String} {i' : Nat} {t' : Json} (h : TargetAt root name i t) (h' : TargetAt root name i' t') :
    t' = t := by
  obtain rfl := Option.some.inj (h.first.symm.trans h'.first)
  exact Option.some.inj (h'.get.symm.trans h.get)

/-- When a target that was asked in band is known exactly afterwards. -/
theorem inb_inventory_exact_iff {inv : Inventory} {root' : Json} {target' : Target} (ht : TargetAt root target.name i t)
    (h : getInbConfig inv root target = (0, root', target')) (hdevs : inv.inbNsdevs.2 ≠ []) (hifaces : inv.inbXports.2 ≠ [])
    (hd : (inv.inbNsdevs.2.map inbNsdev).Nodup) (hi : inv.inbXports.2.Nodup) :
    InbExact root' target' (inv.inbNsdevs.2.map inbNsdev) inv.inbXports.2 ↔
      InbFresh t target (inv.inbNsdevs.2.map inbNsdev) inv.inbXports.2 := by
  obtain ⟨root₁, t₁, hnsdevs, ht₁, hstored₁⟩ := getInbNsdevs_eq ht inv.inbNsdevs.2 hd
  have hx := getInbConfig_zero h hifaces
  rw [hnsdevs] at hx
  have hat₁ : TargetAt root₁ { target with deviceList :=
      target.deviceList ++ (inv.inbNsdevs.2.map inbNsdev).filter (fun d => d ∉ target.deviceList) }.name i t₁ := ht₁
  obtain ⟨root₂, t₂, list, hxports, hlist, ht₂, hstored₂, hsame⟩ := getInbXports_eq hat₁ hi
  obtain ⟨rfl, rfl⟩ := Prod.mk.inj (hxports.symm.trans hx)
  have hdevs' : inv.inbNsdevs.2.map inbNsdev ≠ [] := by simpa using hdevs
  generalize inv.inbNsdevs.2.map inbNsdev = devs at *
  have hdev : ∀ dev, dev ∈ target.deviceList ++ devs.filter (fun d => d ∉ target.deviceList) ↔
      dev ∈ target.deviceList ∨ dev ∈ devs := by
    intro dev
    by_cases hmem : dev ∈ target.deviceList
    · simp [hmem]
    · simp [hmem]
  constructor
  · intro hexact
    obtain ⟨i', t', ht', hs, hs'⟩ := hexact.stored
    rw [ht₂.unique ht'] at hs hs'
    rw [hsame, hstored₁] at hs
    rw [hstored₂] at hs'
    have hkept : ∀ dev ∈ target.deviceList, dev ∈ devs :=
      fun dev hmem => (hexact.devices dev).1 ((hdev dev).2 (Or.inl hmem))
    exact ⟨hkept, (storesOnce_nsdevs_iff hdevs' hkept).1 hs, storesOnce_ifaces_iff.1 hs'⟩
  · intro hfresh
    refine ⟨fun dev => ?_, hlist, _, t₂, ht₂, ?_, ?_⟩
    · exact (hdev dev).trans ⟨fun hmem => hmem.elim (hfresh.kept dev) id, Or.inr⟩
    · rw [hsame, hstored₁]
      exact (storesOnce_nsdevs_iff hdevs' hfresh.kept).2 hfresh.known
    · rw [hstored₂]
      exact storesOnce_ifaces_iff.2 hfresh.fresh

end

/-- A target that reports one device and one interface. -/
def oneOfEach : Inventory := { inbNsdevs := (0, [⟨255, 0⟩]), inbXports := (0, [⟨"rdma", "ipv4", "10.0.0.2"⟩]) }

def freshTarget : Target :=
  { ptr := 0, name := "t", inb := { portid := 0, type := "rdma", family := "", address := "", portNum := 0 } }

theorem inb_inventory_of_fresh :
    InbExact (getInbConfig oneOfEach listedRoot freshTarget).2.1 (getInbConfig oneOfEach listedRoot freshTarget).2.2
      [⟨-1, 0⟩] [⟨"rdma", "ipv4", "10.0.0.2"⟩] := by
  have hat : TargetAt listedRoot freshTarget.name 0 listedEntry := listed
  have hrun : getInbConfig oneOfEach listedRoot freshTarget = (0, (getInbConfig oneOfEach listedRoot freshTarget).2) := rfl
  exact (inb_inventory_exact_iff hat hrun (by decide) (by decide) (by decide) (by decide)).2
    ⟨fun _ h => absurd h List.not_mem_nil, Or.inr ⟨rfl, _, rfl⟩, fun _ _ => List.not_mem_nil⟩

/-- A device that is not reported any more stays, of two new devices the root has one, and an interface that was there before is
not in the root. -/
theorem inb_inventory_not_exact :
    ∃ (inv : Inventory) (root : Json) (target : Target) (root' : Json) (target' : Target) (i : Nat) (t t' : Json),
      TargetAt root target.name i t ∧ getInbConfig inv root target = (0, root', target') ∧
      (inv.inbNsdevs.2.map inbNsdev).Nodup ∧ inv.inbXports.2.Nodup ∧ inv.inbNsdevs.2 ≠ [] ∧ inv.inbXports.2 ≠ [] ∧
      ¬InbExact root' target' (inv.inbNsdevs.2.map inbNsdev) inv.inbXports.2 ∧
      ⟨3, 1⟩ ∈ target'.deviceList ∧ ⟨3, 1⟩ ∉ inv.inbNsdevs.2.map inbNsdev ∧
      TargetAt root' target'.name i t' ∧ (t'.entries tagNsdevs).length < inv.inbNsdevs.2.length ∧
      (t'.entries tagInterfaces).length < inv.inbXports.2.length := by
  let inv : Inventory := { inbNsdevs := (0, [⟨1, 1⟩, ⟨2, 1⟩]), inbXports := (0, [⟨"tcp", "ipv4", "10.0.0.1"⟩]) }
  let target : Target := { freshTarget with deviceList := [⟨3, 1⟩], fabricIfaceList := [⟨"tcp", "ipv4", "10.0.0.1"⟩] }
  have hstays : (⟨3, 1⟩ : Nsdev) ∈ (getInbConfig inv listedRoot target).2.2.deviceList := by decide
  have hgone : (⟨3, 1⟩ : Nsdev) ∉ inv.inbNsdevs.2.map inbNsdev := by decide
  refine ⟨inv, listedRoot, target, _, _, 0, listedEntry, _, listed, rfl, by decide, by decide, by decide, by decide, ?_, hstays,
    hgone, ⟨by decide, rfl, by decide⟩, by decide, by decide⟩
  exact fun hexact => hgone ((hexact.devices _).1 hstays)

end NvmeDem
