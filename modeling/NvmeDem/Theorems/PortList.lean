import NvmeDem.Lemmas.Loaded

/-!
# The ports that a load links

A port is linked to its target before its entry is looked at, and an entry that is no good leaves the record linked that was given back. So
the list is what it was after an error only when the error is that there is no memory, and after a load every port comes from an entry that
was taken if and only if every entry was (`rejected_ports_linked_iff`).
-/

namespace NvmeDem

open Jansson

/-- The addition of a port when there is memory for its record, and when there is none. -/
def addPortIfMemory (mem : Bool) (target : Target) (ptr : Nat) (obj : Json) : Except Fault (Int × Target) :=
  if mem then addPortToTarget target ptr obj else .ok (-enomem, target)

/-- An entry that is taken, and the port it makes. -/
def TakenPort (ptr : Nat) (obj : Json) (portid : Portid) : Prop := getTransportInfo obj { ptr := ptr } = .ok (true, portid)

/-- What an entry leaves in the list. -/
def linkedPort (r : Bool × Portid) : Portid := if r.1 then r.2 else { r.2 with freed := true }

def linkPort (x : Json × Nat) : Except Fault (List Portid) :=
  (getTransportInfo x.1 { ptr := x.2 }).map (fun r => [linkedPort r])

section

variable {target target' : Target} {ptr : Nat} {obj iter : Json} {ret : Int} {portid portid' : Portid} {good : Bool}

/-- An entry says nothing about the memory of its port. -/
theorem freed_getTransportInfo (h : getTransportInfo obj portid = .ok (good, portid')) : portid'.freed = portid.freed := by
  unfold getTransportInfo at h
  split at h
  · cases h
    rfl
  · obtain ⟨type, -, h⟩ := bind_eq_ok h
    split at h
    · cases h
      rfl
    · obtain ⟨family, -, h⟩ := bind_eq_ok h
      split at h
      · cases h
        rfl
      · split at h
        · cases h
          rfl
        · cases h
        · obtain ⟨out, -, h⟩ := bind_eq_ok h
          split at h
          · cases h
            rfl
          · cases h
            rfl

/-- A port is linked whatever its entry is, and the return value says whether it is any good. -/
theorem addPortToTarget_cases (h : addPortToTarget target ptr obj = .ok (ret, target')) :
    ∃ r : Bool × Portid, getTransportInfo obj { ptr := ptr } = .ok r ∧ (ret = 0 ↔ r.1 = true) ∧
      target' = { target with portidList := target.portidList ++ [linkedPort r] } := by
  obtain ⟨⟨good, portid⟩, hinfo, h⟩ := bind_eq_ok h
  refine ⟨(good, portid), hinfo, ?_⟩
  dsimp only at h
  cases good with
  | true =>
    cases h
    exact ⟨⟨fun _ => rfl, fun _ => rfl⟩, rfl⟩
  | false =>
    cases h
    exact ⟨⟨fun hret => absurd hret (by decide), fun hgood => absurd hgood Bool.false_ne_true⟩, rfl⟩

/-- The list after an error is the list before only if there was no memory, or no error. -/
theorem addPortIfMemory_list_iff {mem : Bool} (h : addPortIfMemory mem target ptr obj = .ok (ret, target')) :
    (ret ≠ 0 → target'.portidList = target.portidList) ↔ mem = false ∨ ∃ portid, TakenPort ptr obj portid := by
  cases mem with
  | false =>
    cases h
    exact ⟨fun _ => Or.inl rfl, fun _ _ => rfl⟩
  | true =>
    obtain ⟨⟨good, portid⟩, hinfo, hret, rfl⟩ := addPortToTarget_cases h
    constructor
    · intro hlist
      refine Or.inr ⟨portid, ?_⟩
      by_contra htaken
      have hbad : good ≠ true := fun hgood => htaken (by rw [hgood] at hinfo; exact hinfo)
      have hsame := hlist (fun hzero => hbad (hret.mp hzero))
      exact absurd (List.append_right_eq_self.mp hsame) (List.cons_ne_nil _ _)
    · rintro (hmem | ⟨portid', htaken⟩) hne
      · cases hmem
      · obtain ⟨rfl, -⟩ := Prod.mk.inj (Except.ok.inj (hinfo.symm.trans htaken))
        exact absurd (hret.mpr rfl) hne

/-- The loop over the ports of an entry, with a target to add to. -/
theorem addPort_fold (xs : List (Json × Nat)) {t : Target} {tgt : Option Target} (h : xs.foldlM (addPort true) (some t) = .ok tgt) :
    ∃ ports, collect linkPort xs = .ok ports ∧ tgt = some { t with portidList := t.portidList ++ ports } := by
  induction xs generalizing t with
  | nil =>
    obtain rfl := Except.ok.inj h
    exact ⟨[], rfl, by rw [List.append_nil]⟩
  | cons x xs ih =>
    rw [List.foldlM_cons] at h
    obtain ⟨t', hadd, h⟩ := bind_eq_ok h
    obtain ⟨⟨ret, t''⟩, hport, rfl⟩ := map_eq_ok hadd
    obtain ⟨r, hinfo, -, rfl⟩ := addPortToTarget_cases hport
    obtain ⟨ports, hports, rfl⟩ := ih h
    have hlink : linkPort x = .ok [linkedPort r] := by
      unfold linkPort
      rw [hinfo]
      rfl
    exact ⟨linkedPort r :: ports, collect_cons_of_ok hlink hports, by simp⟩

/-- A target is made without ports. -/
theorem addToTargetList_ports {hosts : Option Json} {tgt : Option Target} (h : addToTargetList ptr iter hosts = .ok (tgt, good)) :
    ∀ t, tgt = some t → t.portidList = [] := by
  rintro t rfl
  unfold addToTargetList at h
  split at h
  · cases h
  · obtain ⟨name, -, h⟩ := bind_eq_ok h
    obtain ⟨⟨ok, t'⟩, hsetup, h⟩ := bind_eq_ok h
    have hsame := setupTarget_ok hsetup
    dsimp only at h
    split at h
    · obtain ⟨ss, -, h⟩ := bind_eq_ok h
      cases h
      rw [hsame]
    · cases h
      rw [hsame]

/-- The target of an entry has a port for each of the ports of the entry. -/
theorem loadTarget_ports {hosts : Option Json} {ts : List Target} (h : loadTarget hosts ptr iter = .ok ts) :
    ∃ ports, collect linkPort (iter.entries tagPortids).zipIdx = .ok ports ∧ (∀ t ∈ ts, t.portidList = ports) ∧
      (ports ≠ [] → ts ≠ []) := by
  obtain ⟨⟨tgt, good⟩, hadd, h⟩ := bind_eq_ok h
  obtain ⟨tgt', hports, h⟩ := bind_eq_ok h
  obtain rfl := Except.ok.inj h
  have hempty := addToTargetList_ports hadd
  have hnil : tgt' = tgt → (iter.entries tagPortids).zipIdx = [] → ∃ ports,
      collect linkPort (iter.entries tagPortids).zipIdx = .ok ports ∧ (∀ t ∈ tgt'.toList, t.portidList = ports) ∧
        (ports ≠ [] → tgt'.toList ≠ []) := by
    rintro rfl hzip
    rw [hzip]
    exact ⟨[], rfl, fun t ht => hempty t (Option.mem_toList.mp ht), fun hne => absurd rfl hne⟩
  unfold addPorts at hports
  cases hlist : iter.objectGet tagPortids with
  | none =>
    rw [hlist] at hports
    exact hnil (Except.ok.inj hports).symm (by simp [Json.entries, hlist])
  | some list =>
    rw [hlist] at hports
    dsimp only at hports
    rw [entries_of_objectGet hlist] at hnil ⊢
    cases hzip : list.elems.zipIdx with
    | nil =>
      rw [hzip] at hports hnil
      exact hnil (Except.ok.inj hports).symm rfl
    | cons x xs =>
      rw [hzip] at hports
      rcases tgt with _ | t
      · cases hports
      · cases good with
        | false => cases hports
        | true =>
          obtain ⟨ports, hcollect, rfl⟩ := addPort_fold _ hports
          refine ⟨ports, hcollect, fun t' ht' => ?_, fun _ => List.cons_ne_nil _ _⟩
          obtain rfl := List.mem_singleton.mp ht'
          rw [hempty t rfl, List.nil_append]

/-- A record that was given back is not one that was made from an entry that was taken. -/
theorem taken_of_linked {xs : List (Json × Nat)} {ports : List Portid} (h : collect linkPort xs = .ok ports)
    (hfrom : ∀ p ∈ ports, ∃ ptr obj, TakenPort ptr obj p) : ∀ x ∈ xs, ∃ p, TakenPort x.2 x.1 p := by
  intro x hx
  obtain ⟨zs, hlink⟩ := collect_each h hx
  obtain ⟨⟨good, portid⟩, hinfo, rfl⟩ := map_eq_ok hlink
  obtain ⟨ptr, obj, htaken⟩ := hfrom _ (mem_collect_of_mem h hx hlink (List.mem_singleton.mpr rfl))
  have hfree := freed_getTransportInfo htaken
  cases good with
  | true => exact ⟨portid, hinfo⟩
  | false => cases hfree

theorem linked_of_taken {xs : List (Json × Nat)} {ports : List Portid} (h : collect linkPort xs = .ok ports)
    (hall : ∀ x ∈ xs, ∃ p, TakenPort x.2 x.1 p) : ∀ p ∈ ports, ∃ x ∈ xs, TakenPort x.2 x.1 p := by
  intro p hp
  obtain ⟨x, hx, zs, hlink, hmem⟩ := mem_collect h hp
  obtain ⟨r, hinfo, rfl⟩ := map_eq_ok hlink
  obtain ⟨p', htaken⟩ := hall x hx
  obtain rfl := Except.ok.inj (hinfo.symm.trans htaken)
  obtain rfl := List.mem_singleton.mp hmem
  exact ⟨x, hx, htaken⟩

end

/-- A port in the list of a target comes from an entry of the root that was taken. -/
def FromTaken (root : Json) (p : Portid) : Prop :=
  ∃ iter ∈ root.entries tagTargets, ∃ x ∈ (iter.entries tagPortids).zipIdx, TakenPort x.2 x.1 p

theorem buildTargetList_ports_iff {root : Json} {targets : List Target} (h : buildTargetList root = .ok targets) :
    (∀ t ∈ targets, ∀ p ∈ t.portidList, FromTaken root p) ↔
      ∀ iter ∈ root.entries tagTargets, ∀ x ∈ (iter.entries tagPortids).zipIdx, ∃ p, TakenPort x.2 x.1 p := by
  unfold buildTargetList at h
  unfold FromTaken
  cases harray : root.objectGet tagTargets with
  | none =>
    rw [harray] at h
    obtain rfl := Except.ok.inj h
    have hnone : root.entries tagTargets = [] := by simp [Json.entries, harray]
    rw [hnone]
    exact ⟨fun _ iter hiter => absurd hiter List.not_mem_nil, fun _ t ht => absurd ht List.not_mem_nil⟩
  | some array =>
    rw [harray] at h
    dsimp only at h
    rw [entries_of_objectGet harray]
    constructor
    · intro htaken iter hiter
      obtain ⟨i, hi⟩ := List.getElem?_of_mem hiter
      have hplace : (iter, i) ∈ array.elems.zipIdx := List.mk_mem_zipIdx_iff_getElem?.mpr hi
      obtain ⟨ts, hload⟩ := collect_each h hplace
      obtain ⟨ports, hports, hsame, hne⟩ := loadTarget_ports hload
      refine taken_of_linked hports (fun p hp => ?_)
      obtain ⟨t, ht⟩ := List.exists_mem_of_ne_nil ts (hne (List.ne_nil_of_mem hp))
      rw [← hsame t ht] at hp
      obtain ⟨-, -, x, -, hfrom⟩ := htaken t (mem_collect_of_mem h hplace hload ht) p hp
      exact ⟨x.2, x.1, hfrom⟩
    · intro hall t ht p hp
      obtain ⟨⟨iter, i⟩, hiter, zs, hload, hmem⟩ := mem_collect h ht
      have hentry := List.fst_mem_of_mem_zipIdx hiter
      obtain ⟨ports, hports, hsame, -⟩ := loadTarget_ports hload
      rw [hsame t hmem] at hp
      obtain ⟨x, hx, htaken⟩ := linked_of_taken hports (hall iter hentry) p hp
      exact ⟨iter, hentry, x, hx, htaken⟩

/-- A call leaves the list alone when it fails if and only if there is no memory or the entry is taken; and after a load all ports come
from entries that were taken if and only if all entries were taken. -/
theorem rejected_ports_linked_iff {mem : Bool} {target target' : Target} {ptr : Nat} {obj root : Json} {ret : Int} {targets : List Target}
    (hcall : addPortIfMemory mem target ptr obj = .ok (ret, target')) (hload : buildTargetList root = .ok targets) :
    ((ret ≠ 0 → target'.portidList = target.portidList) ↔ mem = false ∨ ∃ portid, TakenPort ptr obj portid) ∧
      ((∀ t ∈ targets, ∀ p ∈ t.portidList, FromTaken root p) ↔
        ∀ iter ∈ root.entries tagTargets, ∀ x ∈ (iter.entries tagPortids).zipIdx, ∃ p, TakenPort x.2 x.1 p) :=
  ⟨addPortIfMemory_list_iff hcall, buildTargetList_ports_iff hload⟩

def ipv4Entry (portid : Int) : Json :=
  .object [(tagPortid, .integer portid), (tagType, .string "rdma"), (tagFamily, .string "ipv4"), (tagAddress, .string "10.0.0.1")]

/-- An entry without a type. -/
def typelessEntry (portid : Int) : Json := .object [(tagPortid, .integer portid)]

def entriesRoot (ports : List Json) : Json :=
  .object [(tagTargets, .array [.object [(tagAlias, .string "t"), (tagPortids, .array ports)]])]

/-- The entry between two others leaves a record in the list that was given back. -/
theorem typeless_linked :
    (∃ target : Target, addPortIfMemory true { ptr := 0, name := "t" } 7 (typelessEntry 2) = .ok (-einval, target) ∧
        target.portidList ≠ []) ∧
      ∃ targets : List Target, buildTargetList (entriesRoot [ipv4Entry 1, typelessEntry 2, ipv4Entry 3]) = .ok targets ∧
        ∃ t ∈ targets, ∃ p ∈ t.portidList, ¬FromTaken (entriesRoot [ipv4Entry 1, typelessEntry 2, ipv4Entry 3]) p := by
  refine ⟨⟨_, rfl, List.cons_ne_nil _ _⟩, _, rfl, _, List.mem_singleton.mpr rfl, _, List.mem_cons_of_mem _ List.mem_cons_self, ?_⟩
  rintro ⟨iter, -, x, -, htaken⟩
  have hfree := freed_getTransportInfo htaken
  cases hfree

theorem ipv4_ports_taken :
    (∃ target : Target, addPortIfMemory false { ptr := 0, name := "t" } 7 (ipv4Entry 1) = .ok (-enomem, target) ∧
        target.portidList = []) ∧
      ∃ targets : List Target, buildTargetList (entriesRoot [ipv4Entry 1, ipv4Entry 3]) = .ok targets ∧
        ∀ t ∈ targets, ∀ p ∈ t.portidList, FromTaken (entriesRoot [ipv4Entry 1, ipv4Entry 3]) p := by
  have hports := @rejected_ports_linked_iff false { ptr := 0, name := "t" } _ 7 (ipv4Entry 1) (entriesRoot [ipv4Entry 1, ipv4Entry 3]) _ _
    rfl rfl
  refine ⟨⟨_, rfl, hports.1.mpr (Or.inl rfl) (by decide)⟩, _, rfl, hports.2.mpr (fun iter hiter x hx => ?_)⟩
  obtain rfl := List.mem_singleton.mp hiter
  rcases List.mem_cons.mp hx with rfl | hx
  · exact ⟨_, rfl⟩
  · obtain rfl := List.mem_singleton.mp hx
    exact ⟨_, rfl⟩

end NvmeDem
