import Mathlib
import NvmeDem.Endpoint.Configfs
import NvmeDem.Lemmas.Nvmet
import NvmeDem.Lemmas.Reconfig

/-!
# A configuration, as the kernel shows it

Each item of a configuration is a node of the tree (`Item.node`); items with one key are at one place. A tree shows a configuration when
its nodes are those of the items (`Shows`). A change of the configuration is one of the tree (`Change.Made`, `shows_iff_made`), and what an
operation has to find for it to come about is `OpsCall.TakesEffect`.
-/

namespace NvmeDem

open Nvmet Configfs Upsert

/-! ## Items as nodes -/

/-- The attributes that a port is to have. -/
def portAttrs (fam typ : String) (treq : Int) (addr : String) (svcid : Int) : PortAttrs :=
  { adrfam := fam, trtype := typ, traddr := addr, treq := treqStr treq, trsvcid := toString svcid }

def Item.node : Item → Node
  | .port portid fam typ treq addr svcid => .port (toString portid) (portAttrs fam typ treq addr svcid)
  | .subsys nqn allowany => .subsys nqn allowany
  | .ns subnqn nsid devid devnsid => .ns subnqn (toString nsid) (devicePath devid devnsid) true
  | .host nqn => .host nqn
  | .hostLink subnqn hostnqn => .allowed subnqn hostnqn
  | .portLink subnqn portid => .portLink (toString portid) subnqn

/-- The places that go with what is deleted. -/
def Deleted.clears : Deleted → Place → Bool
  | .port id, .port name => name == toString id
  | .port id, .portLink name _ => name == toString id
  | .subsys nqn, .subsys subnqn => subnqn == nqn
  | .subsys nqn, .ns subnqn _ => subnqn == nqn
  | .subsys nqn, .allowed subnqn _ => subnqn == nqn
  | .subsys nqn, .portLink _ subnqn => subnqn == nqn
  | .ns nqn id, .ns subnqn name => subnqn == nqn && name == toString id
  | .host nqn, .host hostnqn => hostnqn == nqn
  | .hostLink nqn name, .allowed subnqn hostnqn => subnqn == nqn && hostnqn == name
  | .portLink nqn id, .portLink name subnqn => subnqn == nqn && name == toString id
  | _, _ => false

theorem place_node_eq_iff {a b : Item} : a.node.place = b.node.place ↔ a.key = b.key := by
  cases a <;> cases b <;> simp [Item.node, Node.place, Item.key, and_comm]

theorem clears_node (d : Deleted) (a : Item) : d.clears a.node.place = d.takes a := by
  have hbeq : ∀ m n : Int, (m.repr == n.repr) = (m == n) := by
    intro m n
    rw [Bool.eq_iff_iff, beq_iff_eq, beq_iff_eq, Int.repr_inj]
  cases d <;> cases a <;> simp [Item.node, Node.place, Deleted.clears, Deleted.takes, hbeq]

/-! ## Trees and configurations -/

def Shows (t : Tree) (config : Finset Item) : Prop := ∀ node, node ∈ t ↔ ∃ item ∈ config, item.node = node

/-- A change, on the tree. -/
def Change.Made (t t' : Tree) : Change → Prop
  | .reset => t' = []
  | .put item => ∀ x, x ∈ t' ↔ x = item.node ∨ (x ∈ t ∧ x.place ≠ item.node.place)
  | .delete deleted => ∀ x, x ∈ t' ↔ x ∈ t ∧ deleted.clears x.place = false

variable {k : Kernel} {t t' : Tree} {config : Finset Item} {x node : Node} {p : Place} {item : Item}

theorem shows_nil : Shows [] ∅ := by simp [Shows]

/-- A tree that shows a configuration goes on to show it if the change is made to both. -/
theorem shows_iff_made (h : Shows t config) (change : Change) : Shows t' (applyChange config change) ↔ change.Made t t' := by
  cases change with
  | reset => simp [Shows, applyChange, Change.Made, List.eq_nil_iff_forall_not_mem]
  | put item =>
    refine forall_congr' (fun x => iff_congr Iff.rfl ?_)
    constructor
    · rintro ⟨b, hb, rfl⟩
      rcases mem_upsert.mp hb with rfl | ⟨hb, hne⟩
      · exact Or.inl rfl
      · exact Or.inr ⟨(h _).mpr ⟨b, hb, rfl⟩, fun he => hne (place_node_eq_iff.mp he)⟩
    · rintro (rfl | ⟨hx, hne⟩)
      · exact ⟨item, mem_upsert.mpr (Or.inl rfl), rfl⟩
      · obtain ⟨b, hb, rfl⟩ := (h x).mp hx
        exact ⟨b, mem_upsert.mpr (Or.inr ⟨hb, fun he => hne (place_node_eq_iff.mpr he)⟩), rfl⟩
  | delete d =>
    refine forall_congr' (fun x => iff_congr Iff.rfl ?_)
    constructor
    · rintro ⟨b, hb, rfl⟩
      obtain ⟨hb, hd⟩ := Finset.mem_filter.mp hb
      exact ⟨(h _).mpr ⟨b, hb, rfl⟩, by rw [clears_node, hd]⟩
    · rintro ⟨hx, hd⟩
      obtain ⟨b, hb, rfl⟩ := (h x).mp hx
      exact ⟨b, Finset.mem_filter.mpr ⟨hb, by rw [← clears_node, hd]⟩, rfl⟩

/-! ## Writing a node -/

/-- A tree that is left as it is has the node already. -/
theorem made_self_iff (h : Wf t) : (Change.put item).Made t t ↔ item.node ∈ t := by
  constructor
  · exact fun hm => (hm _).mpr (Or.inl rfl)
  · intro hin x
    constructor
    · intro hx
      by_cases hp : x.place = item.node.place
      · exact Or.inl (h.eq_of_place hx hin hp)
      · exact Or.inr ⟨hx, hp⟩
    · rintro (rfl | ⟨hx, -⟩)
      · exact hin
      · exact hx

theorem made_append_iff (hnew : has t node.place = false) (hp : node.place = item.node.place) :
    (Change.put item).Made t (t ++ [node]) ↔ node = item.node := by
  have hne : ∀ x ∈ t, x.place ≠ item.node.place := fun x hx => by
    rw [← hp]
    exact has_eq_false_iff.mp hnew x hx
  constructor
  · intro hm
    rcases List.mem_append.mp ((hm item.node).mpr (Or.inl rfl)) with hx | hx
    · exact absurd rfl (hne _ hx)
    · exact (List.mem_singleton.mp hx).symm
  · rintro rfl x
    rw [List.mem_append, List.mem_singleton, or_comm]
    exact or_congr_right ⟨fun hx => ⟨hx, hne x hx⟩, And.left⟩

theorem made_update_iff (h : Wf t) {f : Node → Node} (hf : ∀ y : Node, y.place = p → (f y).place = p) (hp : item.node.place = p) :
    (Change.put item).Made t (update t p f) ↔ ∃ y ∈ t, y.place = p ∧ f y = item.node := by
  subst hp
  constructor
  · intro hm
    rcases mem_update.mp ((hm item.node).mpr (Or.inl rfl)) with hy | ⟨-, hne⟩
    · exact hy
    · exact absurd rfl hne
  · rintro ⟨y, hy, hpy, he⟩ x
    rw [mem_update]
    refine or_congr_left ⟨?_, ?_⟩
    · rintro ⟨z, hz, hpz, rfl⟩
      rw [h.eq_of_place hz hy (hpz.trans hpy.symm), he]
    · rintro rfl
      exact ⟨y, hy, hpy, he⟩

/-- What is new is changed where it was put. -/
theorem update_append {f : Node → Node} (hnew : has t node.place = false) :
    update (t ++ [node]) node.place f = t ++ [f node] := by
  unfold update
  rw [List.map_append, List.map_singleton, if_pos rfl]
  congr 1
  refine (List.map_congr_left (fun y hy => ?_)).trans (List.map_id t)
  exact if_neg (has_eq_false_iff.mp hnew y hy)

/-! ## Deleting -/

section

variable {nqn name : String}

theorem mem_foldl_unlink {place : String → Place} {names : List String} :
    x ∈ names.foldl (fun t name => (unlink t (place name)).2) t ↔ x ∈ t ∧ ∀ name ∈ names, place name ≠ x.place := by
  rw [foldl_unlink, mem_foldl_remove]
  simp

theorem mem_deleteAllAllowedHosts : x ∈ deleteAllAllowedHosts t nqn ↔ x ∈ t ∧ ∀ host, x ≠ .allowed nqn host := by
  unfold deleteAllAllowedHosts
  rw [mem_foldl_unlink]
  refine and_congr_right fun hx => ⟨fun h host he => ?_, fun h host _ he => ?_⟩
  · subst he
    exact h host (List.mem_filterMap.mpr ⟨_, hx, by simp [Node.allowedOf]⟩) rfl
  · cases x <;> cases he
    exact h host rfl

theorem mem_deleteAllNs : x ∈ deleteAllNs k t nqn ↔ x ∈ t ∧ ∀ name, x.place ≠ .ns nqn name := by
  have hstep : deleteAllNs k t nqn = ((t.filterMap (Node.nsOf nqn)).map (Place.ns nqn)).foldl remove t := by
    unfold deleteAllNs
    rw [List.foldl_map]
    exact congrArg (fun f => List.foldl f t _) (funext fun t => funext fun name => rmdir_writeEnable false)
  rw [hstep, mem_foldl_remove, List.mem_map]
  refine and_congr_right fun hx => ⟨fun h name he => h ?_, fun h => ?_⟩
  · refine ⟨name, List.mem_filterMap.mpr ⟨x, hx, ?_⟩, he.symm⟩
    cases x <;> cases he
    simp [Node.nsOf]
  · rintro ⟨name, -, he⟩
    exact h name he.symm

theorem wf_deleteAllAllowedHosts (h : Wf t) (nqn : String) : Wf (deleteAllAllowedHosts t nqn) :=
  h.foldl (fun _ _ ht => ht.unlink (by simp [Place.target])) _

theorem wf_deleteAllNs (h : Wf t) (nqn : String) : Wf (deleteAllNs k t nqn) :=
  h.foldl (fun _ _ ht => (ht.writeEnable _ _ _).rmdir _) _

/-- A port that a link is in is looked through. -/
theorem mem_unlinkAllPorts (h : Wf t) : x ∈ unlinkAllPorts t nqn ↔ x ∈ t ∧ ∀ name, x ≠ .portLink name nqn := by
  have hstep : unlinkAllPorts t nqn = (t.filterMap Node.portName).foldl (fun t name => (unlink t (.portLink name nqn)).2) t := by
    refine congrArg (fun f => List.foldl f t _) (funext fun t => funext fun name => ?_)
    by_cases hhas : has t (.portLink name nqn) = true
    · rw [if_pos hhas]
    · rw [if_neg hhas, unlink_snd, remove_of_not_has (Bool.eq_false_iff.mpr hhas)]
  rw [hstep, mem_foldl_unlink]
  refine and_congr_right fun hx => ⟨fun hno name he => ?_, fun hno name _ he => ?_⟩
  · subst he
    obtain ⟨attrs, hport⟩ := has_port_iff.mp (h.parent _ hx _ rfl)
    exact hno name (List.mem_filterMap.mpr ⟨_, hport, rfl⟩) rfl
  · cases x <;> cases he
    exact hno name rfl

theorem wf_unlinkAllPorts (h : Wf t) (nqn : String) : Wf (unlinkAllPorts t nqn) := by
  refine h.foldl (fun t name ht => ?_) _
  split
  · exact ht.unlink (by simp [Place.target])
  · exact ht

theorem wf_deleteSubsysIn (h : Wf t) (nqn : String) : Wf (deleteSubsysIn k t nqn) := by
  unfold deleteSubsysIn
  split
  · exact (wf_unlinkAllPorts (wf_deleteAllNs (wf_deleteAllAllowedHosts h nqn) nqn) nqn).rmdir _
  · exact h

/-- With a subsystem goes what is in it and what is linked to it. -/
theorem mem_deleteSubsysIn (h : Wf t) :
    x ∈ deleteSubsysIn k t nqn ↔ x ∈ t ∧ (Deleted.subsys nqn).clears x.place = false := by
  unfold deleteSubsysIn
  by_cases hhas : has t (.subsys nqn) = true
  · have hleft : ∀ y, y ∈ unlinkAllPorts (deleteAllNs k (deleteAllAllowedHosts t nqn) nqn) nqn ↔
        y ∈ t ∧ (y.place = .subsys nqn ∨ (Deleted.subsys nqn).clears y.place = false) := by
      intro y
      rw [mem_unlinkAllPorts (wf_deleteAllNs (wf_deleteAllAllowedHosts h nqn) nqn), mem_deleteAllNs, mem_deleteAllAllowedHosts,
        and_assoc, and_assoc]
      refine and_congr_right fun _ => ?_
      cases y <;> simp [Node.place, Deleted.clears]
      exact Classical.em _
    rw [if_pos hhas, rmdir_of_free, mem_remove, hleft, and_assoc]
    · refine and_congr_right fun _ => ⟨fun hx => hx.1.resolve_left hx.2, fun hx => ⟨Or.inr hx, fun he => ?_⟩⟩
      rw [he] at hx
      simp [Deleted.clears] at hx
    · intro y hy
      obtain ⟨-, hy⟩ := (hleft y).mp hy
      cases y <;> simp_all [Node.place, Deleted.clears, Place.holds, Place.parent, Place.target]
  · rw [if_neg hhas]
    refine (and_iff_left_of_imp fun hx => Bool.eq_false_iff.mpr fun hd => hhas ?_).symm
    cases x with
    | subsys subnqn _ =>
      obtain rfl : subnqn = nqn := by simpa [Node.place, Deleted.clears] using hd
      exact has_of_mem hx
    | ns subnqn _ _ _ =>
      obtain rfl : subnqn = nqn := by simpa [Node.place, Deleted.clears] using hd
      exact h.parent _ hx _ rfl
    | allowed subnqn _ =>
      obtain rfl : subnqn = nqn := by simpa [Node.place, Deleted.clears] using hd
      exact h.parent _ hx _ rfl
    | portLink _ subnqn =>
      obtain rfl : subnqn = nqn := by simpa [Node.place, Deleted.clears] using hd
      exact h.target _ hx _ rfl
    | host _ => cases hd
    | port _ _ => cases hd

theorem wf_deletePortidIn (h : Wf t) (name : String) : Wf (deletePortidIn t name) := by
  unfold deletePortidIn
  split
  · exact (h.foldl (fun _ _ ht => ht.unlink (by simp [Place.target])) _).rmdir _
  · exact h

/-- With a port go the links in it. -/
theorem mem_deletePortidIn (h : Wf t) (id : Int) :
    x ∈ deletePortidIn t (toString id) ↔ x ∈ t ∧ (Deleted.port id).clears x.place = false := by
  unfold deletePortidIn
  by_cases hhas : has t (.port (toString id)) = true
  · have hleft : ∀ y, y ∈ (t.filterMap (Node.linkOf (toString id))).foldl
          (fun t nqn => (unlink t (.portLink (toString id) nqn)).2) t ↔
        y ∈ t ∧ ∀ nqn, y ≠ .portLink (toString id) nqn := by
      intro y
      rw [mem_foldl_unlink]
      refine and_congr_right fun hy => ⟨fun hno nqn he => ?_, fun hno nqn _ he => ?_⟩
      · subst he
        exact hno nqn (List.mem_filterMap.mpr ⟨_, hy, by simp [Node.linkOf]⟩) rfl
      · cases y <;> cases he
        exact hno nqn rfl
    rw [if_pos hhas, rmdir_of_free, mem_remove, hleft, and_assoc]
    · refine and_congr_right fun _ => ?_
      cases x <;> simp [Node.place, Deleted.clears]
    · intro y hy
      obtain ⟨-, hy⟩ := (hleft y).mp hy
      cases y <;> simp_all [Node.place, Place.holds, Place.parent, Place.target]
  · rw [if_neg hhas]
    refine (and_iff_left_of_imp fun hx => Bool.eq_false_iff.mpr fun hd => hhas ?_).symm
    cases x with
    | port name _ =>
      obtain rfl : name = toString id := by simpa [Node.place, Deleted.clears] using hd
      exact has_of_mem hx
    | portLink name _ =>
      obtain rfl : name = toString id := by simpa [Node.place, Deleted.clears] using hd
      exact h.parent _ hx _ rfl
    | subsys _ _ => cases hd
    | ns _ _ _ _ => cases hd
    | allowed _ _ => cases hd
    | host _ => cases hd

/-- A host that a subsystem allows stays. -/
theorem deleteHostIn_of_linked {host : String} (hlink : Node.allowed nqn host ∈ t) : deleteHostIn t host = t := by
  have hany : t.any (fun node => node.place.holds (.host host)) = true :=
    List.any_eq_true.mpr ⟨_, hlink, by simp [Node.place, Place.holds, Place.target]⟩
  unfold deleteHostIn rmdir
  rw [hany]
  by_cases hhas : has t (.host host) = true <;> simp [hhas]

theorem deleteHostIn_of_free {host : String} (hno : ∀ nqn, Node.allowed nqn host ∉ t) :
    deleteHostIn t host = remove t (.host host) := by
  refine rmdir_of_free (fun y hy => ?_)
  cases y with
  | allowed nqn name =>
    have hne : name ≠ host := fun he => hno nqn (he ▸ hy)
    simp [Node.place, Place.holds, Place.parent, Place.target, hne]
  | _ => simp [Node.place, Place.holds, Place.parent, Place.target]

end

/-! ## Paths -/

def PathFits (path : String) : Prop := path.length < maxPathLen

instance (path : String) : Decidable (PathFits path) := inferInstanceAs (Decidable (_ < _))

theorem sprintf_eq (path : String) : sprintf path = if PathFits path then .ok () else .error .outOfBounds := rfl

/-- The paths that a call makes. -/
def OpsCall.PathsFit (t : Tree) : OpsCall → Prop
  | .resetConfig => ∀ nqn ∈ t.filterMap Node.subsysName, PathFits (cfsPath ++ cfsSubsys ++ nqn)
  | .deleteSubsys subsys => PathFits (cfsPath ++ cfsSubsys ++ subsys)
  | .createNs subsys nsid _ _ => PathFits s!"{subsys}/{cfsNs}{nsid}"
  | .deleteNs subsys nsid => PathFits s!"{subsys}/{cfsNs}{nsid}"
  | .linkHostToSubsys subsys host => PathFits (cfsPath ++ cfsHosts ++ host) ∧ PathFits s!"{subsys}/{cfsAllowed}{host}"
  | .unlinkHostFromSubsys subsys host => PathFits s!"{subsys}/{cfsAllowed}{host}"
  | .linkPortToSubsys subsys portid => PathFits (cfsPath ++ cfsSubsys ++ subsys) ∧ PathFits s!"{portid}/{cfsSubsys}{subsys}"
  | .unlinkPortFromSubsys subsys portid => PathFits s!"{portid}/{cfsSubsys}{subsys}"
  | _ => True

/-! ## A reset -/

/-- A port whose name is not the number that it is read as. -/
def Nvmet.Node.stray : Node → Bool
  | .port name _ => toString (atoi name.toList) != name
  | _ => false

section

variable (h : Wf t)

include h

theorem wf_mem_deleteSubsyss (nqns : List String) :
    Wf (nqns.foldl (deleteSubsysIn k) t) ∧ ∀ x, x ∈ nqns.foldl (deleteSubsysIn k) t ↔
      x ∈ t ∧ ∀ nqn ∈ nqns, (Deleted.subsys nqn).clears x.place = false := by
  induction nqns generalizing t with
  | nil => exact ⟨h, by simp⟩
  | cons nqn nqns ih =>
    obtain ⟨hwf, hmem⟩ := ih (wf_deleteSubsysIn h nqn)
    refine ⟨hwf, fun x => (hmem x).trans ?_⟩
    rw [mem_deleteSubsysIn h, List.forall_mem_cons, and_assoc]

theorem wf_mem_deletePortids (ids : List Int) :
    Wf (ids.foldl (fun t id => deletePortidIn t (toString id)) t) ∧
      ∀ x, x ∈ ids.foldl (fun t id => deletePortidIn t (toString id)) t ↔
        x ∈ t ∧ ∀ id ∈ ids, (Deleted.port id).clears x.place = false := by
  induction ids generalizing t with
  | nil => exact ⟨h, by simp⟩
  | cons id ids ih =>
    obtain ⟨hwf, hmem⟩ := ih (wf_deletePortidIn h (toString id))
    refine ⟨hwf, fun x => (hmem x).trans ?_⟩
    rw [mem_deletePortidIn h, List.forall_mem_cons, and_assoc]

end

/-- Without links every host goes. -/
theorem mem_deleteHosts (hno : ∀ nqn host, Node.allowed nqn host ∉ t) (hosts : List String) :
    x ∈ hosts.foldl deleteHostIn t ↔ x ∈ t ∧ ∀ host ∈ hosts, x.place ≠ .host host := by
  induction hosts generalizing t with
  | nil => simp
  | cons host hosts ih =>
    rw [List.foldl_cons, deleteHostIn_of_free (fun nqn => hno nqn host), ih (fun nqn name hin => hno nqn name (mem_remove.mp hin).1),
      mem_remove, List.forall_mem_cons, and_assoc]

theorem ok_bind {α β : Type} {x : Except Fault α} {a : α} {f : α → Except Fault β} (h : x = .ok a) : (x >>= f) = f a := by
  rw [h]
  rfl

theorem foldlM_ok {α β : Type} {f : β → α → Except Fault β} {g : β → α → β} {as : List α} (b : β)
    (h : ∀ b, ∀ a ∈ as, f b a = .ok (g b a)) : as.foldlM f b = .ok (as.foldl g b) := by
  induction as generalizing b with
  | nil => rfl
  | cons a as ih =>
    rw [List.foldlM_cons, h b a List.mem_cons_self]
    exact ih (g b a) (fun b a' ha => h b a' (List.mem_cons_of_mem a ha))

theorem foldlM_error {α β : Type} {f : β → α → Except Fault β} {e : Fault} {as : List α} (b : β)
    (h : ∀ b, ∀ a ∈ as, f b a = .error e ∨ ∃ b', f b a = .ok b') (hbad : ∃ a ∈ as, ∀ b, f b a = .error e) :
    as.foldlM f b = .error e := by
  induction as generalizing b with
  | nil => simp at hbad
  | cons a as ih =>
    rw [List.foldlM_cons]
    rcases h b a List.mem_cons_self with he | ⟨b', hb⟩
    · rw [he]
      rfl
    · rw [hb]
      refine ih b' (fun b a' ha => h b a' (List.mem_cons_of_mem a ha)) ?_
      obtain ⟨a', ha', hbad⟩ := hbad
      rcases List.mem_cons.mp ha' with rfl | ha'
      · rw [hbad b] at hb
        cases hb
      · exact ⟨a', ha', hbad⟩

/-- A reset leaves the ports that it does not find by number, and nothing in them. -/
theorem resetConfig_mem (h : Wf t) (hk : k.loaded = true) (hp : OpsCall.resetConfig.PathsFit t) :
    ∃ t', Configfs.resetConfig k t = .ok (0, t') ∧ ∀ x, x ∈ t' ↔ x ∈ t ∧ x.stray = true := by
  have hsub : ∀ t₀ : Tree, ∀ nqn ∈ t.filterMap Node.subsysName,
      (Configfs.deleteSubsys k t₀ nqn).map Prod.snd = .ok (deleteSubsysIn k t₀ nqn) := by
    intro t₀ nqn hnqn
    simp only [Configfs.deleteSubsys, sprintf_eq, if_pos (hp nqn hnqn), hk, if_true]
    rfl
  obtain ⟨hwf₁, hmem₁⟩ := wf_mem_deleteSubsyss (k := k) h (t.filterMap Node.subsysName)
  generalize ht₁ : (t.filterMap Node.subsysName).foldl (deleteSubsysIn k) t = t₁ at hwf₁ hmem₁
  have hport : ∀ t₀ : Tree, ∀ name ∈ t₁.filterMap Node.portName,
      (Configfs.deletePortid k t₀ (atoi name.toList)).map Prod.snd = .ok (deletePortidIn t₀ (toString (atoi name.toList))) := by
    intro t₀ name _
    simp only [Configfs.deletePortid, hk, if_true]
    rfl
  obtain ⟨hwf₂, hmem₂⟩ := wf_mem_deletePortids hwf₁ ((t₁.filterMap Node.portName).map (fun name : String => atoi name.toList))
  rw [List.foldl_map] at hwf₂ hmem₂
  generalize ht₂ : (t₁.filterMap Node.portName).foldl (fun t (name : String) => deletePortidIn t (toString (atoi name.toList))) t₁ = t₂
    at hwf₂ hmem₂
  have hhost : ∀ t₀ : Tree, ∀ host ∈ t₂.filterMap Node.hostName,
      (Configfs.deleteHost k t₀ host).map Prod.snd = .ok (deleteHostIn t₀ host) := by
    intro t₀ host _
    simp only [Configfs.deleteHost, hk, if_true]
    rfl
  refine ⟨(t₂.filterMap Node.hostName).foldl deleteHostIn t₂, ?_, ?_⟩
  · unfold Configfs.resetConfig
    simp only [hk, Bool.not_true, Bool.false_eq_true, if_false]
    refine (ok_bind (foldlM_ok t hsub)).trans ?_
    rw [ht₁]
    refine (ok_bind (foldlM_ok t₁ hport)).trans ?_
    rw [ht₂]
    exact ok_bind (foldlM_ok t₂ hhost)
  -- With the subsystems everything went but ports and hosts.
  have hleft : ∀ x, x ∈ t₁ ↔ x ∈ t ∧ (x.portName ≠ none ∨ x.hostName ≠ none) := by
    intro x
    rw [hmem₁]
    refine and_congr_right fun hx => ?_
    have hin : ∀ nqn, has t (.subsys nqn) = true → nqn ∈ t.filterMap Node.subsysName := by
      intro nqn hhas
      obtain ⟨_, hs⟩ := has_subsys_iff.mp hhas
      exact List.mem_filterMap.mpr ⟨_, hs, rfl⟩
    cases x with
    | subsys nqn _ => simpa [Node.portName, Node.hostName, Node.place, Deleted.clears] using hin nqn (has_of_mem hx)
    | ns nqn _ _ _ => simpa [Node.portName, Node.hostName, Node.place, Deleted.clears] using hin nqn (h.parent _ hx _ rfl)
    | allowed nqn _ => simpa [Node.portName, Node.hostName, Node.place, Deleted.clears] using hin nqn (h.parent _ hx _ rfl)
    | portLink _ nqn => simpa [Node.portName, Node.hostName, Node.place, Deleted.clears] using hin nqn (h.target _ hx _ rfl)
    | host _ => simp [Node.portName, Node.hostName, Node.place, Deleted.clears]
    | port _ _ => simp [Node.portName, Node.hostName, Node.place, Deleted.clears]
  have hstray : ∀ x, x ∈ t₂ ↔ x ∈ t ∧ (x.stray = true ∨ x.hostName ≠ none) := by
    intro x
    rw [hmem₂, hleft, and_assoc]
    refine and_congr_right fun hx => ?_
    cases x with
    | port name attrs =>
      have hin : name ∈ t₁.filterMap Node.portName :=
        List.mem_filterMap.mpr ⟨_, (hleft _).mpr ⟨hx, Or.inl (by simp [Node.portName])⟩, rfl⟩
      simp only [Node.portName, Node.hostName, Node.stray, Node.place, Deleted.clears, ne_eq, reduceCtorEq, not_false_eq_true,
        not_true_eq_false, or_false, true_and, bne_iff_ne, List.forall_mem_map, beq_eq_false_iff_ne]
      constructor
      · exact fun hno he => hno name hin he.symm
      · intro hne other _ he
        -- The name is a number that reads as itself.
        refine hne ?_
        rw [he, atoi_toString (isInt_atoi _)]
    | host _ => simp [Node.portName, Node.hostName, Node.stray, Node.place, Deleted.clears]
    | _ => simp [Node.portName, Node.hostName, Node.stray]
  have hno : ∀ nqn host, Node.allowed nqn host ∉ t₂ := by
    intro nqn host hin
    simpa [Node.stray, Node.hostName] using ((hstray _).mp hin).2
  intro x
  rw [mem_deleteHosts hno, hstray, and_assoc]
  refine and_congr_right fun hx => ?_
  cases x with
  | host name =>
    have hin : name ∈ t₂.filterMap Node.hostName :=
      List.mem_filterMap.mpr ⟨_, (hstray _).mpr ⟨hx, Or.inr (by simp [Node.hostName])⟩, rfl⟩
    simp only [Node.stray, Node.place, Bool.false_eq_true, iff_false, not_and]
    exact fun _ hall => hall name hin rfl
  | _ => simp [Node.hostName, Node.place]

/-! ## What an operation has to find -/

/-- An attribute of a port after it was written. -/
def stored (k : Kernel) (used : Bool) (attr : PortAttr) (asked old : String) : String :=
  if asked ≠ "" ∧ used = false ∧ k.takes attr asked = true then asked else old

/-- The attributes that are written and what they are to be agree after all writes. -/
def Stores (k : Kernel) (used : Bool) (old asked wanted : PortAttrs) : Prop :=
  ∀ attr, stored k used attr (asked.get attr) (old.get attr) = wanted.get attr

def OpsCall.TakesEffect (k : Kernel) (t : Tree) : OpsCall → Prop
  | .resetConfig => ∀ node ∈ t, node.stray = false
  | .createPortid portid fam typ req addr svcid =>
    (has t (.port (toString portid)) = false ∧ k.admits (.port (toString portid)) = true ∧
      Stores k false k.fresh (askedAttrs fam typ req addr svcid) (portAttrs fam typ req addr svcid)) ∨
    ∃ old, .port (toString portid) old ∈ t ∧
      Stores k (inUse t (toString portid)) old (askedAttrs fam typ req addr svcid) (portAttrs fam typ req addr svcid) ∧
      ∀ attr, oneLine ((portAttrs fam typ req addr svcid).get attr) = (askedAttrs fam typ req addr svcid).get attr
  | .createSubsys subsys allowany =>
    (has t (.subsys subsys) = true ∨ k.admits (.subsys subsys) = true) ∧ (allowany ≠ 0 → ∀ host, Node.allowed subsys host ∉ t)
  | .createNs subsys nsid devid devnsid =>
    (has t (.subsys subsys) = true ∧ has t (.ns subsys (toString nsid)) = false ∧ k.admits (.ns subsys (toString nsid)) = true ∧
      k.takesPath (devicePath devid devnsid) = true ∧ k.opens (devicePath devid devnsid) = true) ∨
    .ns subsys (toString nsid) (devicePath devid devnsid) true ∈ t ∨
    ∃ old, .ns subsys (toString nsid) old false ∈ t ∧ (k.takesPath (devicePath devid devnsid) = true ∨ old = devicePath devid devnsid) ∧
      k.opens (devicePath devid devnsid) = true
  | .createHost host => has t (.host host) = true ∨ k.admits (.host host) = true
  | .deleteHost host => ∀ nqn, Node.allowed nqn host ∉ t
  | .linkHostToSubsys subsys host => Node.allowed subsys host ∈ t ∨
      (.subsys subsys false ∈ t ∧ .host host ∈ t ∧ k.admits (.allowed subsys host) = true)
  | .linkPortToSubsys subsys portid => Node.portLink (toString portid) subsys ∈ t ∨
      (has t (.subsys subsys) = true ∧ has t (.port (toString portid)) = true ∧ k.admits (.portLink (toString portid) subsys) = true)
  | _ => True

/-- A number that names a port is short enough for the buffer that it is made in. -/
def OpsCall.Named : OpsCall → Prop
  | .createPortid portid _ _ _ _ _ => numName portid = toString portid
  | _ => True

/-! ## Creating -/

/-- A call that ends well and makes its change. -/
def Comes (out : Except Fault (Int × Tree)) (t : Tree) (change : Change) : Prop := ∃ t', out = .ok (0, t') ∧ change.Made t t'

theorem comes_ok {ret : Int} {change : Change} : Comes (.ok (ret, t')) t change ↔ ret = 0 ∧ change.Made t t' := by
  constructor
  · rintro ⟨_, ho, hm⟩
    cases ho
    exact ⟨rfl, hm⟩
  · rintro ⟨rfl, hm⟩
    exact ⟨t', rfl, hm⟩

theorem not_comes_ok {ret : Int} {change : Change} (hret : ret ≠ 0) : ¬Comes (.ok (ret, t')) t change :=
  fun hc => hret (comes_ok.mp hc).1

theorem comes_sprintf {path : String} {out : Except Fault (Int × Tree)} {change : Change} :
    Comes (sprintf path >>= fun _ => out) t change ↔ PathFits path ∧ Comes out t change := by
  rw [sprintf_eq]
  by_cases hfit : PathFits path
  · rw [if_pos hfit, and_iff_right hfit]
    rfl
  · rw [if_neg hfit]
    refine iff_of_false ?_ (fun hr => hfit hr.1)
    rintro ⟨_, ho, -⟩
    cases ho

/-- What a directory or link is in is there. -/
def Grounded (t : Tree) (p : Place) : Prop := ∀ q, p.parent = some q → has t q = true

/-- A directory that is made was there, or is new, or was refused. -/
theorem madeOr_mkdir (h : Wf t) (k : Kernel) (node : Node) :
    (has t node.place = true ∧ madeOr (mkdir k t node) = (0, t)) ∨
    (has t node.place = false ∧ Grounded t node.place ∧ k.admits node.place = true ∧ madeOr (mkdir k t node) = (0, t ++ [node])) ∨
    (has t node.place = false ∧ ¬(Grounded t node.place ∧ k.admits node.place = true) ∧
      ∃ ret, ret ≠ 0 ∧ madeOr (mkdir k t node) = (ret, t)) := by
  have hany : node.place.parent.any (fun q => !has t q) = true ↔ ¬Grounded t node.place := by
    unfold Grounded
    cases node.place.parent <;> simp
  unfold mkdir
  by_cases hhas : has t node.place = true
  · have hground : Grounded t node.place := by
      obtain ⟨x, hx, hp⟩ := has_iff.mp hhas
      exact fun q hq => h.parent x hx q (by rw [hp, hq])
    rw [if_neg (by rw [hany, not_not]; exact hground), if_pos hhas]
    exact Or.inl ⟨hhas, rfl⟩
  · have hnew := Bool.eq_false_iff.mpr hhas
    by_cases hground : Grounded t node.place
    · rw [if_neg (by rw [hany, not_not]; exact hground), if_neg hhas]
      by_cases hadmits : k.admits node.place = true
      · rw [if_pos hadmits]
        exact Or.inr (Or.inl ⟨hnew, hground, hadmits, rfl⟩)
      · rw [if_neg hadmits]
        exact Or.inr (Or.inr ⟨hnew, fun hr => hadmits hr.2, -einval, by decide, rfl⟩)
    · rw [if_pos (hany.mpr hground)]
      exact Or.inr (Or.inr ⟨hnew, fun hr => hground hr.1, -enoent, by decide, rfl⟩)

theorem madeOr_symlink (h : Wf t) (k : Kernel) (node : Node) :
    (has t node.place = true ∧ madeOr (symlink k t node) = (0, t)) ∨
    (has t node.place = false ∧ Grounded t node.place ∧ (∀ q, node.place.target = some q → has t q = true) ∧
      allowsAny t node.place = false ∧ k.admits node.place = true ∧ madeOr (symlink k t node) = (0, t ++ [node])) ∨
    (has t node.place = false ∧ ¬(Grounded t node.place ∧ (∀ q, node.place.target = some q → has t q = true) ∧
      allowsAny t node.place = false ∧ k.admits node.place = true) ∧ ∃ ret, ret ≠ 0 ∧ madeOr (symlink k t node) = (ret, t)) := by
  have hany : node.place.parent.any (fun q => !has t q) = true ↔ ¬Grounded t node.place := by
    unfold Grounded
    cases node.place.parent <;> simp
  have htarget : node.place.target.any (fun q => !has t q) = true ↔ ¬∀ q, node.place.target = some q → has t q = true := by
    cases node.place.target <;> simp
  unfold symlink
  by_cases hhas : has t node.place = true
  · have hground : Grounded t node.place := by
      obtain ⟨x, hx, hp⟩ := has_iff.mp hhas
      exact fun q hq => h.parent x hx q (by rw [hp, hq])
    rw [if_neg (by rw [hany, not_not]; exact hground), if_pos hhas]
    exact Or.inl ⟨hhas, rfl⟩
  · have hnew := Bool.eq_false_iff.mpr hhas
    refine Or.inr ?_
    by_cases hground : Grounded t node.place
    · rw [if_neg (by rw [hany, not_not]; exact hground), if_neg hhas]
      by_cases htar : ∀ q, node.place.target = some q → has t q = true
      · rw [if_neg (by rw [htarget, not_not]; exact htar)]
        by_cases hok : allowsAny t node.place = false ∧ k.admits node.place = true
        · rw [if_neg (by simp [hok])]
          exact Or.inl ⟨hnew, hground, htar, hok.1, hok.2, rfl⟩
        · rw [if_pos (by simpa [imp_iff_not_or] using hok)]
          exact Or.inr ⟨hnew, fun hr => hok hr.2.2, -einval, by decide, rfl⟩
      · rw [if_pos (htarget.mpr htar)]
        exact Or.inr ⟨hnew, fun hr => htar hr.2.1, -enoent, by decide, rfl⟩
    · rw [if_pos (hany.mpr hground)]
      exact Or.inr ⟨hnew, fun hr => hground hr.1, -enoent, by decide, rfl⟩

/-- A subsystem in whose directory there are links to hosts. -/
theorem any_allowedOf_iff {subsys : String} :
    t.any (fun node => (node.allowedOf subsys).isSome) = true ↔ ∃ host, Node.allowed subsys host ∈ t := by
  rw [List.any_eq_true]
  constructor
  · rintro ⟨y, hy, hs⟩
    cases y <;> simp [Node.allowedOf] at hs
    subst hs
    exact ⟨_, hy⟩
  · rintro ⟨host, hin⟩
    exact ⟨_, hin, by simp [Node.allowedOf]⟩

theorem writeAllowAny_of_blocked {subsys host : String} (hlink : Node.allowed subsys host ∈ t) : writeAllowAny t subsys true = t := by
  unfold writeAllowAny
  rw [Bool.true_and, if_pos (any_allowedOf_iff.mpr ⟨host, hlink⟩)]

theorem writeAllowAny_of_free {subsys : String} {allowAny : Bool} (hno : allowAny = true → ∀ host, Node.allowed subsys host ∉ t) :
    writeAllowAny t subsys allowAny = update t (.subsys subsys) (fun _ => .subsys subsys allowAny) := by
  unfold writeAllowAny
  rw [if_neg]
  rw [Bool.and_eq_true, any_allowedOf_iff]
  rintro ⟨hany, host, hlink⟩
  exact hno hany host hlink

theorem devicePath_ne (devid devnsid : Int) : devicePath devid devnsid ≠ "" := by
  unfold devicePath nvmeDevice
  split
  · decide
  · intro he
    have hlen := congrArg String.length he
    simp only [String.length_append, String.length_empty] at hlen
    have hdev : (toString "/dev/nvme").length = 9 := rfl
    omega

/-- A namespace after its device was written and it was put in use. -/
def Nvmet.Node.used (k : Kernel) (path : String) (node : Node) : Node := (node.writePath k path).writeEnable k true

theorem place_used (path : String) (y : Node) : (y.used k path).place = y.place := by
  rw [Node.used, place_writeEnable, place_writePath]

theorem useDevice_eq (subsys name path : String) : useDevice k t subsys name path = update t (.ns subsys name) (Node.used k path) :=
  update_update (fun y hy => (place_writePath path y).trans hy) _

theorem used_eq_iff {subsys name old path : String} {used : Bool} (hpath : path ≠ "") :
    (Node.ns subsys name old used).used k path = .ns subsys name path true ↔
      if used = true then old = path else (k.takesPath path = true ∨ old = path) ∧ k.opens path = true := by
  cases used
  · by_cases htakes : k.takesPath path = true
    · simp [Node.used, Node.writePath, Node.writeEnable, hpath, htakes]
    · by_cases hold : old = path <;> simp [Node.used, Node.writePath, Node.writeEnable, htakes, hold]
  · simp [Node.used, Node.writePath, Node.writeEnable]

/-! ### The attributes of a port -/

theorem PortAttrs_ext {a b : PortAttrs} (h : ∀ attr, a.get attr = b.get attr) : a = b := by
  obtain ⟨adrfam, trtype, traddr, treq, trsvcid⟩ := a
  obtain ⟨adrfam', trtype', traddr', treq', trsvcid'⟩ := b
  obtain rfl : adrfam = adrfam' := h .adrfam
  obtain rfl : trtype = trtype' := h .trtype
  obtain rfl : traddr = traddr' := h .traddr
  obtain rfl : treq = treq' := h .treq
  obtain rfl : trsvcid = trsvcid' := h .trsvcid
  rfl

/-- A port after some of its attributes were written. -/
def attrsWritten (k : Kernel) (used : Bool) (asked : PortAttrs) (attrs : List PortAttr) (old : PortAttrs) : PortAttrs :=
  attrs.foldl (fun old attr => old.set (stored k used attr (asked.get attr) (old.get attr)) attr) old

def Nvmet.Node.writtenPort (k : Kernel) (used : Bool) (asked : PortAttrs) (attrs : List PortAttr) : Node → Node
  | .port name old => .port name (attrsWritten k used asked attrs old)
  | node => node

theorem place_writtenPort (used : Bool) (asked : PortAttrs) (attrs : List PortAttr) (y : Node) :
    (y.writtenPort k used asked attrs).place = y.place := by cases y <;> rfl

theorem inUse_iff {name : String} : inUse t name = true ↔ ∃ nqn, has t (.portLink name nqn) = true := by
  unfold inUse
  rw [List.any_eq_true]
  constructor
  · rintro ⟨y, hy, hs⟩
    cases y <;> simp [Node.linkOf] at hs
    subst hs
    exact ⟨_, has_of_mem hy⟩
  · rintro ⟨nqn, hhas⟩
    exact ⟨_, has_portLink_iff.mp hhas, by simp [Node.linkOf]⟩

theorem inUse_update {name : String} {f : Node → Node} (hf : ∀ y : Node, y.place = p → (f y).place = p) :
    inUse (update t p f) name = inUse t name := by
  rw [Bool.eq_iff_iff, inUse_iff, inUse_iff]
  exact exists_congr fun nqn => by rw [has_update hf]

theorem update_congr {f g : Node → Node} (h : ∀ y, y.place = p → f y = g y) : update t p f = update t p g := by
  refine List.map_congr_left (fun y _ => ?_)
  by_cases hp : y.place = p
  · rw [if_pos hp, if_pos hp, h y hp]
  · rw [if_neg hp, if_neg hp]

theorem update_self {f : Node → Node} (h : ∀ y, y.place = p → f y = y) : update t p f = t := by
  refine (List.map_congr_left (fun y _ => ?_)).trans (List.map_id t)
  by_cases hp : y.place = p
  · rw [if_pos hp, h y hp]
    rfl
  · rw [if_neg hp]
    rfl

theorem set_get (old : PortAttrs) (attr : PortAttr) : old.set (old.get attr) attr = old := by cases attr <;> rfl

theorem writePort_eq (t : Tree) (name : String) (asked : PortAttrs) (attr : PortAttr) :
    writePort k t name attr (asked.get attr) = update t (.port name) (Node.writtenPort k (inUse t name) asked [attr]) := by
  unfold writePort
  by_cases hset : asked.get attr ≠ "" ∧ inUse t name = false ∧ k.takes attr (asked.get attr) = true
  · rw [if_pos hset]
    refine update_congr (fun y _ => ?_)
    cases y with
    | port name old => simp only [Node.writePort, Node.writtenPort, attrsWritten, List.foldl_cons, List.foldl_nil, stored, if_pos hset]
    | _ => rfl
  · rw [if_neg hset]
    refine (update_self (fun y _ => ?_)).symm
    cases y with
    | port name old => simp only [Node.writtenPort, attrsWritten, List.foldl_cons, List.foldl_nil, stored, if_neg hset, set_get]
    | _ => rfl

theorem foldl_writePort (asked : PortAttrs) (attrs : List PortAttr) (t : Tree) (name : String) :
    attrs.foldl (fun t attr => writePort k t name attr (asked.get attr)) t =
      update t (.port name) (Node.writtenPort k (inUse t name) asked attrs) := by
  induction attrs generalizing t with
  | nil => exact (update_self (fun y _ => by cases y <;> rfl)).symm
  | cons attr attrs ih =>
    have hplace : ∀ y : Node, y.place = .port name →
        (y.writtenPort k (inUse t name) asked [attr]).place = .port name := fun y hy => (place_writtenPort _ _ _ y).trans hy
    rw [List.foldl_cons, ih, writePort_eq, inUse_update hplace, update_update hplace]
    refine update_congr (fun y _ => ?_)
    cases y <;> rfl

theorem get_written (used : Bool) (asked old : PortAttrs) (attr : PortAttr) :
    (attrsWritten k used asked PortAttr.all old).get attr =
      stored k used attr (asked.get attr) (old.get attr) := by
  cases attr <;> rfl

theorem writeAttrs_eq (t : Tree) (name : String) (asked : PortAttrs) : writeAttrs k t name asked =
    update t (.port name) (Node.writtenPort k (inUse t name) asked PortAttr.all) :=
  foldl_writePort asked _ t name

theorem written_eq_iff {used : Bool} {asked old wanted : PortAttrs} :
    attrsWritten k used asked PortAttr.all old = wanted ↔ Stores k used old asked wanted := by
  constructor
  · rintro rfl attr
    exact (get_written used asked old attr).symm
  · exact fun hs => PortAttrs_ext (fun attr => (get_written used asked old attr).trans (hs attr))

theorem readPort_of_mem (h : Wf t) {name : String} {attrs : PortAttrs} (hin : Node.port name attrs ∈ t) (attr : PortAttr) :
    readPort t name attr = oneLine (attrs.get attr) := by
  have hfind : t.findSome? (Node.attrsOf name) = some attrs := by
    cases hf : t.findSome? (Node.attrsOf name) with
    | none => simpa [Node.attrsOf] using List.findSome?_eq_none_iff.mp hf _ hin
    | some attrs' =>
      obtain ⟨y, hy, ha⟩ := List.exists_of_findSome?_eq_some hf
      cases y <;> simp [Node.attrsOf] at ha
      obtain ⟨rfl, rfl⟩ := ha
      simpa using h.eq_of_place hy hin rfl
  unfold readPort
  rw [hfind]

theorem wf_writeAttrs (h : Wf t) (name : String) (asked : PortAttrs) : Wf (writeAttrs k t name asked) :=
  h.foldl (fun _ attr ht => ht.writePort name attr _) _

section

variable (h : Wf t) (hk : k.loaded = true)

include h hk

theorem comes_createHost (host : String) :
    Comes (Configfs.createHost k t host) t (.put (.host host)) ↔ (OpsCall.createHost host).TakesEffect k t := by
  unfold Configfs.createHost OpsCall.TakesEffect
  rw [if_pos hk]
  rcases madeOr_mkdir h k (.host host) with ⟨hhas, hm⟩ | ⟨hnew, -, hadmits, hm⟩ | ⟨hnew, hno, ret, hret, hm⟩
  · rw [hm, comes_ok, and_iff_right rfl, made_self_iff h]
    exact iff_of_true (has_host_iff.mp hhas) (Or.inl hhas)
  · rw [hm, comes_ok, and_iff_right rfl, made_append_iff hnew rfl]
    exact iff_of_true rfl (Or.inr hadmits)
  · rw [hm]
    refine iff_of_false (not_comes_ok hret) ?_
    rintro (hhas | hadmits)
    · exact Bool.eq_false_iff.mp hnew hhas
    · exact hno ⟨fun q hq => (by cases hq), hadmits⟩

theorem comes_createSubsys (subsys : String) (allowany : Int) :
    Comes (Configfs.createSubsys k t subsys allowany) t (.put (.subsys subsys (allowany ≠ 0))) ↔
      (OpsCall.createSubsys subsys allowany).TakesEffect k t := by
  unfold Configfs.createSubsys OpsCall.TakesEffect
  rw [if_pos hk]
  rcases madeOr_mkdir h k (.subsys subsys false) with ⟨hhas, hm⟩ | ⟨hnew, -, hadmits, hm⟩ | ⟨hnew, hno, ret, hret, hm⟩
  · rw [hm]
    dsimp only
    have hthere : has t (.subsys subsys) = true := hhas
    rw [if_pos rfl, comes_ok, and_iff_right rfl, and_iff_right (Or.inl hthere)]
    by_cases hblocked : allowany ≠ 0 ∧ ∃ host, Node.allowed subsys host ∈ t
    · obtain ⟨hany, host, hl⟩ := hblocked
      rw [decide_eq_true hany, writeAllowAny_of_blocked hl, made_self_iff h]
      exact iff_of_false (fun hin => h.closed subsys host hin hl) (fun hno => hno hany host hl)
    · have hfree : allowany ≠ 0 → ∀ host, Node.allowed subsys host ∉ t := fun hany host hl => hblocked ⟨hany, host, hl⟩
      rw [writeAllowAny_of_free (by simpa using hfree)]
      obtain ⟨b, hb⟩ := has_subsys_iff.mp hhas
      exact iff_of_true ((@made_update_iff t (.subsys subsys) (.subsys subsys (allowany ≠ 0)) h _ (fun _ _ => rfl) rfl).mpr
        ⟨_, hb, rfl, rfl⟩) hfree
  · have hnone : ∀ host, Node.allowed subsys host ∉ t :=
      fun host hl => Bool.eq_false_iff.mp hnew (h.parent _ hl _ rfl)
    have hfree : ∀ host, Node.allowed subsys host ∉ t ++ [Node.subsys subsys false] := by
      intro host hl
      rcases List.mem_append.mp hl with hl | hl
      · exact hnone host hl
      · simp at hl
    rw [hm]
    dsimp only
    rw [if_pos rfl, comes_ok, and_iff_right rfl, writeAllowAny_of_free (fun _ => hfree),
      show Place.subsys subsys = (Node.subsys subsys false).place from rfl, update_append hnew]
    have hfresh : has t (Node.subsys subsys (decide (allowany ≠ 0))).place = false := hnew
    exact iff_of_true ((made_append_iff hfresh rfl).mpr rfl) ⟨Or.inr hadmits, fun _ => hnone⟩
  · rw [hm]
    dsimp only
    refine iff_of_false (not_comes_ok hret) ?_
    rintro ⟨hhas | hadmits, -⟩
    · exact Bool.eq_false_iff.mp hnew hhas
    · exact hno ⟨fun q hq => (by cases hq), hadmits⟩

theorem comes_createNs (subsys : String) (nsid devid devnsid : Int) :
    Comes (Configfs.createNs k t subsys nsid devid devnsid) t (.put (.ns subsys nsid devid devnsid)) ↔
      (OpsCall.createNs subsys nsid devid devnsid).PathsFit t ∧ (OpsCall.createNs subsys nsid devid devnsid).TakesEffect k t := by
  unfold Configfs.createNs OpsCall.PathsFit
  rw [if_pos hk, comes_sprintf]
  refine and_congr_right fun _ => ?_
  unfold OpsCall.TakesEffect
  have hdevice := devicePath_ne devid devnsid
  rcases madeOr_mkdir h k (.ns subsys (toString nsid) "" false) with ⟨hhas, hm⟩ | ⟨hnew, hground, hadmits, hm⟩ |
    ⟨hnew, hno, ret, hret, hm⟩
  · obtain ⟨old, used, hin⟩ := has_ns_iff.mp hhas
    have hmade : (Change.put (.ns subsys nsid devid devnsid)).Made t
        (update t (.ns subsys (toString nsid)) (Node.used k (devicePath devid devnsid))) ↔ _ :=
      made_update_iff h (fun y hy => (place_used _ y).trans hy) rfl
    have hone : ∀ old' used', Node.ns subsys (toString nsid) old' used' ∈ t → old' = old ∧ used' = used := by
      intro old' used' hin'
      simpa using h.eq_of_place hin' hin rfl
    rw [hm]
    dsimp only
    rw [if_pos rfl, comes_ok, and_iff_right rfl, useDevice_eq, hmade]
    constructor
    · rintro ⟨y, hy, hp, he⟩
      rw [h.eq_of_place hy hin hp] at he
      have hu := (used_eq_iff hdevice).mp he
      cases used with
      | true => exact Or.inr (Or.inl (hu ▸ hin))
      | false => exact Or.inr (Or.inr ⟨old, hin, hu.1, hu.2⟩)
    · rintro (⟨-, hnot, -⟩ | hin' | ⟨old', hin', htakes, hopens⟩)
      · exact absurd hhas (Bool.eq_false_iff.mp hnot)
      · exact ⟨_, hin', rfl, (used_eq_iff hdevice).mpr rfl⟩
      · exact ⟨_, hin', rfl, (used_eq_iff hdevice).mpr ⟨htakes, hopens⟩⟩
  · have hnone : ∀ old used, Node.ns subsys (toString nsid) old used ∉ t :=
      fun old used hin => Bool.eq_false_iff.mp hnew (has_ns_iff.mpr ⟨old, used, hin⟩)
    have hplace : has t (((Node.ns subsys (toString nsid) "" false)).used k (devicePath devid devnsid)).place = false := by
      rw [place_used]
      exact hnew
    rw [hm]
    dsimp only
    rw [if_pos rfl, comes_ok, and_iff_right rfl, useDevice_eq,
      show Place.ns subsys (toString nsid) = (Node.ns subsys (toString nsid) "" false).place from rfl, update_append hnew,
      made_append_iff hplace (place_used _ _)]
    refine (used_eq_iff hdevice).trans ?_
    rw [if_neg (by decide)]
    constructor
    · rintro ⟨htakes, hopens⟩
      exact Or.inl ⟨hground _ rfl, hnew, hadmits, htakes.resolve_right (Ne.symm hdevice), hopens⟩
    · rintro (⟨-, -, -, htakes, hopens⟩ | hin | ⟨old, hin, -⟩)
      · exact ⟨Or.inl htakes, hopens⟩
      · exact absurd hin (hnone _ _)
      · exact absurd hin (hnone _ _)
  · rw [hm]
    dsimp only
    rw [if_neg hret]
    refine iff_of_false (not_comes_ok hret) ?_
    rintro (⟨hsubsys, -, hadmits, -⟩ | hin | ⟨old, hin, -⟩)
    · exact hno ⟨fun q hq => (by cases hq; exact hsubsys), hadmits⟩
    · exact Bool.eq_false_iff.mp hnew (has_ns_iff.mpr ⟨_, _, hin⟩)
    · exact Bool.eq_false_iff.mp hnew (has_ns_iff.mpr ⟨_, _, hin⟩)

theorem comes_linkHostToSubsys (subsys host : String) :
    Comes (Configfs.linkHostToSubsys k t subsys host) t (.put (.hostLink subsys host)) ↔
      (OpsCall.linkHostToSubsys subsys host).PathsFit t ∧ (OpsCall.linkHostToSubsys subsys host).TakesEffect k t := by
  unfold Configfs.linkHostToSubsys OpsCall.PathsFit
  rw [if_pos hk, comes_sprintf, comes_sprintf, ← and_assoc]
  refine and_congr_right fun _ => ?_
  unfold OpsCall.TakesEffect
  rcases madeOr_symlink h k (.allowed subsys host) with ⟨hhas, hm⟩ | ⟨hnew, hground, htarget, hcloses, hadmits, hm⟩ |
    ⟨hnew, hno, ret, hret, hm⟩
  · rw [hm, comes_ok, and_iff_right rfl, made_self_iff h]
    exact iff_of_true (has_allowed_iff.mp hhas) (Or.inl (has_allowed_iff.mp hhas))
  · rw [hm, comes_ok, and_iff_right rfl, made_append_iff hnew rfl]
    refine iff_of_true rfl (Or.inr ⟨?_, has_host_iff.mp (htarget _ rfl), hadmits⟩)
    obtain ⟨allowAny, hin⟩ := has_subsys_iff.mp (hground _ rfl)
    cases allowAny with
    | false => exact hin
    | true => exact absurd hin (by simpa [allowsAny, Node.place] using hcloses)
  · rw [hm]
    refine iff_of_false (not_comes_ok hret) ?_
    rintro (hin | ⟨hsubsys, hhost, hadmits⟩)
    · exact Bool.eq_false_iff.mp hnew (has_of_mem hin)
    · refine hno ⟨fun q hq => ?_, fun q hq => ?_, ?_, hadmits⟩
      · cases hq
        exact has_of_mem hsubsys
      · cases hq
        exact has_of_mem hhost
      · have hnot : Node.subsys subsys true ∉ t := fun hin => Bool.noConfusion (h.subsys_unique hsubsys hin)
        simpa [allowsAny, Node.place] using hnot

theorem comes_linkPortToSubsys (subsys : String) (portid : Int) :
    Comes (Configfs.linkPortToSubsys k t subsys portid) t (.put (.portLink subsys portid)) ↔
      (OpsCall.linkPortToSubsys subsys portid).PathsFit t ∧ (OpsCall.linkPortToSubsys subsys portid).TakesEffect k t := by
  unfold Configfs.linkPortToSubsys OpsCall.PathsFit
  rw [if_pos hk, comes_sprintf, comes_sprintf, ← and_assoc]
  refine and_congr_right fun _ => ?_
  unfold OpsCall.TakesEffect
  rcases madeOr_symlink h k (.portLink (toString portid) subsys) with ⟨hhas, hm⟩ | ⟨hnew, hground, htarget, -, hadmits, hm⟩ |
    ⟨hnew, hno, ret, hret, hm⟩
  · rw [hm, comes_ok, and_iff_right rfl, made_self_iff h]
    exact iff_of_true (has_portLink_iff.mp hhas) (Or.inl (has_portLink_iff.mp hhas))
  · rw [hm, comes_ok, and_iff_right rfl, made_append_iff hnew rfl]
    exact iff_of_true rfl (Or.inr ⟨htarget _ rfl, hground _ rfl, hadmits⟩)
  · rw [hm]
    refine iff_of_false (not_comes_ok hret) ?_
    rintro (hin | ⟨hsubsys, hport, hadmits⟩)
    · exact Bool.eq_false_iff.mp hnew (has_of_mem hin)
    · refine hno ⟨fun q hq => ?_, fun q hq => ?_, rfl, hadmits⟩
      · cases hq
        exact hport
      · cases hq
        exact hsubsys

theorem comes_createPortid {portid : Int} (fam typ : String) (req : Int) (addr : String) (svcid : Int)
    (hname : numName portid = toString portid) :
    Comes (Configfs.createPortid k t portid fam typ req addr svcid) t (.put (.port portid fam typ req addr svcid)) ↔
      (OpsCall.createPortid portid fam typ req addr svcid).TakesEffect k t := by
  have hnode : (Item.port portid fam typ req addr svcid).node = .port (toString portid) (portAttrs fam typ req addr svcid) := rfl
  unfold Configfs.createPortid OpsCall.TakesEffect mkdir
  rw [if_pos hk, hname, if_neg (by simp [Node.place, Place.parent])]
  dsimp only
  generalize askedAttrs fam typ req addr svcid = asked
  by_cases hhas : has t (Node.port (toString portid) k.fresh).place = true
  · obtain ⟨old, hin⟩ := has_port_iff.mp hhas
    have hplace : ∀ y : Node, y.place = .port (toString portid) →
        (y.writtenPort k (inUse t (toString portid)) asked PortAttr.all).place = .port (toString portid) :=
      fun y hy => (place_writtenPort _ _ _ y).trans hy
    have hmem : Node.port (toString portid) (attrsWritten k (inUse t (toString portid)) asked PortAttr.all old) ∈
        writeAttrs k t (toString portid) asked := by
      rw [writeAttrs_eq]
      exact mem_update.mpr (Or.inl ⟨_, hin, rfl, rfl⟩)
    have hreads : readsBack (writeAttrs k t (toString portid) asked) (toString portid) asked = true ↔
        ∀ attr, oneLine ((attrsWritten k (inUse t (toString portid)) asked PortAttr.all old).get attr) = asked.get attr := by
      unfold readsBack
      simp only [readPort_of_mem (wf_writeAttrs h _ _) hmem, List.all_eq_true, beq_iff_eq]
      exact ⟨fun hall attr => hall attr (by cases attr <;> simp [PortAttr.all]), fun hall attr _ => hall attr⟩
    have hmade : (Change.put (.port portid fam typ req addr svcid)).Made t (writeAttrs k t (toString portid) asked) ↔
        Stores k (inUse t (toString portid)) old asked (portAttrs fam typ req addr svcid) := by
      rw [writeAttrs_eq, made_update_iff h hplace (congrArg Node.place hnode), hnode, ← written_eq_iff]
      constructor
      · rintro ⟨y, hy, hp, he⟩
        rw [h.eq_of_place hy hin hp] at he
        simpa [Node.writtenPort] using he
      · rintro he
        exact ⟨_, hin, rfl, by rw [← he]; rfl⟩
    rw [if_pos hhas]
    dsimp only
    rw [if_neg (by decide), comes_ok, hmade]
    constructor
    · rintro ⟨hret, hs⟩
      refine Or.inr ⟨old, hin, hs, ?_⟩
      rw [← written_eq_iff.mpr hs]
      refine hreads.mp (Classical.by_contradiction fun hno => ?_)
      rw [if_neg (by rw [not_or]; exact ⟨by decide, hno⟩)] at hret
      exact absurd hret (by decide)
    · rintro (⟨hnot, -⟩ | ⟨old', hin', hs, hlines⟩)
      · exact absurd hhas (Bool.eq_false_iff.mp hnot)
      · obtain rfl : old' = old := by simpa using h.eq_of_place hin' hin rfl
        exact ⟨if_pos (Or.inr (hreads.mpr (by rw [written_eq_iff.mpr hs]; exact hlines))), hs⟩
  · have hnew := Bool.eq_false_iff.mpr hhas
    have hnone : ∀ old, Node.port (toString portid) old ∉ t := fun old hin => hhas (has_port_iff.mpr ⟨old, hin⟩)
    rw [if_neg hhas]
    by_cases hadmits : k.admits (Node.port (toString portid) k.fresh).place = true
    · have hunused : inUse (t ++ [Node.port (toString portid) k.fresh]) (toString portid) = false := by
        refine Bool.eq_false_iff.mpr (fun hu => ?_)
        obtain ⟨nqn, hl⟩ := inUse_iff.mp hu
        rcases List.mem_append.mp (has_portLink_iff.mp hl) with hl | hl
        · exact hhas (h.parent _ hl _ rfl)
        · simp at hl
      have hfresh : has t ((Node.port (toString portid) k.fresh).writtenPort k false asked PortAttr.all).place = false := hnew
      rw [if_pos hadmits]
      dsimp only
      rw [if_neg (by simp), comes_ok, if_pos (Or.inl rfl), and_iff_right rfl, writeAttrs_eq, hunused,
        show Place.port (toString portid) = (Node.port (toString portid) k.fresh).place from rfl, update_append hnew,
        made_append_iff hfresh rfl, hnode]
      have hport : (Node.port (toString portid) k.fresh).writtenPort k false asked PortAttr.all =
          .port (toString portid) (portAttrs fam typ req addr svcid) ↔
            Stores k false k.fresh asked (portAttrs fam typ req addr svcid) := by
        rw [← written_eq_iff]
        simp [Node.writtenPort]
      rw [hport]
      constructor
      · exact fun hs => Or.inl ⟨hnew, hadmits, hs⟩
      · rintro (⟨-, -, hs⟩ | ⟨old, hin, -⟩)
        · exact hs
        · exact absurd hin (hnone old)
    · rw [if_neg hadmits]
      dsimp only
      rw [if_pos (by decide)]
      refine iff_of_false (not_comes_ok (by decide)) ?_
      rintro (⟨-, hok, -⟩ | ⟨old, hin, -⟩)
      · exact hadmits hok
      · exact hnone old hin

end

end NvmeDem
