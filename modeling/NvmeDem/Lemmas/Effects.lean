import NvmeDem.Store.Ops
import NvmeDem.Lemmas.Targets

/-!
# What a call can do to the store

`Effect` lists what each call does when it returns zero, with everything it has checked; `run_cases` says that a call that
returns does that or returns an error and at most makes an absent array. Every invariant of the store is a case analysis over
`Effect`.
-/

namespace NvmeDem

open Jansson

inductive Effect (J : JsonLib) (root : Json) : StoreOp → Json → Prop
  | addGroup {group : Option String} (hfresh : ∀ g, group = some g → g ∉ root.keys tagGroups tagName)
      (hpush : root.canPush tagGroups = true) : Effect J root (.addGroup group) (root.pushAt tagGroups (newGroup group))
  | updateGroup {group : Option String} {data name newname : String} {new root' : Json}
      (hnew : J.loads data = some new) (hname : new.strField tagName = some newname)
      (hupd : GroupUpdate root new newname group root') : Effect J root (.updateGroup group data name) root'
  | joinGroup {group name member out : String} {data : Option String} {kind : Member} {i : Nat} {x : Json}
      (hx : (root.entries tagGroups)[i]? = some x) (hkey : x.strField tagName = some group)
      (hmember : memberAlias J data name = some member) (hknown : member ∈ root.keys kind.parentTag tagAlias)
      (hfresh : member ∉ x.strings kind.parentTag) :
      Effect J root (.setGroupMember group data name kind out)
        (root.putAt tagGroups i (x.pushAt kind.parentTag (.string member)))
  | rejoinGroup {group name out : String} {data : Option String} {kind : Member} {root' : Json}
      (hfill : Json.Fills root root') : Effect J root (.setGroupMember group data name kind out) root'
  | leaveGroup {group member : String} {kind : Member} {i j : Nat} {x : Json}
      (hx : (root.entries tagGroups)[i]? = some x) (hkey : x.strField tagName = some group)
      (hm : (x.entries kind.parentTag)[j]? = some (.string member)) :
      Effect J root (.delGroupMember group (some member) kind) (root.putAt tagGroups i (x.removeAt kind.parentTag j))
  | delGroup {group : String} {i : Nat} {x : Json} (hx : (root.entries tagGroups)[i]? = some x)
      (hkey : x.strField tagName = some group) : Effect J root (.delGroup group) (root.removeAt tagGroups i)
  | addHost {host : Option String} (hfresh : ∀ a, host = some a → a ∉ root.keys tagHosts tagAlias) :
      Effect J root (.addHost host) (root.pushAt tagHosts (jsonSetStringPtr (.object []) tagAlias host))
  | updateHost {host : Option String} {data : String} {arg out : HostOut} {new root' : Json}
      (hnew : J.loads data = some new) (hupd : HostUpdate root new arg.nqn host out root') :
      Effect J root (.updateHost host data arg) root'
  | delHost {name nqn : String} {i : Nat} {x : Json} (hx : (root.entries tagHosts)[i]? = some x)
      (hkey : x.strField tagAlias = some name) :
      Effect J root (.delHost (some name) nqn)
        (delFromGroups (delFromAllowedHosts (root.removeAt tagHosts i) name) tagHosts name)
  | keepSubsys {tgt data : String} {subnqn : Option String} {arg : SubsysArg} {root' : Json}
      (hfill : Json.Fills root root') : Effect J root (.setSubsys tgt subnqn data arg) root'
  | setSubsys {tgt data : String} {subnqn : Option String} {arg out : SubsysArg} {i : Nat} {t t' new : Json}
      (ht : TargetAt root tgt i t) (hnew : J.loads data = some new) (hupd : SubsysUpdate t new arg subnqn out t') :
      Effect J root (.setSubsys tgt subnqn data arg) (root.putAt tagTargets i t')
  | delSubsys {tgt subnqn : String} {i j : Nat} {t s : Json} (ht : TargetAt root tgt i t) (hs : SubsysAt t subnqn j s) :
      Effect J root (.delSubsys tgt (some subnqn)) (root.putAt tagTargets i (t.removeAt tagSubsystems j))
  | setPortid {tgt data : String} {id : Int} {arg out : PortArg} {i : Nat} {t t' new : Json}
      (ht : TargetAt root tgt i t) (hnew : J.loads data = some new)
      (hupd : PortUpdate t new arg (requestPortid id new) out t') :
      Effect J root (.setPortid tgt id data arg) (root.putAt tagTargets i t')
  | delPortid {tgt : String} {id : Int} {i j : Nat} {t p : Json} (ht : TargetAt root tgt i t)
      (hp : (t.entries tagPortids)[j]? = some p) (hid : p.intField tagPortid = some id) :
      Effect J root (.delPortid tgt id) (root.putAt tagTargets i (t.removeAt tagPortids j))
  | setNs {tgt subnqn data : String} {arg out : NsArg} {i j : Nat} {t s s' new nsid : Json}
      (ht : TargetAt root tgt i t) (hs : SubsysAt t subnqn j s) (hnew : J.loads data = some new)
      (hnsid : new.objectGet tagNsid = some nsid) (hupd : NsUpdate s new arg (cInt nsid.integerValue) out s') :
      Effect J root (.setNs tgt subnqn data arg) (root.putAt tagTargets i (t.putAt tagSubsystems j s'))
  | delNs {tgt subnqn : String} {ns : Int} {i j k : Nat} {t s n : Json} (ht : TargetAt root tgt i t)
      (hs : SubsysAt t subnqn j s) (hn : (s.entries tagNsids)[k]? = some n) (hid : n.intField tagNsid = some ns) :
      Effect J root (.delNs tgt subnqn ns) (root.putAt tagTargets i (t.putAt tagSubsystems j (s.removeAt tagNsids k)))
  | addTarget {tgt : Option String} (hfresh : ∀ a, tgt = some a → a ∉ root.keys tagTargets tagAlias) :
      Effect J root (.addTarget tgt) (root.pushAt tagTargets (newTarget tgt))
  | updateTarget {tgt : Option String} {data : String} {arg out : TargetArg} {new root' : Json}
      (hnew : J.loads data = some new) (hupd : TargetUpdate root new arg tgt out root') :
      Effect J root (.updateTarget tgt data arg) root'
  | delTarget {name : String} {i : Nat} {t : Json} (ht : TargetAt root name i t) :
      Effect J root (.delTarget (some name)) (delFromGroups (root.removeAt tagTargets i) tagTargets name)
  | setAcl {tgt subnqn data : String} {host : Option String} {arg out : HostOut} {root' : Json}
      (hadd : AclAdded J root tgt subnqn host data out root') : Effect J root (.setAcl tgt subnqn host data arg) root'
  | delAcl {tgt subnqn host : String} {i j k : Nat} {t s : Json} (ht : TargetAt root tgt i t)
      (hs : SubsysAt t subnqn j s) (hh : (s.entries tagHosts)[k]? = some (.string host)) :
      Effect J root (.delAcl tgt subnqn host)
        (root.putAt tagTargets i (t.putAt tagSubsystems j (s.removeAt tagHosts k)))

variable {J : JsonLib} {root root' : Json}

theorem fills_of_eq (h : root' = root) : Json.Fills root root' := by
  rw [h]
  exact .refl root

/-- A call that returns makes its effect, or fails and at most makes an absent array. -/
theorem run_cases {op : StoreOp} {ret : Int} (h : op.run J root = .ok (ret, root')) :
    (ret ≠ 0 ∧ Json.Fills root root') ∨ (ret = 0 ∧ Effect J root op root') := by
  cases op with
  | addGroup group =>
    obtain ⟨r, hr, rfl, rfl⟩ := map_step_eq_ok h
    rcases addJsonGroup_ok hr with ⟨hne, heq⟩ | ⟨hz, hfresh, hpush, heq⟩
    · exact Or.inl ⟨hne, fills_of_eq heq⟩
    · rw [heq]
      exact Or.inr ⟨hz, .addGroup hfresh hpush⟩
  | updateGroup group data name =>
    obtain ⟨r, hr, rfl, rfl⟩ := map_step_eq_ok h
    exact (updateJsonGroup_ok hr).imp_right
      (fun ⟨hz, new, newname, hnew, hname, hupd⟩ => ⟨hz, .updateGroup hnew hname hupd⟩)
  | setGroupMember group data name kind out =>
    obtain ⟨r, hr, rfl, rfl⟩ := map_step_eq_ok h
    rcases setJsonGroupMember_ok hr with ⟨hne, heq⟩ | ⟨hz, i, x, member, hx, hmember, -, hknown, hadd⟩
    · exact Or.inl ⟨hne, fills_of_eq heq⟩
    · refine Or.inr ⟨hz, ?_⟩
      rcases hadd with ⟨-, heq⟩ | ⟨hfresh, heq⟩
      · rw [heq]
        exact .rejoinGroup (.putAt hx.get (.ensureArray x _))
      · rw [heq]
        exact .joinGroup hx.get hx.key hmember hknown hfresh
  | delGroupMember group member kind =>
    obtain ⟨r, hr, rfl, rfl⟩ := map_step_eq_ok h
    rcases delJsonGroupMember_ok hr with ⟨hne, heq⟩ | ⟨hz, i, x, j, m, hx, rfl, -, hm, heq⟩
    · exact Or.inl ⟨hne, fills_of_eq heq⟩
    · rw [heq]
      exact Or.inr ⟨hz, .leaveGroup hx.get hx.key hm⟩
  | delGroup group =>
    cases h
    rcases delJsonGroup_ok root group with ⟨hne, heq⟩ | ⟨hz, i, x, hx, heq⟩
    · exact Or.inl ⟨hne, fills_of_eq heq⟩
    · rw [heq]
      exact Or.inr ⟨hz, .delGroup hx.get hx.key⟩
  | addHost host =>
    obtain ⟨r, hr, rfl, rfl⟩ := map_step_eq_ok h
    rcases addJsonHost_ok hr with ⟨hne, heq⟩ | ⟨hz, hfresh, heq⟩
    · exact Or.inl ⟨hne, fills_of_eq heq⟩
    · rw [heq]
      exact Or.inr ⟨hz, .addHost hfresh⟩
  | updateHost host data out =>
    obtain ⟨r, hr, rfl, rfl⟩ := map_step_eq_ok h
    exact (updateJsonHost_ok hr).imp_right (fun ⟨hz, new, hnew, hupd⟩ => ⟨hz, .updateHost hnew hupd⟩)
  | delHost host nqn =>
    obtain ⟨r, hr, rfl, rfl⟩ := map_step_eq_ok h
    rcases delJsonHost_ok hr with ⟨hne, heq⟩ | ⟨hz, i, x, name, hx, hkey, rfl, heq⟩
    · exact Or.inl ⟨hne, fills_of_eq heq⟩
    · rw [heq]
      exact Or.inr ⟨hz, .delHost hx hkey⟩
  | setSubsys tgt subnqn data arg =>
    obtain ⟨r, hr, rfl, rfl⟩ := map_step_eq_ok h
    rcases setJsonSubsys_ok hr with herr | ⟨hz, -, -, -, hfill, -⟩ | ⟨hz, i, t, t', new, ht, hnew, hupd, heq⟩
    · exact Or.inl herr
    · exact Or.inr ⟨hz, .keepSubsys hfill⟩
    · rw [heq]
      exact Or.inr ⟨hz, .setSubsys ht hnew hupd⟩
  | delSubsys tgt subnqn =>
    obtain ⟨r, hr, rfl, rfl⟩ := map_step_eq_ok h
    rcases delJsonSubsys_ok hr with ⟨hne, heq⟩ | ⟨hz, i, t, j, s, n, ht, hs, rfl, heq⟩
    · exact Or.inl ⟨hne, fills_of_eq heq⟩
    · rw [heq]
      exact Or.inr ⟨hz, .delSubsys ht hs⟩
  | setPortid tgt id data arg =>
    obtain ⟨r, hr, rfl, rfl⟩ := map_step_eq_ok h
    rcases setJsonPortid_ok hr with herr | ⟨hz, i, t, t', new, ht, hnew, -, hupd, heq⟩
    · exact Or.inl herr
    · rw [heq]
      exact Or.inr ⟨hz, .setPortid ht hnew hupd⟩
  | delPortid tgt id =>
    cases h
    rcases delJsonPortid_ok root tgt id with ⟨hne, heq⟩ | ⟨hz, i, t, j, p, ht, -, hp, hid, heq⟩
    · exact Or.inl ⟨hne, fills_of_eq heq⟩
    · rw [heq]
      exact Or.inr ⟨hz, .delPortid ht hp hid⟩
  | setNs tgt subnqn data arg =>
    cases h
    rcases setJsonNs_ok J root tgt subnqn data arg with
      herr | ⟨hz, i, t, j, s, s', new, nsid, ht, hs, hnew, hnsid, hupd, heq⟩
    · exact Or.inl herr
    · rw [heq]
      exact Or.inr ⟨hz, .setNs ht hs hnew hnsid hupd⟩
  | delNs tgt subnqn ns =>
    cases h
    rcases delJsonNs_ok root tgt subnqn ns with ⟨hne, heq⟩ | ⟨hz, i, t, j, s, k, n, ht, hs, -, hn, hid, heq⟩
    · exact Or.inl ⟨hne, fills_of_eq heq⟩
    · rw [heq]
      exact Or.inr ⟨hz, .delNs ht hs hn hid⟩
  | addTarget tgt =>
    obtain ⟨r, hr, rfl, rfl⟩ := map_step_eq_ok h
    rcases addJsonTarget_ok hr with ⟨hne, heq⟩ | ⟨hz, hfresh, heq⟩
    · exact Or.inl ⟨hne, fills_of_eq heq⟩
    · rw [heq]
      exact Or.inr ⟨hz, .addTarget hfresh⟩
  | updateTarget tgt data arg =>
    obtain ⟨r, hr, rfl, rfl⟩ := map_step_eq_ok h
    exact (updateJsonTarget_ok hr).imp_right (fun ⟨hz, new, hnew, hupd⟩ => ⟨hz, .updateTarget hnew hupd⟩)
  | delTarget tgt =>
    obtain ⟨r, hr, rfl, rfl⟩ := map_step_eq_ok h
    rcases delJsonTarget_ok hr with ⟨hne, heq⟩ | ⟨hz, i, t, name, ht, rfl, heq⟩
    · exact Or.inl ⟨hne, fills_of_eq heq⟩
    · rw [heq]
      exact Or.inr ⟨hz, .delTarget ht⟩
  | setAcl tgt subnqn host data arg =>
    obtain ⟨r, hr, rfl, rfl⟩ := map_step_eq_ok h
    exact (setJsonAcl_ok hr).imp_right (fun ⟨hz, hadd⟩ => ⟨hz, .setAcl hadd⟩)
  | delAcl tgt subnqn host =>
    cases h
    rcases delJsonAcl_ok root tgt subnqn host with herr | ⟨hz, i, t, j, s, k, ht, hs, hh, heq⟩
    · exact Or.inl herr
    · rw [heq]
      exact Or.inr ⟨hz, .delAcl ht hs hh⟩

end NvmeDem
