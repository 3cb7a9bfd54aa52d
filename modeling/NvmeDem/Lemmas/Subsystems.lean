import NvmeDem.Store.Subsystems
import NvmeDem.Lemmas.Groups

/-!
# What a function on the parts of a target can do

One statement for each function that edits the ports, the subsystems, the namespaces or the access lists: it returns an error
and at most makes an absent array, or it returns zero and puts one changed target in the place of the target it names.
-/

namespace NvmeDem

open Jansson

/-- The first target named `tgt` stands at the place `i` of the store. -/
structure TargetAt (root : Json) (tgt : String) (i : Nat) (t : Json) : Prop where
  first : findArray (root.arrayOr tagTargets) tagAlias tgt = some i
  get : (root.entries tagTargets)[i]? = some t
  key : t.strField tagAlias = some tgt

/-- The first subsystem `subnqn` stands at the place `j` of a target. -/
structure SubsysAt (t : Json) (subnqn : String) (j : Nat) (s : Json) : Prop where
  first : (t.entries tagSubsystems).findIdx? (fun iter => decide (iter.strField tagSubnqn = some subnqn)) = some j
  get : (t.entries tagSubsystems)[j]? = some s
  key : s.strField tagSubnqn = some subnqn

theorem TargetAt.of_find {root targets : Json} {tgt : String} {i : Nat} (ht : root.objectGet tagTargets = some targets)
    (h : findArray targets tagAlias tgt = some i) : TargetAt root tgt i (arrayGet targets i) :=
  ⟨by rw [arrayOr_of_objectGet ht, h], (findArray_objectGet_some ht h).1, (findArray_objectGet_some ht h).2⟩

/-- What `jsonGetArray` gives: the array under the key, which is there from then on. -/
theorem jsonGetArray_some {x x' a : Json} {y : String} (h : jsonGetArray x y = (x', some a)) :
    x' = x.ensureArray y ∧ a.elems = x.entries y ∧ a.isArray = true := by
  unfold jsonGetArray at h
  obtain ⟨rfl, hfilter⟩ := Prod.mk.inj h
  obtain ⟨hget, harr⟩ := Option.filter_eq_some_iff.mp hfilter
  refine ⟨rfl, ?_, harr⟩
  rw [← Json.entries_ensureArray x y y, entries_of_objectGet hget]

theorem jsonGetArray_canPush {x x' a : Json} {y : String} (h : jsonGetArray x y = (x', some a)) : x.canPush y = true := by
  unfold jsonGetArray at h
  obtain ⟨-, hfilter⟩ := Prod.mk.inj h
  obtain ⟨hget, harr⟩ := Option.filter_eq_some_iff.mp hfilter
  have hobj := Json.isObject_of_objectGet hget
  rw [Json.isObject_ensureArray] at hobj
  rw [Json.canPush, hobj, ← Json.arrayOr_ensureArray, arrayOr_of_objectGet hget, harr]
  rfl

theorem SubsysAt.of_find {t obj array : Json} {subnqn : String} {j : Nat}
    (ha : jsonGetArray t tagSubsystems = (obj, some array)) (h : findArray array tagSubnqn subnqn = some j) :
    SubsysAt t subnqn j (arrayGet array j) ∧ obj = t := by
  obtain ⟨rfl, helems, -⟩ := jsonGetArray_some ha
  have hfind := findArray_some h
  rw [helems] at hfind
  exact ⟨⟨helems ▸ h, hfind.1, hfind.2⟩, Json.ensureArray_of_entries hfind.1⟩

theorem not_mem_keys_of_find {t obj array : Json} {y tag name : String} (ha : jsonGetArray t y = (obj, some array))
    (h : findArray array tag name = none) : name ∉ t.keys y tag := by
  rw [Json.keys, ← (jsonGetArray_some ha).2.1]
  exact findArray_none h

/-- A target whose absent array was made fills the store. -/
theorem TargetAt.fills {root t : Json} {tgt : String} {i : Nat} (ht : TargetAt root tgt i t) (k : String) :
    Json.Fills root (root.putAt tagTargets i (t.ensureArray k)) :=
  .putAt ht.get (.ensureArray t k)

/-- A subsystem whose absent array was made fills the store. -/
theorem TargetAt.fills_subsys {root t s : Json} {tgt subnqn : String} {i j : Nat} (ht : TargetAt root tgt i t)
    (hs : SubsysAt t subnqn j s) (k : String) :
    Json.Fills root (root.putAt tagTargets i (t.putAt tagSubsystems j (s.ensureArray k))) :=
  .putAt ht.get (.putAt hs.get (.ensureArray s k))

/-! ## Subsystems -/

/-- The access of a subsystem touches neither its NQN nor its namespaces. -/
theorem objectGet_updateSubsysAccess {k : String} (h₁ : k ≠ tagAllowAny) (h₂ : k ≠ tagHosts) (iter new : Json)
    (arg : SubsysArg) : (updateSubsysAccess iter new arg).1.objectGet k = iter.objectGet k := by
  unfold updateSubsysAccess
  dsimp only
  split
  · exact objectGet_jsonUpdateIntEx_ne h₁ iter new _
  · rw [Json.objectGet_objectDel_ne h₂]
    exact objectGet_jsonUpdateIntEx_ne h₁ iter new _

theorem strField_updateSubsysAccess (iter new : Json) (arg : SubsysArg) :
    (updateSubsysAccess iter new arg).1.strField tagSubnqn = iter.strField tagSubnqn := by
  simp only [Json.strField, objectGet_updateSubsysAccess (k := tagSubnqn) (by decide) (by decide)]

/-- What `setJsonSubsys` makes of the target when it takes a body: `arg` is what the caller passed in. -/
inductive SubsysUpdate (t new : Json) (arg : SubsysArg) : Option String → SubsysArg → Json → Prop
  | change {old nqn : String} {j : Nat} {s s' : Json} (hs : SubsysAt t old j s)
      (hnqn : jsonUpdateStringEx s new tagSubnqn maxNqnSize old = .ok (s', nqn))
      (hfresh : nqn = old ∨ nqn ∉ t.keys tagSubsystems tagSubnqn) :
      SubsysUpdate t new arg (some old) (updateSubsysAccess s' new { arg with nqn := nqn }).2
        (t.putAt tagSubsystems j (updateSubsysAccess s' new { arg with nqn := nqn }).1)
  | create {nqn : String} (hbody : new.strField tagSubnqn = some nqn)
      (hfresh : nqn ∉ t.keys tagSubsystems tagSubnqn) (hpush : t.canPush tagSubsystems = true) :
      SubsysUpdate t new arg none
        (updateSubsysAccess (jsonSetString (.object []) tagSubnqn nqn) new { arg with nqn := nqn }).2
        (t.pushAt tagSubsystems
          (updateSubsysAccess (jsonSetString (.object []) tagSubnqn nqn) new { arg with nqn := nqn }).1)

theorem changeJsonSubsys_ok {root t array new : Json} {tgt old : String} {i j : Nat} {arg : SubsysArg} {r : Reply SubsysArg}
    (h : changeJsonSubsys root tgt old i j t array new arg = .ok r) (hs : SubsysAt t old j (arrayGet array j))
    (hfresh : ∀ nqn, new.strField tagSubnqn = some nqn → nqn = old ∨ nqn ∉ t.keys tagSubsystems tagSubnqn) :
    r.ret = 0 ∧ ∃ t', SubsysUpdate t new arg (some old) r.out t' ∧ r.root = root.putAt tagTargets i t' := by
  unfold changeJsonSubsys at h
  split at h
  · cases h
  · rename_i nqn hcopy
    obtain rfl : old = nqn := Option.some.inj (strcpy_ok hcopy)
    split at h
    · cases h
    · rename_i iter newnqn hupd
      cases h
      refine ⟨rfl, _, .change hs hupd ?_, rfl⟩
      rcases jsonUpdateStringEx_ok hupd with ⟨s, hs, -, -, rfl⟩ | ⟨-, rfl⟩
      · exact hfresh _ hs
      · exact Or.inl rfl

theorem setJsonSubsysBody_ok {J : JsonLib} {root t obj array : Json} {tgt data : String} {subnqn : Option String} {i : Nat}
    {at? : Option Nat} {arg : SubsysArg} {r : Reply SubsysArg}
    (h : setJsonSubsysBody J root tgt subnqn i obj array at? data arg = .ok r) (ht : TargetAt root tgt i t)
    (ha : jsonGetArray t tagSubsystems = (obj, some array)) (hat : subnqn.isSome = at?.isSome)
    (hfound : ∀ n j, subnqn = some n → at? = some j → findArray array tagSubnqn n = some j) :
    (r.ret ≠ 0 ∧ Json.Fills root r.root) ∨
      (r.ret = 0 ∧ ∃ new t', J.loads data = some new ∧ SubsysUpdate t new arg subnqn r.out t' ∧
        r.root = root.putAt tagTargets i t') := by
  have hfill : Json.Fills root (root.putAt tagTargets i obj) := by
    rw [(jsonGetArray_some ha).1]
    exact ht.fills tagSubsystems
  unfold setJsonSubsysBody at h
  split at h
  · cases h
    exact Or.inl ⟨einval_ne, hfill⟩
  · rename_i new hnew
    split at h
    · cases h
    · rename_i nqn hnqn
      obtain ⟨value, hvalue, hcopy⟩ := Option.map_eq_some_iff.mp hnqn
      have hstr : new.strField tagSubnqn = some nqn := by simp [Json.strField, hvalue, strcpy_ok hcopy]
      split at h
      · cases h
        exact Or.inl ⟨eexist_ne, hfill⟩
      · rename_i hexists
        have hfresh : subnqn = some nqn ∨ nqn ∉ t.keys tagSubsystems tagSubnqn := by
          simp only [Bool.and_eq_true, decide_eq_true_eq, not_and_or, not_not] at hexists
          rcases hexists with hnone | heq
          · exact Or.inr (not_mem_keys_of_find ha (Option.not_isSome_iff_eq_none.mp hnone))
          · exact Or.inl heq
        refine Or.inr ?_
        split at h
        · rename_i old j
          obtain ⟨hs, rfl⟩ := SubsysAt.of_find ha (hfound old j rfl rfl)
          obtain ⟨hret, t', hupd, hroot⟩ := changeJsonSubsys_ok h hs (fun n hn => by
            rw [hstr] at hn
            cases hn
            rcases hfresh with heq | hfresh
            · cases heq
              exact Or.inl rfl
            · exact Or.inr hfresh)
          exact ⟨hret, new, t', hnew, hupd, hroot⟩
        · rename_i hcases
          cases h
          obtain rfl : subnqn = none := by
            cases subnqn with
            | none => rfl
            | some n =>
              obtain ⟨j, rfl⟩ := Option.isSome_iff_exists.mp (hat.symm.trans rfl)
              exact absurd rfl (hcases n j rfl)
          refine ⟨rfl, new, _, hnew, .create hstr (hfresh.resolve_left (by simp)) (jsonGetArray_canPush ha), ?_⟩
          simp only [createJsonSubsys, (jsonGetArray_some ha).1, Json.pushAt_ensureArray]
    · rename_i hnone
      split at h
      · rename_i old j
        obtain ⟨hs, rfl⟩ := SubsysAt.of_find ha (hfound old j rfl rfl)
        have hstr : new.strField tagSubnqn = none := by simp [Json.strField, Option.map_eq_none_iff.mp hnone]
        obtain ⟨hret, t', hupd, hroot⟩ := changeJsonSubsys_ok h hs (fun n hn => by
          rw [hstr] at hn
          cases hn)
        exact Or.inr ⟨hret, new, t', hnew, hupd, hroot⟩
      · cases h
        exact Or.inl ⟨einval_ne, hfill⟩

theorem setJsonSubsys_ok {J : JsonLib} {root : Json} {tgt data : String} {subnqn : Option String} {arg : SubsysArg}
    {r : Reply SubsysArg} (h : setJsonSubsys J root tgt subnqn data arg = .ok r) :
    (r.ret ≠ 0 ∧ Json.Fills root r.root) ∨
      (r.ret = 0 ∧ data = "" ∧ subnqn.isSome = true ∧ (∃ i t, TargetAt root tgt i t) ∧ Json.Fills root r.root ∧ r.out = arg) ∨
      (r.ret = 0 ∧ ∃ i t t' new, TargetAt root tgt i t ∧ J.loads data = some new ∧
        SubsysUpdate t new arg subnqn r.out t' ∧ r.root = root.putAt tagTargets i t') := by
  unfold setJsonSubsys at h
  split at h
  · cases h
    exact Or.inl ⟨enoent_ne, .refl root⟩
  · rename_i targets htargets
    split at h
    · cases h
      exact Or.inl ⟨enoent_ne, .refl root⟩
    · rename_i i hi
      have ht := TargetAt.of_find htargets hi
      split at h
      · cases h
        exact Or.inl ⟨einval_ne, .refl root⟩
      · rename_i obj array ha
        have hfill : Json.Fills root (root.putAt tagTargets i obj) := by
          rw [(jsonGetArray_some ha).1]
          exact ht.fills tagSubsystems
        split at h
        · rename_i old
          split at h
          · cases h
            exact Or.inl ⟨enoent_ne, hfill⟩
          · rename_i j hj
            split at h
            · rename_i hdata
              cases h
              exact Or.inr (Or.inl ⟨rfl, hdata, rfl, ⟨i, _, ht⟩, hfill, rfl⟩)
            · have hbody := setJsonSubsysBody_ok h ht ha rfl (by rintro _ _ ⟨⟩ ⟨⟩; exact hj)
              exact hbody.imp_right (fun ⟨hret, new, t', hrest⟩ => Or.inr ⟨hret, i, _, t', new, ht, hrest⟩)
        · split at h
          · cases h
            exact Or.inl ⟨einval_ne, hfill⟩
          · have hbody := setJsonSubsysBody_ok h ht ha rfl (by rintro _ _ ⟨⟩)
            exact hbody.imp_right (fun ⟨hret, new, t', hrest⟩ => Or.inr ⟨hret, i, _, t', new, ht, hrest⟩)

theorem delFromArray_ok {root parent obj : Json} {k tag value subgroup : String} {subnqn : Option String} {i : Nat}
    (hp : root.objectGet k = some parent) (h : delFromArray parent tag value subgroup subnqn = .ok (some (i, obj))) :
    ∃ x j y n, findArray (root.arrayOr k) tag value = some i ∧ (root.entries k)[i]? = some x ∧
      x.strField tag = some value ∧ subnqn = some n ∧
      (x.entries subgroup).findIdx? (fun iter => decide (iter.strField tagSubnqn = some n)) = some j ∧
      (x.entries subgroup)[j]? = some y ∧ y.strField tagSubnqn = some n ∧ obj = x.removeAt subgroup j := by
  unfold delFromArray at h
  split at h
  · cases h
  · rename_i i' hi
    obtain ⟨hx, hkey⟩ := findArray_objectGet_some hp hi
    split at h
    · cases h
    · rename_i array harr
      split at h
      · cases h
      · cases h
      · rename_i j hj
        cases h
        obtain ⟨n, rfl, hn⟩ | ⟨-, hnone⟩ := findArrayPtr_ok hj
        · obtain ⟨hy, hykey⟩ := findArray_objectGet_some harr hn
          exact ⟨_, j, _, n, by rw [arrayOr_of_objectGet hp, hi], hx, hkey, rfl, by rw [entries_of_objectGet harr]; exact hn, hy,
            hykey, rfl⟩
        · cases hnone

theorem delJsonSubsys_ok {root : Json} {tgt : String} {subnqn : Option String} {r : Reply Unit}
    (h : delJsonSubsys root tgt subnqn = .ok r) :
    (r.ret ≠ 0 ∧ r.root = root) ∨
      (r.ret = 0 ∧ ∃ i t j s n, TargetAt root tgt i t ∧ SubsysAt t n j s ∧ subnqn = some n ∧
        r.root = root.putAt tagTargets i (t.removeAt tagSubsystems j)) := by
  unfold delJsonSubsys at h
  split at h
  · cases h
    exact Or.inl ⟨enoent_ne, rfl⟩
  · rename_i targets htargets
    split at h
    · cases h
    · cases h
      exact Or.inl ⟨enoent_ne, rfl⟩
    · rename_i i obj hdel
      cases h
      obtain ⟨t, j, s, n, hfirst, hx, hkey, hn, hsfirst, hy, hykey, rfl⟩ := delFromArray_ok htargets hdel
      exact Or.inr ⟨rfl, i, t, j, s, n, ⟨hfirst, hx, hkey⟩, ⟨hsfirst, hy, hykey⟩, hn, rfl⟩

/-! ## Ports -/

/-- The steps of an update of a port. -/
theorem updatePortFields_ok {p new p' : Json} {arg out : PortArg} (h : updatePortFields p new arg = .ok (p', out)) :
    ∃ p₁ p₂ p₃,
      jsonUpdateStringEx (jsonUpdateIntEx p new tagPortid arg.portid).1 new tagType configTypeSize arg.type =
        .ok (p₁, out.type) ∧
      jsonUpdateStringEx p₁ new tagAddress configAddressSize arg.address = .ok (p₂, out.address) ∧
      jsonUpdateStringEx p₂ new tagFamily configFamilySize arg.family = .ok (p₃, out.family) ∧
      p' = (jsonUpdateIntEx p₃ new tagTrsvcid arg.portNum).1 ∧
      out.portid = (jsonUpdateIntEx p new tagPortid arg.portid).2 ∧
      out.portNum = (jsonUpdateIntEx p₃ new tagTrsvcid arg.portNum).2 := by
  unfold updatePortFields at h
  generalize jsonUpdateIntEx p new tagPortid arg.portid = r at h ⊢
  obtain ⟨⟨p₁, type⟩, h₁, h⟩ := bind_eq_ok h
  obtain ⟨⟨p₂, address⟩, h₂, h⟩ := bind_eq_ok h
  obtain ⟨⟨p₃, family⟩, h₃, h⟩ := bind_eq_ok h
  obtain ⟨hp, hout⟩ := Prod.mk.inj (Except.ok.inj h)
  subst hout
  exact ⟨p₁, p₂, p₃, h₁, h₂, h₃, hp.symm, rfl, rfl⟩

/-- What `setJsonPortid` makes of the target: `id` is the id it looked for. -/
inductive PortUpdate (t new : Json) (arg : PortArg) (id : Int) : PortArg → Json → Prop
  | change {j : Nat} {p p' : Json} {out : PortArg}
      (hfirst : (t.entries tagPortids).findIdx? (fun iter => decide (iter.intField tagPortid = some id)) = some j)
      (hp : (t.entries tagPortids)[j]? = some p) (hid : p.intField tagPortid = some id) (hupd : updatePortFields p new arg = .ok (p', out)) :
      PortUpdate t new arg id out (t.putAt tagPortids j p')
  | create {p' : Json} {out : PortArg} (hfresh : id ∉ t.intKeys tagPortids tagPortid)
      (hpush : t.canPush tagPortids = true) (hupd : updatePortFields (newPort id) new arg = .ok (p', out)) :
      PortUpdate t new arg id out (t.pushAt tagPortids p')

theorem strField_portUpdate {t t' body : Json} {arg out : PortArg} {id : Int} (hupd : PortUpdate t body arg id out t') :
    t'.strField tagAlias = t.strField tagAlias := by
  cases hupd with
  | change => exact Json.strField_putAt_ne (by decide) ..
  | create => exact Json.strField_pushAt_ne (by decide) ..

theorem canPush_portUpdate {t t' body : Json} {arg out : PortArg} {id : Int}
    (hupd : PortUpdate t body arg id out t') : t.canPush tagPortids = true := by
  cases hupd with
  | change hfirst hp => exact Json.canPush_of_entries hp
  | create _ hpush => exact hpush

theorem setJsonPortidBody_ok {root t obj array new : Json} {tgt : String} {id : Int} {i : Nat} {arg : PortArg}
    {r : Reply PortArg} (h : setJsonPortidBody root tgt id i obj array new arg = .ok r)
    (ha : jsonGetArray t tagPortids = (obj, some array)) :
    r.ret = 0 ∧ ∃ t', PortUpdate t new arg id r.out t' ∧ r.root = root.putAt tagTargets i t' := by
  have hpush := jsonGetArray_canPush ha
  obtain ⟨rfl, helems, -⟩ := jsonGetArray_some ha
  unfold setJsonPortidBody at h
  split at h
  · rename_i j hj
    have hfind := findArrayInt_some hj
    rw [helems] at hfind
    split at h
    · cases h
    · rename_i p' out hupd
      cases h
      refine ⟨rfl, _, .change (helems ▸ hj) hfind.1 hfind.2 hupd, ?_⟩
      rw [Json.ensureArray_of_entries hfind.1]
  · rename_i hnone
    have hfresh := findArrayInt_none hnone
    rw [helems] at hfresh
    split at h
    · cases h
    · rename_i p' out hupd
      cases h
      refine ⟨rfl, _, .create hfresh hpush hupd, ?_⟩
      rw [Json.pushAt_ensureArray]

theorem setJsonPortid_ok {J : JsonLib} {root : Json} {tgt data : String} {id : Int} {arg : PortArg} {r : Reply PortArg}
    (h : setJsonPortid J root tgt id data arg = .ok r) :
    (r.ret ≠ 0 ∧ Json.Fills root r.root) ∨
      (r.ret = 0 ∧ ∃ i t t' new, TargetAt root tgt i t ∧ J.loads data = some new ∧ requestPortid id new ≠ 0 ∧
        PortUpdate t new arg (requestPortid id new) r.out t' ∧ r.root = root.putAt tagTargets i t') := by
  unfold setJsonPortid at h
  split at h
  · cases h
    exact Or.inl ⟨enoent_ne, .refl root⟩
  · rename_i targets htargets
    split at h
    · cases h
      exact Or.inl ⟨enoent_ne, .refl root⟩
    · rename_i i hi
      have ht := TargetAt.of_find htargets hi
      split at h
      · cases h
        exact Or.inl ⟨einval_ne, .refl root⟩
      · rename_i obj array ha
        have hfill : Json.Fills root (root.putAt tagTargets i obj) := by
          rw [(jsonGetArray_some ha).1]
          exact ht.fills tagPortids
        split at h
        · cases h
          exact Or.inl ⟨einval_ne, hfill⟩
        · split at h
          · cases h
            exact Or.inl ⟨einval_ne, hfill⟩
          · rename_i new hnew
            split at h
            · cases h
              exact Or.inl ⟨einval_ne, hfill⟩
            · rename_i hid
              obtain ⟨hret, t', hupd, hroot⟩ := setJsonPortidBody_ok h ha
              exact Or.inr ⟨hret, i, _, t', new, ht, hnew, hid, hupd, hroot⟩

theorem delIntFromArray_some {root parent obj : Json} {k tag value subgroup key : String} {val : Int} {i : Nat}
    (hp : root.objectGet k = some parent) (h : delIntFromArray parent tag value subgroup key val = some (i, obj)) :
    ∃ x j y, findArray (root.arrayOr k) tag value = some i ∧ (root.entries k)[i]? = some x ∧
      x.strField tag = some value ∧
      (x.entries subgroup).findIdx? (fun iter => decide (iter.intField key = some val)) = some j ∧
      (x.entries subgroup)[j]? = some y ∧ y.intField key = some val ∧ obj = x.removeAt subgroup j := by
  unfold delIntFromArray at h
  split at h
  · cases h
  · rename_i i' hi
    obtain ⟨hx, hkey⟩ := findArray_objectGet_some hp hi
    split at h
    · cases h
    · rename_i array harr
      split at h
      · cases h
      · rename_i j hj
        cases h
        have hfind := findArrayInt_some hj
        rw [← entries_of_objectGet harr] at hfind
        exact ⟨_, j, _, by rw [arrayOr_of_objectGet hp, hi], hx, hkey, by rw [entries_of_objectGet harr]; exact hj, hfind.1, hfind.2,
          rfl⟩

theorem delJsonPortid_ok (root : Json) (tgt : String) (portid : Int) :
    ((delJsonPortid root tgt portid).ret ≠ 0 ∧ (delJsonPortid root tgt portid).root = root) ∨
      ((delJsonPortid root tgt portid).ret = 0 ∧ ∃ i t j p, TargetAt root tgt i t ∧
        (t.entries tagPortids).findIdx? (fun iter => decide (iter.intField tagPortid = some portid)) = some j ∧
        (t.entries tagPortids)[j]? = some p ∧ p.intField tagPortid = some portid ∧
        (delJsonPortid root tgt portid).root = root.putAt tagTargets i (t.removeAt tagPortids j)) := by
  unfold delJsonPortid
  split
  · exact Or.inl ⟨enoent_ne, rfl⟩
  · rename_i targets htargets
    split
    · exact Or.inl ⟨enoent_ne, rfl⟩
    · rename_i i obj hdel
      obtain ⟨t, j, p, hfirst, hx, hkey, hpfirst, hy, hykey, rfl⟩ := delIntFromArray_some htargets hdel
      exact Or.inr ⟨rfl, i, t, j, p, ⟨hfirst, hx, hkey⟩, hpfirst, hy, hykey, rfl⟩

/-! ## Namespaces -/

/-- What `setJsonNs` makes of the subsystem: `val` is the namespace id of the body. -/
inductive NsUpdate (s new : Json) (arg : NsArg) (val : Int) : NsArg → Json → Prop
  | change {k : Nat} {n : Json}
      (hfirst : (s.entries tagNsids).findIdx? (fun iter => decide (iter.intField tagNsid = some val)) = some k)
      (hn : (s.entries tagNsids)[k]? = some n) (hid : n.intField tagNsid = some val) :
      NsUpdate s new arg val (updateNsFields n new { arg with nsid := val }).2
        (s.putAt tagNsids k (updateNsFields n new { arg with nsid := val }).1)
  | create (hfresh : val ∉ s.intKeys tagNsids tagNsid) (hpush : s.canPush tagNsids = true) :
      NsUpdate s new arg val (updateNsFields (newNs val) new { arg with nsid := val }).2
        (s.pushAt tagNsids (updateNsFields (newNs val) new { arg with nsid := val }).1)

theorem strField_nsUpdate {s new s' : Json} {arg out : NsArg} {val : Int} (hupd : NsUpdate s new arg val out s') :
    s'.strField tagSubnqn = s.strField tagSubnqn := by
  cases hupd with
  | change => exact Json.strField_putAt_ne (by decide) s _ _
  | create => exact Json.strField_pushAt_ne (by decide) s _

theorem canPush_nsUpdate {s s' body : Json} {arg out : NsArg} {nsid : Int}
    (hupd : NsUpdate s body arg nsid out s') : s.canPush tagNsids = true := by
  cases hupd with
  | change hfirst hn => exact Json.canPush_of_entries hn
  | create _ hpush => exact hpush

theorem setJsonNsBody_update {s sub array : Json} (new : Json) (val : Int) (arg : NsArg)
    (ha : jsonGetArray s tagNsids = (sub, some array)) :
    NsUpdate s new arg val (setJsonNsBody sub array new val arg).2 (setJsonNsBody sub array new val arg).1 := by
  have hpush := jsonGetArray_canPush ha
  obtain ⟨rfl, helems, -⟩ := jsonGetArray_some ha
  unfold setJsonNsBody
  split
  · rename_i k hk
    have hfind := findArrayInt_some hk
    rw [helems] at hfind
    rw [Json.ensureArray_of_entries hfind.1]
    exact .change (helems ▸ hk) hfind.1 hfind.2
  · rename_i hnone
    have hfresh := findArrayInt_none hnone
    rw [helems] at hfresh
    simp only [Json.pushAt_ensureArray]
    exact .create hfresh hpush

theorem setJsonNs_ok (J : JsonLib) (root : Json) (tgt subnqn data : String) (arg : NsArg) :
    ((setJsonNs J root tgt subnqn data arg).ret ≠ 0 ∧ Json.Fills root (setJsonNs J root tgt subnqn data arg).root) ∨
      ((setJsonNs J root tgt subnqn data arg).ret = 0 ∧ ∃ i t j s s' new nsid, TargetAt root tgt i t ∧
        SubsysAt t subnqn j s ∧ J.loads data = some new ∧ new.objectGet tagNsid = some nsid ∧
        NsUpdate s new arg (cInt nsid.integerValue) (setJsonNs J root tgt subnqn data arg).out s' ∧
        (setJsonNs J root tgt subnqn data arg).root = root.putAt tagTargets i (t.putAt tagSubsystems j s')) := by
  unfold setJsonNs
  split
  · exact Or.inl ⟨enoent_ne, .refl root⟩
  · rename_i targets htargets
    split
    · exact Or.inl ⟨enoent_ne, .refl root⟩
    · rename_i i hi
      have ht := TargetAt.of_find htargets hi
      split
      · exact Or.inl ⟨enoent_ne, .refl root⟩
      · rename_i obj subsystems hsubs
        split
        · refine Or.inl ⟨enoent_ne, ?_⟩
          rw [(jsonGetArray_some hsubs).1]
          exact ht.fills tagSubsystems
        · rename_i j hj
          obtain ⟨hs, rfl⟩ := SubsysAt.of_find hsubs hj
          split
          · exact Or.inl ⟨einval_ne, .refl root⟩
          · rename_i sub array ha
            split
            · refine Or.inl ⟨einval_ne, ?_⟩
              rw [(jsonGetArray_some ha).1]
              exact ht.fills_subsys hs tagNsids
            · rename_i new nsid hbody
              obtain ⟨new', hnew, hmap⟩ := Option.bind_eq_some_iff.mp hbody
              obtain ⟨nsid', hnsid, heq⟩ := Option.map_eq_some_iff.mp hmap
              cases heq
              exact Or.inr ⟨rfl, i, _, j, _, _, new, nsid, ht, hs, hnew, hnsid, setJsonNsBody_update new _ arg ha, rfl⟩

theorem delJsonNs_ok (root : Json) (tgt subnqn : String) (ns : Int) :
    ((delJsonNs root tgt subnqn ns).ret ≠ 0 ∧ (delJsonNs root tgt subnqn ns).root = root) ∨
      ((delJsonNs root tgt subnqn ns).ret = 0 ∧ ∃ i t j s k n, TargetAt root tgt i t ∧ SubsysAt t subnqn j s ∧
        (s.entries tagNsids).findIdx? (fun iter => decide (iter.intField tagNsid = some ns)) = some k ∧
        (s.entries tagNsids)[k]? = some n ∧ n.intField tagNsid = some ns ∧
        (delJsonNs root tgt subnqn ns).root = root.putAt tagTargets i (t.putAt tagSubsystems j (s.removeAt tagNsids k))) := by
  unfold delJsonNs
  split
  · exact Or.inl ⟨enoent_ne, rfl⟩
  · rename_i targets htargets
    split
    · exact Or.inl ⟨enoent_ne, rfl⟩
    · rename_i i hi
      have ht := TargetAt.of_find htargets hi
      split
      · exact Or.inl ⟨enoent_ne, rfl⟩
      · rename_i array harr
        split
        · exact Or.inl ⟨enoent_ne, rfl⟩
        · rename_i j sub hdel
          obtain ⟨s, k, n, hsfirst, hx, hkey, hnfirst, hy, hykey, rfl⟩ := delIntFromArray_some harr hdel
          have hsfirst : ((arrayGet targets i).entries tagSubsystems).findIdx?
              (fun iter => decide (iter.strField tagSubnqn = some subnqn)) = some j := by
            rwa [findArray, Json.elems_arrayOr] at hsfirst
          exact Or.inr ⟨rfl, i, _, j, s, k, n, ht, ⟨hsfirst, hx, hkey⟩, hnfirst, hy, hykey, rfl⟩

/-! ## Access lists -/

/-- What `setJsonAcl` does when it returns zero: the host, which is there and has an NQN, goes to the end of the list. -/
structure AclAdded (J : JsonLib) (root : Json) (tgt subnqn : String) (host : Option String) (data : String) (out : HostOut)
    (root' : Json) : Prop where
  name : aclAlias J host data = some (.ok out.newalias)
  known : ∃ (h : Nat) (x : Json), (root.entries tagHosts)[h]? = some x ∧ x.strField tagAlias = some out.newalias ∧
    x.strField tagHostnqn = some out.nqn
  added : ∃ i t j s, TargetAt root tgt i t ∧ SubsysAt t subnqn j s ∧ out.newalias ∉ s.strings tagHosts ∧
    root' = root.putAt tagTargets i (t.putAt tagSubsystems j (s.pushAt tagHosts (.string out.newalias)))

/-- The alias that the host is linked by, if the URI names it, is the one that goes to the list. -/
theorem AclAdded.getD_eq {J : JsonLib} {root root' : Json} {tgt subnqn data : String} {host : Option String} {out : HostOut}
    (h : AclAdded J root tgt subnqn host data out root') : host.getD out.newalias = out.newalias := by
  have hname := h.name
  cases host with
  | none => rfl
  | some b => exact Option.some.inj (strcpy_ok (Option.some.inj hname))

theorem setJsonAclBody_ok {J : JsonLib} {root hosts t s : Json} {tgt subnqn newalias data : String} {host : Option String}
    {i j : Nat} {arg : HostOut} {r : Reply HostOut}
    (h : setJsonAclBody root hosts tgt subnqn newalias i j t s arg = .ok r) (hh : root.objectGet tagHosts = some hosts)
    (ht : TargetAt root tgt i t) (hs : SubsysAt t subnqn j s) (hname : aclAlias J host data = some (.ok newalias)) :
    (r.ret ≠ 0 ∧ Json.Fills root r.root) ∨ (r.ret = 0 ∧ AclAdded J root tgt subnqn host data r.out r.root) := by
  unfold setJsonAclBody at h
  split at h
  · cases h
    exact Or.inl ⟨enoent_ne, ht.fills_subsys hs tagHosts⟩
  · rename_i hi hfind
    obtain ⟨hx, hkey⟩ := findArray_objectGet_some hh hfind
    split at h
    · cases h
      exact Or.inl ⟨eexist_ne, ht.fills_subsys hs tagHosts⟩
    · rename_i hlist
      have hnew := findArrayString_none (Option.not_isSome_iff_eq_none.mp hlist)
      rw [Json.elems_arrayOr] at hnew
      split at h
      · cases h
        exact Or.inl ⟨einval_ne, ht.fills_subsys hs tagHosts⟩
      · rename_i value hvalue
        split at h
        · cases h
        · rename_i hostnqn hcopy
          cases h
          have hnqn : (arrayGet hosts hi).strField tagHostnqn = some hostnqn := by
            simp [Json.strField, hvalue, strcpy_ok hcopy]
          exact Or.inr ⟨rfl, hname, ⟨hi, _, hx, hkey, hnqn⟩, ⟨i, t, j, s, ht, hs, hnew, rfl⟩⟩

theorem setJsonAcl_ok {J : JsonLib} {root : Json} {tgt subnqn data : String} {host : Option String} {arg : HostOut}
    {r : Reply HostOut} (h : setJsonAcl J root tgt subnqn host data arg = .ok r) :
    (r.ret ≠ 0 ∧ Json.Fills root r.root) ∨ (r.ret = 0 ∧ AclAdded J root tgt subnqn host data r.out r.root) := by
  unfold setJsonAcl at h
  split at h
  · cases h
    exact Or.inl ⟨enoent_ne, .refl root⟩
  · rename_i hosts hhosts
    split at h
    · cases h
      exact Or.inl ⟨enoent_ne, .refl root⟩
    · rename_i targets htargets
      split at h
      · cases h
        exact Or.inl ⟨enoent_ne, .refl root⟩
      · rename_i i hi
        have ht := TargetAt.of_find htargets hi
        split at h
        · cases h
          exact Or.inl ⟨enoent_ne, .refl root⟩
        · rename_i obj array ha
          split at h
          · cases h
            refine Or.inl ⟨enoent_ne, ?_⟩
            rw [(jsonGetArray_some ha).1]
            exact ht.fills tagSubsystems
          · rename_i j hj
            obtain ⟨hs, rfl⟩ := SubsysAt.of_find ha hj
            split at h
            · cases h
              exact Or.inl ⟨einval_ne, ht.fills_subsys hs tagHosts⟩
            · cases h
            · rename_i newalias hname
              exact setJsonAclBody_ok h hhosts ht hs hname

theorem delJsonAcl_ok (root : Json) (tgt subnqn host : String) :
    ((delJsonAcl root tgt subnqn host).ret ≠ 0 ∧ Json.Fills root (delJsonAcl root tgt subnqn host).root) ∨
      ((delJsonAcl root tgt subnqn host).ret = 0 ∧ ∃ i t j s k, TargetAt root tgt i t ∧ SubsysAt t subnqn j s ∧
        (s.entries tagHosts)[k]? = some (.string host) ∧
        (delJsonAcl root tgt subnqn host).root =
          root.putAt tagTargets i (t.putAt tagSubsystems j (s.removeAt tagHosts k))) := by
  unfold delJsonAcl
  split
  · exact Or.inl ⟨enoent_ne, .refl root⟩
  · rename_i targets htargets
    split
    · exact Or.inl ⟨enoent_ne, .refl root⟩
    · rename_i i hi
      have ht := TargetAt.of_find htargets hi
      split
      · exact Or.inl ⟨enoent_ne, .refl root⟩
      · rename_i obj array ha
        have hfill : Json.Fills root (root.putAt tagTargets i obj) := by
          rw [(jsonGetArray_some ha).1]
          exact ht.fills tagSubsystems
        split
        · exact Or.inl ⟨enoent_ne, hfill⟩
        · rename_i j hj
          obtain ⟨hs, rfl⟩ := SubsysAt.of_find ha hj
          split
          · exact Or.inl ⟨enoent_ne, hfill⟩
          · rename_i list hlist
            split
            · exact Or.inl ⟨enoent_ne, hfill⟩
            · rename_i k hk
              have hget := findArrayString_some hk
              rw [← entries_of_objectGet hlist] at hget
              exact Or.inr ⟨rfl, i, _, j, _, k, ht, hs, hget, rfl⟩

end NvmeDem
