import NvmeDem.Lemmas.Targets

/-!
# Fields set again

The entries of the store are set from a body field by field. What one request has set, the same request does not change: a text or a
number is there already, a field that is deleted is absent, and what the caller is given is the same.
-/

namespace NvmeDem

open Jansson

/-! ## Fields -/

section

variable {v w w' x : Json} {y z res res' : String} {size : Nat}

theorem jsonSetString_again (hget : v.objectGet y = (jsonSetString w y z).objectGet y) (hobj : v.isObject = w.isObject) :
    jsonSetString v y z = v := by
  cases hw : w.isObject with
  | false =>
    rw [hw] at hobj
    unfold jsonSetString
    rw [Json.objectGet_of_not_isObject hobj]
    exact Json.objectSet_of_not_isObject hobj y _
  | true =>
    unfold jsonSetString at hget ⊢
    cases hold : w.objectGet y with
    | none =>
      rw [hold] at hget
      have hset : v.objectGet y = some (.string z) := by simpa [hw] using hget
      rw [hset]
      exact Json.objectSet_objectGet hset
    | some old =>
      rw [hold] at hget
      cases old with
      | string s =>
        have hset : v.objectGet y = some (.string z) := by simpa [hw] using hget
        rw [hset]
        exact Json.objectSet_objectGet hset
      | _ =>
        dsimp only at hget
        rw [hget, hold]

theorem jsonSetInt_again {n : Int} (hget : v.objectGet y = (jsonSetInt w y n).objectGet y) (hobj : v.isObject = w.isObject) :
    jsonSetInt v y n = v := by
  cases hw : w.isObject with
  | false =>
    rw [hw] at hobj
    unfold jsonSetInt
    rw [Json.objectGet_of_not_isObject hobj]
    exact Json.objectSet_of_not_isObject hobj y _
  | true =>
    unfold jsonSetInt at hget ⊢
    cases hold : w.objectGet y with
    | none =>
      rw [hold] at hget
      have hset : v.objectGet y = some (.integer n) := by simpa [hw] using hget
      rw [hset]
      exact Json.objectSet_objectGet hset
    | some old =>
      rw [hold] at hget
      cases old with
      | integer m =>
        have hset : v.objectGet y = some (.integer n) := by simpa [hw] using hget
        rw [hset]
        exact Json.objectSet_objectGet hset
      | _ =>
        dsimp only at hget
        rw [hget, hold]

/-- A text that was set from a body is set again, whatever became of the other fields. -/
theorem jsonUpdateStringEx_again (h : jsonUpdateStringEx w x y size res = .ok (w', res')) (hget : v.objectGet y = w'.objectGet y)
    (hobj : v.isObject = w'.isObject) : jsonUpdateStringEx v x y size res = .ok (v, res') := by
  rw [isObject_jsonUpdateStringEx h] at hobj
  unfold jsonUpdateStringEx at h ⊢
  cases hx : x.objectGet y with
  | none =>
    rw [hx] at h
    cases h
    rfl
  | some value =>
    rw [hx] at h
    dsimp only at h ⊢
    rw [hobj]
    split at h
    · rename_i hw
      rw [if_pos hw]
      split at h
      · cases h
      · rename_i s hcopy
        cases h
        rw [jsonSetString_again hget hobj]
    · rename_i hw
      cases h
      rw [if_neg hw]

theorem jsonUpdateIntEx_again {n : Int} (hget : v.objectGet y = (jsonUpdateIntEx w x y n).1.objectGet y)
    (hobj : v.isObject = w.isObject) : jsonUpdateIntEx v x y n = (v, (jsonUpdateIntEx w x y n).2) := by
  unfold jsonUpdateIntEx at hget ⊢
  cases hx : x.objectGet y with
  | none => rfl
  | some value =>
    rw [hx] at hget
    dsimp only at hget ⊢
    rw [hobj]
    split at hget
    · rename_i hw
      rw [if_pos hw, if_pos hw, jsonSetInt_again hget hobj]
    · rename_i hw
      rw [if_neg hw, if_neg hw]

end

/-! ## Records -/

section

variable {iter iter' new obj obj' newobj : Json}

theorem updatePortFields_again {arg out : PortArg} (h : updatePortFields iter new arg = .ok (iter', out)) :
    updatePortFields iter' new arg = .ok (iter', out) := by
  obtain ⟨p₁, p₂, p₃, h₁, h₂, h₃, hiter, hid, hnum⟩ := updatePortFields_ok h
  have hobj₁ := isObject_jsonUpdateStringEx h₁
  have hobj₂ := isObject_jsonUpdateStringEx h₂
  have hobj₃ := isObject_jsonUpdateStringEx h₃
  have hobj : iter'.isObject = p₃.isObject := by rw [hiter, isObject_jsonUpdateIntEx]
  have hrest : ∀ k, k ≠ tagTrsvcid → iter'.objectGet k = p₃.objectGet k := by
    intro k hk
    rw [hiter, objectGet_jsonUpdateIntEx_ne hk]
  have hgetId : iter'.objectGet tagPortid = (jsonUpdateIntEx iter new tagPortid arg.portid).1.objectGet tagPortid := by
    rw [hrest _ (by decide), objectGet_jsonUpdateStringEx_ne (by decide) h₃, objectGet_jsonUpdateStringEx_ne (by decide) h₂,
      objectGet_jsonUpdateStringEx_ne (by decide) h₁]
  have hgetType : iter'.objectGet tagType = p₁.objectGet tagType := by
    rw [hrest _ (by decide), objectGet_jsonUpdateStringEx_ne (by decide) h₃, objectGet_jsonUpdateStringEx_ne (by decide) h₂]
  have hgetAddress : iter'.objectGet tagAddress = p₂.objectGet tagAddress := by
    rw [hrest _ (by decide), objectGet_jsonUpdateStringEx_ne (by decide) h₃]
  unfold updatePortFields
  rw [jsonUpdateIntEx_again hgetId (by rw [hobj, hobj₃, hobj₂, hobj₁, isObject_jsonUpdateIntEx])]
  simp only [bind, Except.bind, pure, Except.pure]
  rw [jsonUpdateStringEx_again h₁ hgetType (by rw [hobj, hobj₃, hobj₂])]
  dsimp only
  rw [jsonUpdateStringEx_again h₂ hgetAddress (by rw [hobj, hobj₃])]
  dsimp only
  rw [jsonUpdateStringEx_again h₃ (hrest _ (by decide)) hobj]
  dsimp only
  rw [jsonUpdateIntEx_again (by rw [hiter]) hobj, ← hid, ← hnum]

theorem updateNsFields_again (iter new : Json) (arg : NsArg) :
    updateNsFields (updateNsFields iter new arg).1 new arg = updateNsFields iter new arg := by
  have hget : (updateNsFields iter new arg).1.objectGet tagDevid = (jsonUpdateIntEx iter new tagDevid arg.devid).1.objectGet tagDevid :=
    objectGet_jsonUpdateIntEx_ne (by decide) _ new _
  have hobj : (updateNsFields iter new arg).1.isObject = (jsonUpdateIntEx iter new tagDevid arg.devid).1.isObject :=
    isObject_jsonUpdateIntEx _ new _ _
  have hlast : (updateNsFields iter new arg).1.objectGet tagDevnsid =
      (jsonUpdateIntEx (jsonUpdateIntEx iter new tagDevid arg.devid).1 new tagDevnsid arg.devns).1.objectGet tagDevnsid := rfl
  have hsame : updateNsFields iter new arg = ((updateNsFields iter new arg).1, (updateNsFields iter new arg).2) := rfl
  generalize (updateNsFields iter new arg).1 = v at hget hobj hlast hsame ⊢
  conv_lhs => unfold updateNsFields
  rw [jsonUpdateIntEx_again hget (by rw [hobj, isObject_jsonUpdateIntEx])]
  dsimp only
  rw [jsonUpdateIntEx_again hlast hobj, hsame]
  rfl

theorem updateSubsysAccess_again (iter new : Json) (arg : SubsysArg) :
    updateSubsysAccess (updateSubsysAccess iter new arg).1 new arg = updateSubsysAccess iter new arg := by
  have hget : (updateSubsysAccess iter new arg).1.objectGet tagAllowAny =
      (jsonUpdateIntEx iter new tagAllowAny arg.access).1.objectGet tagAllowAny := by
    unfold updateSubsysAccess
    dsimp only
    split
    · rfl
    · exact Json.objectGet_objectDel_ne (by decide) _
  have hobj : (updateSubsysAccess iter new arg).1.isObject = iter.isObject := by
    unfold updateSubsysAccess
    dsimp only
    split <;> simp [isObject_jsonUpdateIntEx]
  have hdel : (jsonUpdateIntEx iter new tagAllowAny arg.access).2 ≠ restricted →
      (updateSubsysAccess iter new arg).1.objectDel tagHosts = (updateSubsysAccess iter new arg).1 := by
    intro haccess
    unfold updateSubsysAccess
    dsimp only
    rw [if_neg haccess]
    exact Json.objectDel_of_none (Json.objectGet_objectDel_self _ _)
  have hsame : updateSubsysAccess iter new arg = ((updateSubsysAccess iter new arg).1, (updateSubsysAccess iter new arg).2) := rfl
  generalize (updateSubsysAccess iter new arg).1 = v at hget hobj hdel hsame ⊢
  conv_lhs => unfold updateSubsysAccess
  rw [jsonUpdateIntEx_again hget hobj, hsame]
  dsimp only
  refine Prod.ext ?_ rfl
  dsimp only
  split
  · rfl
  · rename_i haccess
    exact hdel haccess

theorem updateOobInterface_again {oob oob' : OobIface} (h : updateOobInterface obj newobj oob = .ok (obj', oob')) :
    updateOobInterface obj' newobj oob = .ok (obj', oob') := by
  unfold updateOobInterface at h
  obtain ⟨⟨o₁, family⟩, h₁, h⟩ := bind_eq_ok h
  obtain ⟨⟨o₂, address⟩, h₂, h⟩ := bind_eq_ok h
  obtain ⟨hlast, hout⟩ : (jsonUpdateIntEx o₂ newobj tagIfport oob.port).1 = obj' ∧
      OobIface.mk address (jsonUpdateIntEx o₂ newobj tagIfport oob.port).2 = oob' := Prod.mk.inj (Except.ok.inj h)
  have hrest : ∀ k, k ≠ tagIfport → obj'.objectGet k = o₂.objectGet k := by
    intro k hk
    rw [← hlast]
    exact objectGet_jsonUpdateIntEx_ne hk o₂ newobj oob.port
  have hobj : obj'.isObject = o₂.isObject := by
    rw [← hlast]
    exact isObject_jsonUpdateIntEx o₂ newobj tagIfport oob.port
  have hfamily : obj'.objectGet tagIffamily = o₁.objectGet tagIffamily := by
    rw [hrest _ (by decide), objectGet_jsonUpdateStringEx_ne (by decide) h₂]
  -- what is deleted is not set afterwards
  have hgone : ∀ k ∈ [tagType, tagFamily, tagAddress, tagTrsvcid], obj'.objectGet k = none := by
    intro k hk
    have hset : k ≠ tagIffamily ∧ k ≠ tagIfaddress ∧ k ≠ tagIfport := by
      revert k
      decide
    rw [hrest k hset.2.2, objectGet_jsonUpdateStringEx_ne hset.2.1 h₂, objectGet_jsonUpdateStringEx_ne hset.1 h₁]
    simp only [List.mem_cons, List.not_mem_nil, or_false] at hk
    rcases hk with rfl | rfl | rfl | rfl <;> simp [Json.objectGet_objectDel_ne, tagType, tagFamily, tagAddress, tagTrsvcid]
  unfold updateOobInterface
  rw [Json.objectDel_of_none (hgone tagType (by simp)), Json.objectDel_of_none (hgone tagFamily (by simp)),
    Json.objectDel_of_none (hgone tagAddress (by simp)), Json.objectDel_of_none (hgone tagTrsvcid (by simp))]
  simp only [bind, Except.bind, pure, Except.pure]
  rw [jsonUpdateStringEx_again h₁ hfamily (by rw [hobj, isObject_jsonUpdateStringEx h₂])]
  dsimp only
  rw [jsonUpdateStringEx_again h₂ (hrest _ (by decide)) hobj]
  dsimp only
  rw [jsonUpdateIntEx_again (congrArg (fun j => j.objectGet tagIfport) hlast.symm) hobj, ← hout]

theorem updateInbInterface_again {inb inb' : PortArg} (h : updateInbInterface obj newobj inb = .ok (obj', inb')) :
    updateInbInterface obj' newobj inb = .ok (obj', inb') := by
  unfold updateInbInterface at h
  obtain ⟨⟨o₁, type⟩, h₁, h⟩ := bind_eq_ok h
  obtain ⟨⟨o₂, family⟩, h₂, h⟩ := bind_eq_ok h
  obtain ⟨⟨o₃, address⟩, h₃, h⟩ := bind_eq_ok h
  obtain ⟨hlast, hout⟩ : (jsonUpdateIntEx o₃ newobj tagTrsvcid inb.portNum).1 = obj' ∧
      PortArg.mk inb.portid type family address (jsonUpdateIntEx o₃ newobj tagTrsvcid inb.portNum).2 = inb' :=
    Prod.mk.inj (Except.ok.inj h)
  have hrest : ∀ k, k ≠ tagTrsvcid → obj'.objectGet k = o₃.objectGet k := by
    intro k hk
    rw [← hlast]
    exact objectGet_jsonUpdateIntEx_ne hk o₃ newobj inb.portNum
  have hobj : obj'.isObject = o₃.isObject := by
    rw [← hlast]
    exact isObject_jsonUpdateIntEx o₃ newobj tagTrsvcid inb.portNum
  have hfamily : obj'.objectGet tagFamily = o₂.objectGet tagFamily := by
    rw [hrest _ (by decide), objectGet_jsonUpdateStringEx_ne (by decide) h₃]
  have htype : obj'.objectGet tagType = o₁.objectGet tagType := by
    rw [hrest _ (by decide), objectGet_jsonUpdateStringEx_ne (by decide) h₃, objectGet_jsonUpdateStringEx_ne (by decide) h₂]
  have hgone : ∀ k ∈ [tagIffamily, tagIfaddress, tagIfport], obj'.objectGet k = none := by
    intro k hk
    have hset : k ≠ tagType ∧ k ≠ tagFamily ∧ k ≠ tagAddress ∧ k ≠ tagTrsvcid := by
      revert k
      decide
    rw [hrest k hset.2.2.2, objectGet_jsonUpdateStringEx_ne hset.2.2.1 h₃, objectGet_jsonUpdateStringEx_ne hset.2.1 h₂,
      objectGet_jsonUpdateStringEx_ne hset.1 h₁]
    simp only [List.mem_cons, List.not_mem_nil, or_false] at hk
    rcases hk with rfl | rfl | rfl <;> simp [Json.objectGet_objectDel_ne, tagIffamily, tagIfaddress, tagIfport]
  unfold updateInbInterface
  rw [Json.objectDel_of_none (hgone tagIffamily (by simp)), Json.objectDel_of_none (hgone tagIfaddress (by simp)),
    Json.objectDel_of_none (hgone tagIfport (by simp))]
  simp only [bind, Except.bind, pure, Except.pure]
  rw [jsonUpdateStringEx_again h₁ htype (by rw [hobj, isObject_jsonUpdateStringEx h₃, isObject_jsonUpdateStringEx h₂])]
  dsimp only
  rw [jsonUpdateStringEx_again h₂ hfamily (by rw [hobj, isObject_jsonUpdateStringEx h₃])]
  dsimp only
  rw [jsonUpdateStringEx_again h₃ (hrest _ (by decide)) hobj]
  dsimp only
  rw [jsonUpdateIntEx_again (congrArg (fun j => j.objectGet tagTrsvcid) hlast.symm) hobj, ← hout]

theorem isObject_updateInterface {target target' : TargetArg} (h : updateInterface iter new target = .ok (iter', target')) :
    iter'.isObject = iter.isObject := by
  unfold updateInterface at h
  split at h
  · cases h
    exact Json.isObject_objectDel iter _
  · split at h
    · cases h
      rfl
    · obtain ⟨r, -, heq⟩ := map_eq_ok h
      cases heq
      exact Json.isObject_objectSet iter _ _
  · split at h
    · cases h
      rfl
    · obtain ⟨r, -, heq⟩ := map_eq_ok h
      cases heq
      exact Json.isObject_objectSet iter _ _

/-- An interface that was put into an object is read from it. -/
theorem getD_interface (hobj : iter.isObject = true) (v : Json) :
    ((iter.objectSet tagInterface v).objectGet tagInterface).getD (.object []) = v := by
  rw [Json.objectGet_objectSet_self hobj, Option.getD_some]

theorem updateInterface_again {target target' : TargetArg} (hobj : iter.isObject = true)
    (h : updateInterface iter new target = .ok (iter', target')) : updateInterface iter' new target = .ok (iter', target') := by
  unfold updateInterface at h ⊢
  split at h
  · cases h
    rw [Json.objectDel_of_none (Json.objectGet_objectDel_self _ _)]
  · cases hnew : new.objectGet tagInterface with
    | none =>
      rw [hnew] at h
      cases h
      rfl
    | some newobj =>
      rw [hnew] at h
      obtain ⟨⟨obj, oob⟩, hset, heq⟩ := map_eq_ok h
      cases heq
      dsimp only
      rw [getD_interface hobj, updateOobInterface_again hset, Except.map, Json.objectSet_objectSet]
  · cases hnew : new.objectGet tagInterface with
    | none =>
      rw [hnew] at h
      cases h
      rfl
    | some newobj =>
      rw [hnew] at h
      obtain ⟨⟨obj, inb⟩, hset, heq⟩ := map_eq_ok h
      cases heq
      dsimp only
      rw [getD_interface hobj, updateInbInterface_again hset, Except.map, Json.objectSet_objectSet]

theorem updateTargetFields_again {target target' : TargetArg} (hobj : iter.isObject = true)
    (h : updateTargetFields iter new target = .ok (iter', target')) :
    updateTargetFields iter' new target = .ok (iter', target') := by
  unfold updateTargetFields at h
  obtain ⟨⟨iter₂, mode⟩, hmode, h⟩ := bind_eq_ok h
  replace hmode : jsonUpdateStringEx (jsonUpdateIntEx iter new tagRefresh target.refresh).1 new tagMgmtMode maxString "" =
      .ok (iter₂, mode) := hmode
  replace h : updateInterface iter₂ new
      { target with refresh := (jsonUpdateIntEx iter new tagRefresh target.refresh).2, mgmtMode := getMgmtMode mode } =
        .ok (iter', target') := h
  have hobj₂ := isObject_jsonUpdateStringEx hmode
  have hobj' := isObject_updateInterface h
  have hrefresh : iter'.objectGet tagRefresh = (jsonUpdateIntEx iter new tagRefresh target.refresh).1.objectGet tagRefresh := by
    rw [objectGet_updateInterface h (by decide), objectGet_jsonUpdateStringEx_ne (by decide) hmode]
  unfold updateTargetFields
  rw [jsonUpdateIntEx_again hrefresh (by rw [hobj', hobj₂, isObject_jsonUpdateIntEx])]
  simp only [bind, Except.bind]
  rw [jsonUpdateStringEx_again hmode (objectGet_updateInterface h (by decide)) hobj']
  exact updateInterface_again (by rw [hobj₂, isObject_jsonUpdateIntEx, hobj]) h

end

end NvmeDem
