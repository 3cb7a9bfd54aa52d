import NvmeDem.Lemmas.Effects
import NvmeDem.Lib.Table

/-!
# Port ids

`setJsonPortid` looks a port up by the id of the URI and then writes the id of the body into the entry it found or made. The ids
of the ports of a target stay distinct as long as the id that is written is the one that was looked up, or is new to the target.
-/

namespace NvmeDem

open Jansson

/-- The ports of a target have distinct ids. -/
def PortTable (t : Json) : Prop := Table t tagPortids (Json.intField tagPortid) (fun _ => True)

def isPortOp : StoreOp → Bool
  | .setPortid _ _ _ _ | .delPortid _ _ => true
  | _ => false

def portOps : Json → StoreOp → Prop := fun _ op => isPortOp op = true

/-- The id that the body writes is the id that is looked up, or the target has no port with it; or the body writes none. -/
def WritesFreeId (J : JsonLib) (root : Json) : StoreOp → Prop
  | .setPortid tgt id data _ => ∀ i t new value, TargetAt root tgt i t → J.loads data = some new →
      new.objectGet tagPortid = some value →
      value.integerValue = requestPortid id new ∨ value.integerValue ∉ t.intKeys tagPortids tagPortid
  | _ => True

/-! ## The entry a request writes -/

theorem objectGet_updatePortFields {p new p' : Json} {arg out : PortArg}
    (h : updatePortFields p new arg = .ok (p', out)) :
    p'.objectGet tagPortid = (jsonUpdateIntEx p new tagPortid arg.portid).1.objectGet tagPortid := by
  obtain ⟨p₁, p₂, p₃, h₁, h₂, h₃, rfl, -, -⟩ := updatePortFields_ok h
  rw [objectGet_jsonUpdateIntEx_ne (by decide), objectGet_jsonUpdateStringEx_ne (by decide) h₃,
    objectGet_jsonUpdateStringEx_ne (by decide) h₂, objectGet_jsonUpdateStringEx_ne (by decide) h₁]

/-- The id of an entry after a request: the one of the body, or the one it had. -/
theorem intField_updatePortFields {p new p' : Json} {arg out : PortArg} {id : Int}
    (h : updatePortFields p new arg = .ok (p', out)) (hid : p.intField tagPortid = some id) :
    p'.intField tagPortid = some (((new.objectGet tagPortid).map Json.integerValue).getD id) := by
  have hobj := Json.isObject_of_intField hid
  rw [Json.intField, objectGet_updatePortFields h, ← Json.intField]
  cases hnew : new.objectGet tagPortid with
  | none => simpa [jsonUpdateIntEx, hnew] using hid
  | some value =>
    simp only [jsonUpdateIntEx, hnew, hobj, if_true, Option.map_some, Option.getD_some]
    exact intField_jsonSetInt_self hobj (Or.inl (by rw [hid]; rfl))

theorem intField_newPort (id : Int) : (newPort id).intField tagPortid = some id :=
  intField_jsonSetInt_self rfl (Or.inr rfl)

theorem PortTable.update {t new t' : Json} {arg out : PortArg} {id : Int} (h : PortTable t)
    (hfree : ∀ value, new.objectGet tagPortid = some value →
      value.integerValue = id ∨ value.integerValue ∉ t.intKeys tagPortids tagPortid)
    (hupd : PortUpdate t new arg id out t') : PortTable t' := by
  cases hupd with
  | @change j p p' _ _ hp hid hupd =>
    have hnew := intField_updatePortFields hupd hid
    cases hbody : new.objectGet tagPortid with
    | none => exact Table.putAt_same h hp (by rw [hnew, hbody, hid]; rfl) trivial
    | some value =>
      rcases hfree value hbody with heq | hfresh
      · exact Table.putAt_same h hp (by rw [hnew, hbody, hid, ← heq]; rfl) trivial
      · exact Table.putAt_fresh h hp (by rw [hnew, hbody]; rfl) hfresh trivial
  | @create p' _ hfresh _ hupd =>
    have hnew := intField_updatePortFields hupd (intField_newPort id)
    refine Table.pushAt h ?_ trivial
    intro b hb
    rw [hnew] at hb
    cases hbody : new.objectGet tagPortid with
    | none =>
      rw [hbody] at hb
      cases hb
      exact hfresh
    | some value =>
      rw [hbody] at hb
      cases hb
      rcases hfree value hbody with heq | hfree
      · show value.integerValue ∉ _
        rw [heq]
        exact hfresh
      · exact hfree

/-! ## Steps and runs -/

/-- Every target of the store keeps distinct port ids. -/
def PortsDistinct (root : Json) : Prop := ∀ t ∈ root.entries tagTargets, PortTable t

theorem PortsDistinct.of_fills {root root' : Json} (h : PortsDistinct root) (hf : Json.Fills root root') :
    PortsDistinct root' := by
  intro t' ht'
  obtain ⟨t, ht, hfill⟩ := hf.mem_entries ht'
  exact Table.of_fills (h t ht) (fun hx => hx.intField _) (fun _ _ => trivial) hfill

theorem PortsDistinct.putTarget {root t' : Json} {i : Nat} (h : PortsDistinct root) (ht' : PortTable t') :
    PortsDistinct (root.putAt tagTargets i t') := by
  unfold PortsDistinct
  rw [Json.entries_putAt]
  exact Keyed.forall_mem_set h ht'

theorem PortsDistinct.effect {J : JsonLib} {root root' : Json} {op : StoreOp} (h : PortsDistinct root)
    (hop : isPortOp op = true) (hfree : WritesFreeId J root op) (he : Effect J root op root') : PortsDistinct root' := by
  cases he with
  | @setPortid tgt data id arg out i t t' new ht hnew hupd =>
    have htab := h t (List.mem_of_getElem? ht.get)
    exact h.putTarget (htab.update (fun value hvalue => hfree i t new value ht hnew hvalue) hupd)
  | delPortid ht => exact h.putTarget (Table.removeAt (h _ (List.mem_of_getElem? ht.get)) _)
  | _ => cases hop

/-- No target has two ports with one id, in every run whose requests write the id they look up or one the target has not. -/
theorem port_ids_distinct (J : JsonLib) (root₀ root : Json)
    (h₀ : ∀ t ∈ root₀.entries tagTargets, t.entries tagPortids = [])
    (h : Run (storeStep J) (fun root op => isPortOp op = true ∧ WritesFreeId J root op) root₀ root) :
    ∀ t ∈ root.entries tagTargets, (t.intKeys tagPortids tagPortid).Nodup := by
  have hinv : PortsDistinct root := by
    refine Run.invariant h (fun t ht => Table.of_nil (h₀ t ht)) ?_
    rintro s op s' hi ⟨hop, hfree⟩ ⟨ret, hrun⟩
    rcases run_cases hrun with ⟨-, hfill⟩ | ⟨-, he⟩
    · exact hi.of_fills hfill
    · exact hi.effect hop hfree he
  exact fun t ht => (hinv t ht).nodup

/-- A store with one target, which has the ports `ports`. -/
def oneTarget (ports : List Json) : Json :=
  .object [(tagTargets, .array [.object [(tagAlias, .string "t"), (tagPortids, .array ports)]])]

/-- The texts of two bodies, each of which gives the id of a port. -/
def portOneText : String := "\x7b\"PORTID\":1\x7d"
def portTwoText : String := "\x7b\"PORTID\":2\x7d"

def twoBodies : JsonLib :=
  .ofTexts [(portOneText, .object [(tagPortid, .integer 1)]), (portTwoText, .object [(tagPortid, .integer 2)])]

theorem port_ids_distinct_two :
    ((Json.object [(tagAlias, .string "t"), (tagPortids, .array [newPort 1, newPort 2])]).intKeys tagPortids
      tagPortid).Nodup :=
  port_ids_distinct twoBodies (oneTarget []) (oneTarget [newPort 1, newPort 2])
    (by intro t ht; rw [List.mem_singleton.mp ht]; rfl)
    (Run.call (.setPortid "t" 0 portTwoText ⟨0, "", "", "", 0⟩)
      (Run.call (.setPortid "t" 1 portOneText ⟨0, "", "", "", 0⟩) .start
        ⟨rfl, fun i t new value _ hnew hvalue => by cases hnew; cases hvalue; exact Or.inl rfl⟩ rfl)
      ⟨rfl, fun i t new value _ hnew hvalue => by cases hnew; cases hvalue; exact Or.inl rfl⟩ rfl)
    _ (List.mem_singleton.mpr rfl)

/-- Port 2 is looked up and takes the id of port 1, which the target has. -/
theorem port_ids_repeat :
    ¬∀ root, Run (storeStep twoBodies) portOps (oneTarget []) root →
      ∀ t ∈ root.entries tagTargets, (t.intKeys tagPortids tagPortid).Nodup := by
  intro h
  have hrun := h (oneTarget [newPort 1, newPort 1])
    (Run.call (.setPortid "t" 2 portOneText ⟨0, "", "", "", 0⟩)
      (Run.call (.setPortid "t" 2 portTwoText ⟨0, "", "", "", 0⟩)
        (Run.call (.setPortid "t" 1 portOneText ⟨0, "", "", "", 0⟩) .start rfl rfl) rfl rfl) rfl rfl)
    _ (List.mem_singleton.mpr rfl)
  exact absurd hrun (by decide)

end NvmeDem
