import NvmeDem.Dem.Requests
import NvmeDem.Lemmas.Paired

/-!
# The ports of a target, in the store and in the lists

A request on a port gives a body. The store takes the fields that the body has and keeps the others; the record takes every
field of a variable that the store function fills in from the body and that holds whatever it held where the body has nothing.
A number is stored as it is given and kept in the record as a C `int`. So the record stays the same as the entry if the body has
every field of a port and numbers that a C `int` holds.
-/

namespace NvmeDem

open Jansson Keyed

/-- A record of a port has the fields of its entry. -/
structure SamePort (p : Json) (portid : Portid) : Prop where
  type : p.strField tagType = some portid.type
  family : p.strField tagFamily = some portid.family
  address : p.strField tagAddress = some portid.address
  portNum : p.intField tagTrsvcid = some portid.portNum

/-- The ports of an entry and of its record, pair by pair. -/
def SamePorts (t : Json) (target : Target) : Prop :=
  Pairs (Json.intField tagPortid) Portid.portid SamePort (t.entries tagPortids) target.portidList

theorem SamePort.of_fills {p p' : Json} {portid : Portid} (h : SamePort p portid) (hfill : Json.Fills p p') :
    SamePort p' portid :=
  ⟨by rw [hfill.strField, h.type], by rw [hfill.strField, h.family], by rw [hfill.strField, h.address],
    by rw [hfill.intField, h.portNum]⟩

theorem SamePorts.of_fills {t t' : Json} {target : Target} (h : SamePorts t target) (hfill : Json.Fills t t') :
    SamePorts t' target :=
  Pairs.of_left (hfill.entries tagPortids) h (fun hp => hp.intField tagPortid) (fun hp hrel => hrel.of_fills hp)

theorem SamePorts.logEvent {t : Json} {target : Target} (h : SamePorts t target) (e : LogEvent) :
    SamePorts t (target.logEvent e) := by
  rw [logEvent_eq]
  exact h

/-! ## What a body gives -/

/-- A body has a number that a C `int` holds. -/
def GivesInt (body : Json) (k : String) : Prop :=
  ∃ z, body.objectGet k = some z ∧ cInt z.integerValue = z.integerValue

/-- A body has every field of a port. -/
structure GivesPort (body : Json) : Prop where
  portid : GivesInt body tagPortid
  type : body.objectGet tagType ≠ none
  family : body.objectGet tagFamily ≠ none
  address : body.objectGet tagAddress ≠ none
  portNum : GivesInt body tagTrsvcid

/-- An entry whose fields can be set. -/
structure PortTyped (iter : Json) : Prop where
  object : iter.isObject = true
  portid : NumberOrAbsent iter tagPortid
  type : TextOrAbsent iter tagType
  family : TextOrAbsent iter tagFamily
  address : TextOrAbsent iter tagAddress
  portNum : NumberOrAbsent iter tagTrsvcid

theorem portTyped_newPort (id : Int) : PortTyped (newPort id) :=
  ⟨rfl, Or.inl rfl, Or.inr rfl, Or.inr rfl, Or.inr rfl, Or.inr rfl⟩

theorem SamePort.typed {p : Json} {portid : Portid} (h : SamePort p portid) (hid : p.intField tagPortid = some portid.portid) :
    PortTyped p :=
  ⟨Json.isObject_of_intField hid, Or.inl (by rw [hid]; rfl), Or.inl (by rw [h.type]; rfl), Or.inl (by rw [h.family]; rfl),
    Or.inl (by rw [h.address]; rfl), Or.inl (by rw [h.portNum]; rfl)⟩

/-- A text that the body has is set and copied; a body whose value is no text makes the call fault. -/
theorem jsonUpdateStringEx_given {w x w' : Json} {y res res' : String} {size : Nat} (hx : x.objectGet y ≠ none)
    (hw : w.isObject = true) (hy : TextOrAbsent w y) (h : jsonUpdateStringEx w x y size res = .ok (w', res')) :
    w'.strField y = some res' := by
  obtain ⟨z, hz⟩ := Option.ne_none_iff_exists'.mp hx
  simp only [jsonUpdateStringEx, hz, hw, if_true] at h
  split at h
  · cases h
  · cases h
    exact strField_jsonSetString_self hw hy

theorem TextOrAbsent.of_objectGet {j j' : Json} {k : String} (h : TextOrAbsent j k) (hget : j'.objectGet k = j.objectGet k) :
    TextOrAbsent j' k := by
  simpa only [TextOrAbsent, Json.strField, hget] using h

theorem NumberOrAbsent.of_objectGet {j j' : Json} {k : String} (h : NumberOrAbsent j k)
    (hget : j'.objectGet k = j.objectGet k) : NumberOrAbsent j' k := by
  simpa only [NumberOrAbsent, Json.intField, hget] using h

/-- A body that has every field makes an entry and what the caller reads back the same. -/
theorem updatePortFields_same {p new p' : Json} {arg out : PortArg} (h : updatePortFields p new arg = .ok (p', out))
    (ht : PortTyped p) (hb : GivesPort new) (portid : Portid) :
    p'.intField tagPortid = some out.portid ∧ SamePort p' (portid.updateTo out) := by
  obtain ⟨zid, hzid, hidRange⟩ := hb.portid
  obtain ⟨znum, hznum, hnumRange⟩ := hb.portNum
  obtain ⟨p₁, p₂, p₃, h₁, h₂, h₃, rfl, hid, hnum⟩ := updatePortFields_ok h
  have o₀ := (isObject_jsonUpdateIntEx p new tagPortid arg.portid).trans ht.object
  have o₁ := (isObject_jsonUpdateStringEx h₁).trans o₀
  have o₂ := (isObject_jsonUpdateStringEx h₂).trans o₁
  have o₃ := (isObject_jsonUpdateStringEx h₃).trans o₂
  -- What each step leaves of the fields that the others set.
  have g₀ : ∀ {k}, k ≠ tagPortid → (jsonUpdateIntEx p new tagPortid arg.portid).1.objectGet k = p.objectGet k :=
    fun hk => objectGet_jsonUpdateIntEx_ne hk p new _
  have g₁ : ∀ {k}, k ≠ tagType → p₁.objectGet k = _ := fun hk => objectGet_jsonUpdateStringEx_ne hk h₁
  have g₂ : ∀ {k}, k ≠ tagAddress → p₂.objectGet k = _ := fun hk => objectGet_jsonUpdateStringEx_ne hk h₂
  have g₃ : ∀ {k}, k ≠ tagFamily → p₃.objectGet k = _ := fun hk => objectGet_jsonUpdateStringEx_ne hk h₃
  have g₄ : ∀ {k}, k ≠ tagTrsvcid → (jsonUpdateIntEx p₃ new tagTrsvcid arg.portNum).1.objectGet k = p₃.objectGet k :=
    fun hk => objectGet_jsonUpdateIntEx_ne hk p₃ new _
  have stype := jsonUpdateStringEx_given hb.type o₀ (ht.type.of_objectGet (g₀ (by decide))) h₁
  have saddress := jsonUpdateStringEx_given hb.address o₁
    (ht.address.of_objectGet (by rw [g₁ (by decide), g₀ (by decide)])) h₂
  have sfamily := jsonUpdateStringEx_given hb.family o₂
    (ht.family.of_objectGet (by rw [g₂ (by decide), g₁ (by decide), g₀ (by decide)])) h₃
  obtain ⟨sid, oid⟩ := jsonUpdateIntEx_some hzid ht.object ht.portid arg.portid
  obtain ⟨snum, onum⟩ := jsonUpdateIntEx_some hznum o₃
    (ht.portNum.of_objectGet (by rw [g₃ (by decide), g₂ (by decide), g₁ (by decide), g₀ (by decide)])) arg.portNum
  refine ⟨?_, ⟨?_, ?_, ?_, ?_⟩⟩
  · rw [hid, oid, hidRange, ← sid]
    simp only [Json.intField, g₄ (k := tagPortid) (by decide), g₃ (k := tagPortid) (by decide),
      g₂ (k := tagPortid) (by decide), g₁ (k := tagPortid) (by decide)]
  · refine Eq.trans ?_ stype
    simp only [Json.strField, g₄ (k := tagType) (by decide), g₃ (k := tagType) (by decide), g₂ (k := tagType) (by decide)]
  · refine Eq.trans ?_ sfamily
    simp only [Json.strField, g₄ (k := tagFamily) (by decide)]
  · refine Eq.trans ?_ saddress
    simp only [Json.strField, g₄ (k := tagAddress) (by decide), g₃ (k := tagAddress) (by decide)]
  · rw [snum, ← hnumRange, ← onum, ← hnum]
    rfl

/-! ## Requests -/

section

variable {J : JsonLib} {w : World} {d : Daemon} {a : Answer} {tgt : String}

theorem Paired.samePorts_fills {root root' : Json} {lists : Lists} (h : Paired SamePorts ⟨root, lists⟩)
    (hfill : Json.Fills root root') : Paired SamePorts ⟨root', lists⟩ :=
  h.of_fills hfill (fun ht hrel => hrel.of_fills ht)

theorem Paired.delPortid (h : Paired SamePorts d) {id : Int} (hr : delPortid w d tgt id = .ok a) : Paired SamePorts a.dem := by
  obtain ⟨r, hstore, hr⟩ := afterStore_ok hr
  obtain rfl := Except.ok.inj hstore
  rcases ret_cases (delJsonPortid_ok d.root tgt id) hr with ⟨hroot, rfl⟩ | ⟨⟨i, t, j, p, ht, hfirst, -, -, hroot⟩, hr⟩
  · rw [hroot]
    exact h
  · obtain ⟨target, hfind, hname, hrel⟩ := h.find ht
    obtain ⟨-, portid, -, hfound, -, -⟩ := Pairs.find hrel hfirst
    have hfound : findPortid target id = some portid := hfound
    simp only [hfind, hfound] at hr
    cases hr
    refine Paired.notify ?_ _
    rw [hroot]
    refine Paired.onTarget h ht (fun _ _ _ _ => ⟨?_, ?_⟩)
    · rw [Json.strField_removeAt_ne (by decide), ht.key, ← hname]
    · unfold SamePorts
      rw [Json.entries_removeAt]
      exact Pairs.erase hrel hfirst

/-- A port set in an entry and in its record. -/
theorem SamePorts.update {t t' body : Json} {target : Target} {arg out : PortArg} {id : Int} (h : SamePorts t target)
    (hb : GivesPort body) (hupd : PortUpdate t body arg id out t') : SamePorts t' (target.setPortid w id out) := by
  unfold SamePorts Target.setPortid
  cases hupd with
  | @change j p p' _ hfirst hp hid hfields =>
    obtain ⟨x, portid, hx, hfound, hkey, hrel⟩ := Pairs.find h hfirst
    obtain rfl := Option.some.inj (hp.symm.trans hx)
    have hfound : findPortid target id = some portid := hfound
    rw [hfound, if_pos (Option.isSome_some), Json.entries_putAt]
    refine Pairs.modify h hfirst (fun y q hy _ hq hrel' => ?_)
    obtain rfl := Option.some.inj (hp.symm.trans hy)
    exact updatePortFields_same hfields (hrel'.typed (by rw [hid, hq])) hb q
  | @create p' _ hfresh hpush hfields =>
    have hnone : (t.entries tagPortids).findIdx? (fun iter => decide (iter.intField tagPortid = some id)) = none := by
      rw [List.findIdx?_eq_none_iff]
      intro x hx
      rw [decide_eq_false_iff_not]
      exact fun heq => hfresh (List.mem_filterMap.mpr ⟨x, hx, heq⟩)
    have hfound : findPortid target id = none := Pairs.find_none h hnone
    rw [hfound, if_neg (by simp), Json.entries_pushAt_of_canPush hpush]
    obtain ⟨hid, hrel⟩ := updatePortFields_same hfields (portTyped_newPort id) hb { ptr := w.addr }
    exact Pairs.concat h hid hrel

/-- A request that sets a port gives every field of it, if the store takes the request. -/
def SetsPort (J : JsonLib) (root : Json) (tgt : String) (id : Int) (data : String) : Prop :=
  ∀ body t i, J.loads data = some body → TargetAt root tgt i t → t.canPush tagPortids = true →
    requestPortid id body ≠ 0 → GivesPort body

/-- What the caller reads back as the id of the port is the number of the body. -/
theorem portid_portUpdate {t t' body z : Json} {arg out : PortArg} {id : Int} (hz : body.objectGet tagPortid = some z)
    (hupd : PortUpdate t body arg id out t') : out.portid = cInt z.integerValue := by
  have hout : ∀ {p p' : Json}, p.isObject = true → updatePortFields p body arg = .ok (p', out) →
      out.portid = cInt z.integerValue := by
    intro p p' hobj hfields
    obtain ⟨-, -, -, -, -, -, -, hid, -⟩ := updatePortFields_ok hfields
    rw [hid]
    simp only [jsonUpdateIntEx, hz, hobj, if_true]
  cases hupd with
  | change _ _ hid hfields => exact hout (Json.isObject_of_intField hid) hfields
  | create _ _ hfields => exact hout rfl hfields

theorem Paired.setPortid (h : Paired SamePorts d) {id : Int} {data : String} (hsets : SetsPort J d.root tgt id data)
    (hr : setPortid J w d tgt id data = .ok a) : Paired SamePorts a.dem := by
  obtain ⟨r, hstore, hr⟩ := afterStore_ok hr
  rcases ret_cases (setJsonPortid_ok hstore) hr with ⟨hfill, rfl⟩ | ⟨⟨i, t, t', body, ht, hbody, hid, hupd, hroot⟩, hr⟩
  · exact h.samePorts_fills hfill
  · have hgives := hsets body t i hbody ht (canPush_portUpdate hupd) hid
    obtain ⟨target, hfind, -, -⟩ := h.find ht
    have hsame : (if id = 0 then r.out.portid else id) = requestPortid id body := by
      obtain ⟨z, hz, -⟩ := hgives.portid
      unfold requestPortid
      rw [portid_portUpdate hz hupd, hz]
      rfl
    simp only [hfind, hsame] at hr
    cases hr
    refine Paired.withLogs (Paired.notify ?_ _) w (fun _ _ e hrel => hrel.logEvent e)
    rw [hroot]
    refine Paired.onTarget h ht (fun target _ hname hrel => ⟨?_, hrel.update hgives hupd⟩)
    rw [strField_portUpdate hupd, ht.key, name_setPortid, hname]

end

/-! ## Runs -/

/-- The requests that set and delete ports. -/
def Request.editsPorts : Request → Bool
  | .setPortid _ _ _ | .delPortid _ _ => true
  | _ => false

/-- A request that sets a port gives every field of it. -/
def Request.GivesPorts (J : JsonLib) (d : Daemon) : Request → Prop
  | .setPortid tgt id data => SetsPort J d.root tgt id data
  | _ => True

/-- In every run of requests that give every field of a port, the records of the ports are the same as the entries. -/
theorem port_records_match {J : JsonLib} {d₀ d : Daemon} (h₀ : Paired SamePorts d₀)
    (hrun : Run (demStep J) (fun d op => op.2.editsPorts = true ∧ op.2.GivesPorts J d) d₀ d) : Paired SamePorts d := by
  refine hrun.invariant h₀ (fun d op d' h hallowed hs => ?_)
  obtain ⟨w, req⟩ := op
  obtain ⟨hop, hgives⟩ := hallowed
  obtain ⟨-, a, hr, rfl⟩ := hs
  cases req with
  | setPortid tgt id data => exact h.setPortid hgives hr
  | delPortid tgt id => exact h.delPortid hr
  | _ => cases hop

theorem bareDaemon_samePorts : Paired SamePorts bareDaemon := .cons ⟨rfl, .nil⟩ .nil

/-- The texts of two bodies: one with every field of a port, one with the number alone. -/
def portText : String :=
  "\x7b\"PORTID\":1,\"TRTYPE\":\"rdma\",\"ADRFAM\":\"ipv4\",\"TRADDR\":\"10.0.0.1\",\"TRSVCID\":4420\x7d"

def trsvcidText : String := "\x7b\"TRSVCID\":4421\x7d"

def portBodies : JsonLib :=
  .ofTexts [(portText, .object [(tagPortid, .integer 1), (tagType, .string "rdma"), (tagFamily, .string "ipv4"),
      (tagAddress, .string "10.0.0.1"), (tagTrsvcid, .integer 4420)]),
    (trsvcidText, .object [(tagTrsvcid, .integer 4421)])]

/-- A port is added, with a variable that holds something else before. -/
theorem port_records_match_added :
    ∃ d : Daemon, d.lists.targetList.map (fun t => t.portidList.map Portid.address) = [["10.0.0.1"]] ∧ Paired SamePorts d := by
  have hset := Run.request { addr := 1, port := ⟨7, "x", "y", "z", 9⟩ } (.setPortid "t" 0 portText)
    (.start : Run (demStep portBodies) (fun d op => op.2.editsPorts = true ∧ op.2.GivesPorts portBodies d) bareDaemon _)
    ⟨rfl, fun body t i hbody _ _ _ => by
      cases hbody
      exact ⟨⟨_, rfl, rfl⟩, Option.some_ne_none _, Option.some_ne_none _, Option.some_ne_none _, ⟨_, rfl, rfl⟩⟩⟩ (by decide) rfl
  exact ⟨_, rfl, port_records_match bareDaemon_samePorts hset⟩

/-- The number of a port is updated and nothing else: the record takes the rest from a variable that was not written to. -/
theorem port_records_differ :
    ¬∀ (J : JsonLib) (d₀ d : Daemon), Paired SamePorts d₀ →
      Run (demStep J) (fun _ op => op.2.editsPorts = true) d₀ d → Paired SamePorts d := by
  intro h
  have hadd := Run.request { addr := 1 } (.setPortid "t" 0 portText)
    (.start : Run (demStep portBodies) (fun _ op => op.2.editsPorts = true) bareDaemon _) rfl (by decide) rfl
  have hupdate := Run.request { addr := 2, port := ⟨7, "x", "y", "z", 9⟩ } (.setPortid "t" 1 trsvcidText) hadd rfl (by decide) rfl
  have hpaired := h portBodies bareDaemon _ bareDaemon_samePorts hupdate
  obtain ⟨⟨-, hports⟩, -⟩ := List.forall₂_cons.mp hpaired
  obtain ⟨⟨hid, -⟩, -⟩ := List.forall₂_cons.mp hports
  have hbad : some (1 : Int) = some 7 := hid
  exact absurd hbad (by decide)

end NvmeDem
