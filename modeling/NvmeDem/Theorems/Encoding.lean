import NvmeDem.Dem.Messages
import NvmeDem.Endpoint.Reports
import NvmeDem.Theorems.Reconfig

/-!
# What becomes of values on their way to a manager and back

A message has fields of fixed width. In band an identifier of a port has sixteen bits, the access of a subsystem eight, the number
255 stands for the null block device, and a report counts its entries in one byte: what does not fit comes out as something else.
-/

namespace NvmeDem

namespace Push

open Jansson

/-! ## Calls -/

/-- The call that says what a message is about, with the values as the daemon has them. -/
def Message.given : Message → OpsCall
  | .reset => .resetConfig
  | .setPort portid =>
    .createPortid portid.portid portid.family portid.type nvmfTreqNotRequired.toNat portid.address portid.portNum
  | .delPort portid => .deletePortid portid.portid
  | .setSubsys subsys => .createSubsys subsys.nqn subsys.access
  | .delSubsys subsys => .deleteSubsys subsys.nqn
  | .configNs subsys ns => .createNs subsys.nqn ns.nsid ns.devid ns.devns
  | .setNs subsys ns => .createNs subsys.nqn ns.nsid ns.devid ns.devns
  | .delNs subsys ns => .deleteNs subsys.nqn ns.nsid
  | .setHost host => .createHost host.nqn
  | .delHost hostnqn => .deleteHost hostnqn
  | .linkHost subsys host => .linkHostToSubsys subsys.nqn host.nqn
  | .unlinkHost subsys host => .unlinkHostFromSubsys subsys.nqn host.nqn
  | .linkPort subsys portid => .linkPortToSubsys subsys.nqn portid.portid
  | .unlinkPort subsys portid => .unlinkPortFromSubsys subsys.nqn portid.portid

/-- The call that an in-band message makes, with the values as they come out of its fields. -/
def Message.inbCall : Message → OpsCall
  | .reset => .resetConfig
  | .setPort portid =>
    .createPortid (BitVec.ofInt 16 portid.portid).toNat (adrfamStr (toAdrfam portid.family)) (trtypeStr (toTrtype portid.type))
      nvmfTreqNotRequired.toNat portid.address (atoi (toString portid.portNum).toList)
  | .delPort portid => .deletePortid (BitVec.ofInt 16 portid.portid).toNat
  | .setSubsys subsys => .createSubsys subsys.nqn (BitVec.ofInt 8 subsys.access).toNat
  | .delSubsys subsys => .deleteSubsys subsys.nqn
  | .configNs subsys ns =>
    .createNs subsys.nqn (BitVec.ofInt 32 ns.nsid).toInt (entryDevid (buildNsConfigInb subsys ns)) (BitVec.ofInt 32 ns.devns).toInt
  | .setNs subsys ns =>
    .createNs subsys.nqn (BitVec.ofInt 32 ns.nsid).toInt (entryDevid (buildNsConfigInb subsys ns)) (BitVec.ofInt 32 ns.devns).toInt
  | .delNs subsys ns => .deleteNs subsys.nqn (BitVec.ofInt 32 ns.nsid).toInt
  | .setHost host => .createHost host.nqn
  | .delHost hostnqn => .deleteHost hostnqn
  | .linkHost subsys host => .linkHostToSubsys subsys.nqn host.nqn
  | .unlinkHost subsys host => .unlinkHostFromSubsys subsys.nqn host.nqn
  | .linkPort subsys portid => .linkPortToSubsys subsys.nqn (BitVec.ofInt 16 portid.portid).toNat
  | .unlinkPort subsys portid => .unlinkPortFromSubsys subsys.nqn (BitVec.ofInt 16 portid.portid).toNat

/-! ## What a message is about -/

/-- The NQNs in a message. -/
def Message.nqns : Message → List String
  | .reset | .setPort _ | .delPort _ => []
  | .setSubsys subsys | .delSubsys subsys | .configNs subsys _ | .setNs subsys _ | .delNs subsys _ | .linkPort subsys _
  | .unlinkPort subsys _ => [subsys.nqn]
  | .setHost host => [host.nqn]
  | .delHost hostnqn => [hostnqn]
  | .linkHost subsys host | .unlinkHost subsys host => [subsys.nqn, host.nqn]

/-- The numbers in a message, which a C `int` holds. -/
def Message.ints : Message → List Int
  | .setPort portid => [portid.portid, portid.portNum]
  | .delPort portid | .linkPort _ portid | .unlinkPort _ portid => [portid.portid]
  | .setSubsys subsys => [subsys.access]
  | .configNs _ ns | .setNs _ ns => [ns.nsid, ns.devid, ns.devns]
  | .delNs _ ns => [ns.nsid]
  | _ => []

/-- The identifier of a port that its field holds. -/
def PortidFits (portid : Int) : Prop := 0 ≤ portid ∧ portid < 2 ^ 16

instance (portid : Int) : Decidable (PortidFits portid) := inferInstanceAs (Decidable (_ ∧ _))

/-- The values that come out of the fields of a message as they went in. -/
def Message.InRange : Message → Prop
  | .setPort portid => PortFaithful portid
  | .delPort portid | .linkPort _ portid | .unlinkPort _ portid => PortidFits portid.portid
  | .setSubsys subsys => 0 ≤ subsys.access ∧ subsys.access < 2 ^ 8
  | .configNs _ ns | .setNs _ ns => ns.devid ≠ nvmfNullbDevid
  | _ => True

section

variable {msg : Message}

theorem bind_nqnEntry {α : Type} {nqn : String} (h : NqnFits nqn) (f : String → Except Fault α) :
    nqnField (nqnEntry nqn) >>= f = f nqn := by
  rw [nqnField_nqnEntry, if_pos h]
  rfl

/-- Every message is one call. -/
theorem miCall_inb (hnqns : ∀ nqn ∈ msg.nqns, NqnFits nqn) : miCall msg.inb = .ok msg.inbCall := by
  cases msg with
  | reset => rfl
  | setPort portid => rfl
  | delPort portid => rfl
  | linkHost subsys host =>
    have hs : NqnFits subsys.nqn := hnqns _ (by simp [Message.nqns])
    have hh : NqnFits host.nqn := hnqns _ (by simp [Message.nqns])
    exact (bind_nqnEntry hs _).trans (bind_nqnEntry hh _)
  | unlinkHost subsys host =>
    have hs : NqnFits subsys.nqn := hnqns _ (by simp [Message.nqns])
    have hh : NqnFits host.nqn := hnqns _ (by simp [Message.nqns])
    exact (bind_nqnEntry hs _).trans (bind_nqnEntry hh _)
  | setSubsys subsys => exact bind_nqnEntry (hnqns _ List.mem_cons_self) _
  | delSubsys subsys => exact bind_nqnEntry (hnqns _ List.mem_cons_self) _
  | configNs subsys ns => exact bind_nqnEntry (hnqns _ List.mem_cons_self) _
  | setNs subsys ns => exact bind_nqnEntry (hnqns _ List.mem_cons_self) _
  | delNs subsys ns => exact bind_nqnEntry (hnqns _ List.mem_cons_self) _
  | setHost host => exact bind_nqnEntry (hnqns _ List.mem_cons_self) _
  | delHost hostnqn => exact bind_nqnEntry (hnqns _ List.mem_cons_self) _
  | linkPort subsys portid => exact bind_nqnEntry (hnqns _ List.mem_cons_self) _
  | unlinkPort subsys portid => exact bind_nqnEntry (hnqns _ List.mem_cons_self) _

/-! ## In band and back -/

theorem toNat_ofInt_eq_iff {width : Nat} {x : Int} :
    ((BitVec.ofInt width x).toNat : Int) = x ↔ 0 ≤ x ∧ x < ((2 ^ width : Nat) : Int) := by
  have hpos : 0 < ((2 ^ width : Nat) : Int) := by exact_mod_cast Nat.two_pow_pos width
  rw [BitVec.toNat_ofInt, Int.toNat_of_nonneg (Int.emod_nonneg _ (ne_of_gt hpos))]
  constructor
  · intro h
    rw [← h]
    exact ⟨Int.emod_nonneg _ (ne_of_gt hpos), Int.emod_lt_of_pos _ hpos⟩
  · exact fun h => Int.emod_eq_of_lt h.1 h.2

theorem entryDevid_eq_iff (subsys : Subsystem) {ns : Ns} (h : IsInt ns.nsid ∧ IsInt ns.devid ∧ IsInt ns.devns) :
    entryDevid (buildNsConfigInb subsys ns) = ns.devid ↔ ns.devid ≠ nvmfNullbDevid := by
  constructor
  · intro heq hnull
    exact entryDevid_ne subsys ns (heq.trans hnull)
  · intro hne
    have hsent : sentNs subsys ns = nsItem subsys ns := sentNs_of_faithful h hne
    simp only [sentNs, nsItem, Item.ns.injEq] at hsent
    exact hsent.2.2.1

theorem createNs_eq_iff {subsys : Subsystem} {ns : Ns} (h : IsInt ns.nsid ∧ IsInt ns.devid ∧ IsInt ns.devns) :
    OpsCall.createNs subsys.nqn (BitVec.ofInt 32 ns.nsid).toInt (entryDevid (buildNsConfigInb subsys ns))
        (BitVec.ofInt 32 ns.devns).toInt = .createNs subsys.nqn ns.nsid ns.devid ns.devns ↔ ns.devid ≠ nvmfNullbDevid := by
  rw [OpsCall.createNs.injEq, toInt_of_isInt h.1, toInt_of_isInt h.2.2, ← entryDevid_eq_iff subsys h]
  simp

theorem inbCall_eq_given_iff (hints : ∀ n ∈ msg.ints, IsInt n) : msg.inbCall = msg.given ↔ msg.InRange := by
  have hns : ∀ ns : Ns, (∀ n ∈ [ns.nsid, ns.devid, ns.devns], IsInt n) → IsInt ns.nsid ∧ IsInt ns.devid ∧ IsInt ns.devns :=
    fun ns h => ⟨h _ (by simp), h _ (by simp), h _ (by simp)⟩
  cases msg with
  | setPort portid =>
    have hport : IsInt portid.portNum := hints _ (by simp [Message.ints])
    simp only [Message.inbCall, Message.given, Message.InRange, OpsCall.createPortid.injEq, toNat_ofInt_eq_iff,
      atoi_toString hport]
    constructor
    · rintro ⟨hid, hfam, htype, -⟩
      exact ⟨hid, htype, hfam⟩
    · rintro ⟨hid, htype, hfam⟩
      exact ⟨hid, hfam, htype, trivial, trivial, trivial⟩
  | setSubsys subsys =>
    simp only [Message.inbCall, Message.given, Message.InRange, OpsCall.createSubsys.injEq, toNat_ofInt_eq_iff, true_and]
    rfl
  | delPort portid =>
    simp only [Message.inbCall, Message.given, Message.InRange, OpsCall.deletePortid.injEq, toNat_ofInt_eq_iff]
    rfl
  | linkPort subsys portid =>
    simp only [Message.inbCall, Message.given, Message.InRange, OpsCall.linkPortToSubsys.injEq, toNat_ofInt_eq_iff, true_and]
    rfl
  | unlinkPort subsys portid =>
    simp only [Message.inbCall, Message.given, Message.InRange, OpsCall.unlinkPortFromSubsys.injEq, toNat_ofInt_eq_iff,
      true_and]
    rfl
  | configNs subsys ns => exact createNs_eq_iff (hns ns hints)
  | setNs subsys ns => exact createNs_eq_iff (hns ns hints)
  | delNs subsys ns =>
    have hnsid : IsInt ns.nsid := hints _ (by simp [Message.ints])
    simp [Message.inbCall, Message.given, Message.InRange, toInt_of_isInt hnsid]
  | reset => exact iff_of_true rfl trivial
  | delSubsys subsys => exact iff_of_true rfl trivial
  | setHost host => exact iff_of_true rfl trivial
  | delHost hostnqn => exact iff_of_true rfl trivial
  | linkHost subsys host => exact iff_of_true rfl trivial
  | unlinkHost subsys host => exact iff_of_true rfl trivial

theorem miCall_given_iff (hnqns : ∀ nqn ∈ msg.nqns, NqnFits nqn) (hints : ∀ n ∈ msg.ints, IsInt n) :
    miCall msg.inb = .ok msg.given ↔ msg.InRange := by
  rw [miCall_inb hnqns, Except.ok.injEq, inbCall_eq_given_iff hints]

end

/-! ## Reports and back -/

theorem writeEntries_ok {α β : Type} {size : Nat} {entry : α → β} {xs : List α} {msg : MiReceive β}
    (h : writeEntries size entry xs = .ok msg) :
    reportSize size xs.length ≤ pageSize ∧ msg = { numEntries := BitVec.ofNat 8 xs.length, entries := xs.map entry } := by
  unfold writeEntries at h
  split at h
  · rename_i hfits
    cases h
    exact ⟨hfits, rfl⟩
  · cases h

theorem writeEntries_of_le {α β : Type} {size : Nat} {entry : α → β} {xs : List α} (h : reportSize size xs.length ≤ pageSize) :
    writeEntries size entry xs = .ok { numEntries := BitVec.ofNat 8 xs.length, entries := xs.map entry } := if_pos h

/-- A device that comes out of a report as it went in. -/
def NsdevFits (dev : Nsdev) : Prop := (-1 ≤ dev.nsdev ∧ dev.nsdev < 255) ∧ 0 ≤ dev.nsid ∧ dev.nsid < 2 ^ 8

theorem inbNsdev_received_iff (dev : Nsdev) : inbNsdev (receivedNsdev (sentNsdev dev)) = dev ↔ NsdevFits dev := by
  obtain ⟨nsdev, nsid⟩ := dev
  have hdev : ((BitVec.ofInt 8 nsdev).toNat : Int) = nsdev % 256 := by
    rw [BitVec.toNat_ofInt, Int.toNat_of_nonneg (Int.emod_nonneg _ (by decide))]
    rfl
  simp only [receivedNsdev, sentNsdev, inbNsdev, nvmfNullbDevid, nullbDevid, NsdevFits, hdev]
  have hnsid : ((BitVec.ofInt 8 nsid).toNat : Int) = nsid ↔ 0 ≤ nsid ∧ nsid < ((2 ^ 8 : Nat) : Int) := toNat_ofInt_eq_iff
  split
  · rw [Nsdev.mk.injEq, hnsid]
    omega
  · rw [Nsdev.mk.injEq, hnsid]
    omega

theorem getNsdev_exact_iff (devices : List Nsdev) :
    (∃ msg, getNsdev devices = .ok msg ∧ (receivedNsdevs msg).map inbNsdev = devices) ↔
      devices.length < 256 ∧ ∀ dev ∈ devices, NsdevFits dev := by
  have hmap : ∀ ds : List Nsdev, ((ds.map sentNsdev).map receivedNsdev).map inbNsdev = ds ↔ ∀ dev ∈ ds, NsdevFits dev := by
    intro ds
    induction ds with
    | nil => simp
    | cons d ds ih =>
      rw [List.map_cons, List.map_cons, List.map_cons, List.cons.injEq, inbNsdev_received_iff, ih, List.forall_mem_cons]
  constructor
  · rintro ⟨msg, hmsg, hdevs⟩
    obtain ⟨-, rfl⟩ := writeEntries_ok hmsg
    have hlen := congrArg List.length hdevs
    simp only [receivedNsdevs, List.length_map, List.length_take, BitVec.toNat_ofNat] at hlen
    have hlt : devices.length < 256 := by omega
    refine ⟨hlt, (hmap devices).1 ?_⟩
    rw [receivedNsdevs, BitVec.toNat_ofNat, Nat.mod_eq_of_lt hlt, List.take_of_length_le (by simp)] at hdevs
    exact hdevs
  · rintro ⟨hlt, hfits⟩
    refine ⟨_, writeEntries_of_le (by unfold reportSize pageSize; omega), ?_⟩
    rw [receivedNsdevs, BitVec.toNat_ofNat, Nat.mod_eq_of_lt hlt, List.take_of_length_le (by simp)]
    exact (hmap devices).2 hfits

/-- An interface that a manager can have. -/
def XportValid (iface : FabricIface) : Prop :=
  validTrtype iface.type = true ∧ validAdrfam iface.fam = true ∧ iface.addr.length ≤ configAddressSize

theorem receivedXport_sent {iface : FabricIface} (h : XportValid iface) : receivedXport (sentXport iface) = .ok iface := by
  obtain ⟨type, fam, addr⟩ := iface
  obtain ⟨htype, hfam, haddr⟩ := h
  have htypes : type = "rdma" ∨ type = "tcp" := by simpa [validTrtype] using htype
  have hfams : fam = "ipv4" ∨ fam = "ipv6" := by simpa [validAdrfam] using hfam
  have hcut : cCut configAddressSize addr = addr := cCut_of_le haddr
  rcases htypes with rfl | rfl <;> rcases hfams with rfl | rfl <;> simp only [receivedXport, sentXport, hcut] <;> rfl

theorem getXport_exact_iff {ifaces : List FabricIface} (hvalid : ∀ iface ∈ ifaces, XportValid iface) :
    (∃ msg, getXport ifaces = .ok msg ∧ receivedXports msg = .ok ifaces) ↔ ifaces.length ≤ 15 := by
  constructor
  · rintro ⟨msg, hmsg, -⟩
    have hfits := (writeEntries_ok hmsg).1
    unfold reportSize pageSize at hfits
    omega
  · intro hlen
    refine ⟨_, writeEntries_of_le (by unfold reportSize pageSize; omega), ?_⟩
    have hlt : ifaces.length < 2 ^ 8 := by omega
    rw [receivedXports, BitVec.toNat_ofNat, Nat.mod_eq_of_lt hlt, List.take_of_length_le (by simp)]
    clear hlen hlt
    induction ifaces with
    | nil => rfl
    | cons iface ifaces ih =>
      have hrest := ih (fun iface hi => hvalid iface (List.mem_cons_of_mem _ hi))
      simp only [List.map_cons, List.mapM_cons, receivedXport_sent (hvalid iface List.mem_cons_self), hrest]
      rfl

/-- When what is sent in band comes out as it went in: a message, the devices of a report, the interfaces of a report. -/
theorem encoding_round_trips_iff (msg : Message) (devices : List Nsdev) (ifaces : List FabricIface)
    (hnqns : ∀ nqn ∈ msg.nqns, NqnFits nqn) (hints : ∀ n ∈ msg.ints, IsInt n) (hvalid : ∀ iface ∈ ifaces, XportValid iface) :
    (miCall msg.inb = .ok msg.given ↔ msg.InRange) ∧
    ((∃ msg, getNsdev devices = .ok msg ∧ (receivedNsdevs msg).map inbNsdev = devices) ↔
      devices.length < 256 ∧ ∀ dev ∈ devices, NsdevFits dev) ∧
    ((∃ msg, getXport ifaces = .ok msg ∧ receivedXports msg = .ok ifaces) ↔ ifaces.length ≤ 15) :=
  ⟨miCall_given_iff hnqns hints, getNsdev_exact_iff devices, getXport_exact_iff hvalid⟩

/-- A namespace of a subsystem that every field holds. -/
def plainMessage : Message := .setNs { nqn := "nqn.s", access := 1 } { nsid := 1, devid := -1, devns := 0 }

theorem encoding_of_plain :
    miCall plainMessage.inb = .ok plainMessage.given ∧
    (∃ msg, getNsdev [⟨-1, 0⟩] = .ok msg ∧ (receivedNsdevs msg).map inbNsdev = [⟨-1, 0⟩]) ∧
    ∃ msg, getXport [⟨"tcp", "ipv4", "10.0.0.1"⟩] = .ok msg ∧ receivedXports msg = .ok [⟨"tcp", "ipv4", "10.0.0.1"⟩] := by
  obtain ⟨hmsg, hdevs, hifaces⟩ := encoding_round_trips_iff plainMessage [⟨-1, 0⟩] [⟨"tcp", "ipv4", "10.0.0.1"⟩]
    (by decide) (by decide) (by simp [XportValid]; decide)
  exact ⟨hmsg.2 (by decide : (-1 : Int) ≠ 255), hdevs.2 ⟨by decide, by simp [NsdevFits]⟩, hifaces.2 (by decide)⟩

/-- The port 65537 becomes the port 1, the device 255 the null block device, and of 256 devices none is reported. -/
theorem encoding_not_faithful :
    miCall (Message.delPort { ptr := 0, portid := 65537 }).inb = .ok (.deletePortid 1) ∧
    miCall (Message.setNs { nqn := "nqn.s" } { nsid := 1, devid := 255, devns := 1 }).inb =
      .ok (.createNs "nqn.s" 1 (-1) 1) ∧
    (∃ msg, getNsdev (List.replicate 256 ⟨1, 1⟩) = .ok msg ∧ receivedNsdevs msg = []) ∧
    getXport (List.replicate 16 ⟨"tcp", "ipv4", "10.0.0.1"⟩) = .error .outOfBounds ∧
    ¬∀ msg : Message, (∀ nqn ∈ msg.nqns, NqnFits nqn) → (∀ n ∈ msg.ints, IsInt n) → miCall msg.inb = .ok msg.given := by
  have hnone : ∀ devices : List Nsdev, devices.length = 256 → ∃ msg, getNsdev devices = .ok msg ∧ receivedNsdevs msg = [] := by
    intro devices hlen
    refine ⟨_, writeEntries_of_le (by rw [hlen]; decide), ?_⟩
    rw [receivedNsdevs, hlen]
    rfl
  refine ⟨by decide, by decide, hnone _ List.length_replicate, rfl, fun h => ?_⟩
  exact absurd (h (.delPort { ptr := 0, portid := 65537 }) (by decide) (by decide)) (by decide)

end Push

end NvmeDem
