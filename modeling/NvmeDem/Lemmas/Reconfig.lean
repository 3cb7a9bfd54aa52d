import NvmeDem.Dem.Reconfig

/-!
# What the messages of a reconfiguration write

First the numbers: what is printed is read back. Then, for each message of either way to manage a target, what it writes at the
manager (`Link.Writes`), and from these what the whole configuration writes.
-/

namespace NvmeDem

open Jansson Link Upsert

/-! ## Numbers -/

/-- A number that a C `int` holds. -/
def IsInt (n : Int) : Prop := -2 ^ 31 ≤ n ∧ n < 2 ^ 31

instance (n : Int) : Decidable (IsInt n) := inferInstanceAs (Decidable (_ ∧ _))

theorem cInt_of_isInt {n : Int} (h : IsInt n) : cInt n = n := by
  obtain ⟨hlo, hhi⟩ := h
  unfold cInt
  exact Int.bmod_eq_of_le (by omega) (by omega)

theorem isInt_cInt (n : Int) : IsInt (cInt n) := by
  have hle := Int.le_bmod (x := n) (m := 2 ^ 32) (by decide)
  have hlt := Int.bmod_lt (x := n) (m := 2 ^ 32) (by decide)
  exact ⟨hle, hlt⟩

theorem digitsValue_eq {limit : Nat} {cs : List Char} {acc : Nat} (hd : ∀ c ∈ cs, c.isDigit = true)
    (h : Nat.ofDigitChars 10 cs acc ≤ limit) : digitsValue limit acc cs = Nat.ofDigitChars 10 cs acc := by
  induction cs generalizing acc with
  | nil => simp [digitsValue]
  | cons c cs ih =>
    have hstep : acc * 10 + (c.toNat - '0'.toNat) ≤ Nat.ofDigitChars 10 cs (10 * acc + (c.toNat - '0'.toNat)) := by
      rw [Nat.ofDigitChars_eq_ofDigitChars_zero]
      have hp : 1 ≤ 10 ^ cs.length := Nat.one_le_pow _ _ (by decide)
      have := Nat.le_mul_of_pos_left (10 * acc + (c.toNat - '0'.toNat)) hp
      omega
    rw [Nat.ofDigitChars_cons] at h ⊢
    rw [digitsValue, if_pos (hd c List.mem_cons_self), Nat.min_eq_right (hstep.trans h), Nat.mul_comm acc 10]
    exact ih (fun c hc => hd c (List.mem_cons_of_mem _ hc)) h

theorem digitsValue_toDigits {limit n : Nat} (h : n ≤ limit) : digitsValue limit 0 (Nat.toDigits 10 n) = n := by
  have hdigits : ∀ c ∈ Nat.toDigits 10 n, c.isDigit = true :=
    fun c hc => Nat.isDigit_of_mem_toDigits (by decide) (by decide) hc
  rw [digitsValue_eq hdigits (by rwa [Nat.ofDigitChars_ten_toDigits]), Nat.ofDigitChars_ten_toDigits]

theorem isSpace_of_isDigit {c : Char} (h : c.isDigit = true) : isSpace c = false := by
  have hlo : '0'.toNat ≤ c.toNat := (Char.isDigit_iff_toNat.1 h).1
  have hne : c ≠ ' ' := by
    rintro rfl
    exact absurd h (by decide)
  have hgt : ¬ c ≤ '\r' := by
    intro hle
    have hle' : c.toNat ≤ '\r'.toNat := UInt32.le_iff_toNat_le.1 hle
    exact absurd (hlo.trans hle') (by decide)
  simp [isSpace, hne, hgt]

/-- A text of digits is read from its first character on. -/
theorem atoi_of_isDigit {cs : List Char} (h : ∀ c ∈ cs, c.isDigit = true) :
    atoi cs = cInt (digitsValue (2 ^ 63 - 1) 0 cs) := by
  have hdrop : cs.dropWhile isSpace = cs := by
    cases cs with
    | nil => rfl
    | cons c cs => rw [List.dropWhile_cons_of_neg (by simp [isSpace_of_isDigit (h c List.mem_cons_self)])]
  unfold atoi
  rw [hdrop]
  split
  · exact absurd (h '-' List.mem_cons_self) (by decide)
  · exact absurd (h '+' List.mem_cons_self) (by decide)
  · rfl

theorem isInt_atoi (cs : List Char) : IsInt (atoi cs) := by
  unfold atoi
  split <;> exact isInt_cInt _

/-- What `%d` prints, `atoi` reads. -/
theorem atoi_toString {n : Int} (h : IsInt n) : atoi (toString n).toList = n := by
  obtain ⟨hlo, hhi⟩ := h
  cases n with
  | ofNat m =>
    have htext : (toString (Int.ofNat m)).toList = Nat.toDigits 10 m := Nat.toList_repr
    have hm : m ≤ 2 ^ 63 - 1 := by
      have : (m : Int) < 2 ^ 31 := hhi
      omega
    rw [htext, atoi_of_isDigit (fun c hc => Nat.isDigit_of_mem_toDigits (by decide) (by decide) hc), digitsValue_toDigits hm]
    exact cInt_of_isInt ⟨hlo, hhi⟩
  | negSucc m =>
    have htext : (toString (Int.negSucc m)).toList = '-' :: Nat.toDigits 10 (m + 1) := by
      have hrepr : toString (Int.negSucc m) = "-" ++ (m + 1).repr := rfl
      rw [hrepr, String.toList_append, Nat.toList_repr]
      rfl
    have hm : m + 1 ≤ 2 ^ 63 := by omega
    have hread : atoi ('-' :: Nat.toDigits 10 (m + 1)) = cInt (-(digitsValue (2 ^ 63) 0 (Nat.toDigits 10 (m + 1)) : Int)) := rfl
    rw [htext, hread, digitsValue_toDigits hm]
    exact cInt_of_isInt ⟨hlo, hhi⟩

/-- A number of a C `int` is printed with eleven characters at most. -/
theorem length_toString_le {n : Int} (h : IsInt n) : (toString n).length ≤ 11 := by
  obtain ⟨hlo, hhi⟩ := h
  cases n with
  | ofNat m =>
    have hlen : m.repr.length ≤ 11 := (Nat.length_repr_le_iff (by decide)).2 (by
      have : (m : Int) < 2 ^ 31 := hhi
      omega)
    exact hlen
  | negSucc m =>
    have hrepr : toString (Int.negSucc m) = "-" ++ (m + 1).repr := rfl
    have hlen : (m + 1).repr.length ≤ 10 := (Nat.length_repr_le_iff (by decide)).2 (by omega)
    rw [hrepr, String.length_append]
    exact Nat.add_le_add_left hlen 1

namespace Push

/-! ## One message in band -/

/-- How the manager takes a message: as one change, if what it reads in it ends inside its field. -/
structure Takes (msg : MiSend) (fits : Prop) (change : Change) : Prop where
  taken : fits → ∀ config, handleMiSend config msg = .ok (0, applyChange config change)
  fits_of_ok : ∀ {config out}, handleMiSend config msg = .ok out → fits

/-- An NQN that its field holds with a terminating zero. -/
def NqnFits (nqn : String) : Prop := nqn.length < nvmfNqnFieldLen

instance (nqn : String) : Decidable (NqnFits nqn) := inferInstanceAs (Decidable (_ < _))

theorem nqnField_nqnEntry (nqn : String) :
    nqnField (nqnEntry nqn) = if NqnFits nqn then .ok nqn else .error .outOfBounds := by
  by_cases h : NqnFits nqn
  · have hcut : nqnEntry nqn = nqn := cCut_of_le (Nat.le_of_lt h)
    have hlt : nqn.length < nvmfNqnFieldLen := h
    rw [hcut, if_pos h, nqnField, if_pos hlt]
  · have hlen : (nqnEntry nqn).length = nvmfNqnFieldLen := by
      have hle : nvmfNqnFieldLen ≤ nqn.length := Nat.le_of_not_lt h
      simp only [nqnEntry, cCut, String.length_ofList, List.length_take, String.length_toList]
      exact Nat.min_eq_left hle
    rw [if_neg h, nqnField, if_neg (by omega)]

/-- The port that the manager makes of a message. -/
def sentPort (portid : Portid) : Item :=
  .port (BitVec.ofInt 16 portid.portid).toNat (adrfamStr (toAdrfam portid.family)) (trtypeStr (toTrtype portid.type))
    nvmfTreqNotRequired.toNat portid.address (atoi (toString portid.portNum).toList)

def sentSubsys (subsys : Subsystem) : Item :=
  .subsys subsys.nqn ((BitVec.ofInt 8 subsys.access).toNat ≠ (0 : Int))

def sentNs (subsys : Subsystem) (ns : Ns) : Item :=
  .ns subsys.nqn (BitVec.ofInt 32 ns.nsid).toInt (entryDevid (buildNsConfigInb subsys ns)) (BitVec.ofInt 32 ns.devns).toInt

def sentPortLink (subsys : Subsystem) (portid : Portid) : Item :=
  .portLink subsys.nqn (BitVec.ofInt 16 portid.portid).toNat

theorem takes_reset : Takes .resetConfig True .reset where
  taken := fun _ _ => rfl
  fits_of_ok := fun _ => trivial

theorem takes_port (portid : Portid) :
    Takes (.setPortConfig (buildSetPortConfigInb portid)) True (.put (sentPort portid)) where
  taken := fun _ _ => rfl
  fits_of_ok := fun _ => trivial

/-- A message with one NQN. -/
theorem takes_nqn {nqn : String} {msg : MiSend} (change : String → Change)
    (h : ∀ config, handleMiSend config msg =
      (nqnField (nqnEntry nqn) >>= fun nqn => pure (0, applyChange config (change nqn)))) :
    Takes msg (NqnFits nqn) (change nqn) where
  taken := by
    intro hfits config
    rw [h, nqnField_nqnEntry, if_pos hfits]
    rfl
  fits_of_ok := by
    intro config out hok
    by_contra hfits
    rw [h, nqnField_nqnEntry, if_neg hfits] at hok
    cases hok

theorem takes_subsys (subsys : Subsystem) :
    Takes (.setSubsysConfig (buildSubsysConfigInb subsys)) (NqnFits subsys.nqn) (.put (sentSubsys subsys)) :=
  takes_nqn (fun nqn => .put (.subsys nqn _)) (fun _ => rfl)

theorem takes_ns (subsys : Subsystem) (ns : Ns) :
    Takes (.setNsConfig (buildNsConfigInb subsys ns)) (NqnFits subsys.nqn) (.put (sentNs subsys ns)) :=
  takes_nqn (fun nqn => .put (.ns nqn _ _ _)) (fun _ => rfl)

theorem takes_host (host : Host) :
    Takes (.setHostConfig (buildHostConfigInb host.nqn)) (NqnFits host.nqn) (.put (.host host.nqn)) :=
  takes_nqn (fun nqn => .put (.host nqn)) (fun _ => rfl)

theorem takes_portLink (subsys : Subsystem) (portid : Portid) :
    Takes (.linkPortConfig (buildLinkPortInb subsys portid)) (NqnFits subsys.nqn) (.put (sentPortLink subsys portid)) :=
  takes_nqn (fun nqn => .put (.portLink nqn _)) (fun _ => rfl)

theorem takes_hostLink (subsys : Subsystem) (host : Host) :
    Takes (.linkHostConfig (buildLinkHostInb subsys host)) (NqnFits subsys.nqn ∧ NqnFits host.nqn)
      (.put (.hostLink subsys.nqn host.nqn)) := by
  have h : ∀ config, handleMiSend config (.linkHostConfig (buildLinkHostInb subsys host)) =
      (nqnField (nqnEntry subsys.nqn) >>= fun subnqn =>
        nqnField (nqnEntry host.nqn) >>= fun hostnqn => pure (0, applyChange config (.put (.hostLink subnqn hostnqn)))) :=
    fun _ => rfl
  constructor
  · rintro ⟨hs, hh⟩ config
    rw [h, nqnField_nqnEntry, if_pos hs, nqnField_nqnEntry, if_pos hh]
    rfl
  · intro config out hok
    rw [h, nqnField_nqnEntry, nqnField_nqnEntry] at hok
    by_cases hs : NqnFits subsys.nqn
    · by_cases hh : NqnFits host.nqn
      · exact ⟨hs, hh⟩
      · rw [if_pos hs, if_neg hh] at hok
        cases hok
    · rw [if_neg hs] at hok
      cases hok

/-! ## Sending in band -/

section

variable {w : Wire} {msg : MiSend} {fits : Prop} {change : Change}

/-- What a program of the daemon does, given how the manager changes its configuration. -/
abbrev Does (w : Wire) (p : Sends) (fits taken : Prop) (changes : List Change) : Prop :=
  Writes applyChange (∀ n, w.net n = 0) p fits taken changes

theorem does_connectCtrl : Does w (connectCtrl w) True True [] := by
  refine Writes.attempt (fun _ far => ⟨_, rfl⟩) ?_ ?_
  · intro far far' h
    cases h
    exact ⟨trivial, trivial, rfl⟩
  · intro _ far ret far' h
    cases h
    rfl

theorem does_setConnected (connected : Bool) : Does w (setConnected connected) True True [] where
  returns := fun _ s => ⟨0, _, rfl⟩
  quiet := by
    intro s ret s' h hq
    cases h
    exact ⟨hq, trivial, trivial, rfl, rfl⟩
  calm := by
    intro _ _ s ret s' h hq
    cases h
    exact hq

theorem does_sendMiSend (h : Takes msg fits change) : Does w (sendMiSend w msg) fits True [change] := by
  refine Writes.attempt (fun hf far => ⟨_, h.taken hf far⟩) ?_ ?_
  · intro far far' hok
    have hf := h.fits_of_ok hok
    rw [h.taken hf] at hok
    cases hok
    exact ⟨hf, trivial, rfl⟩
  · intro _ far ret far' hok
    rw [h.taken (h.fits_of_ok hok)] at hok
    cases hok
    rfl

theorem does_reconnectAndSend (h : Takes msg fits change) : Does w (reconnectAndSend w msg) fits True [change] :=
  (does_connectCtrl.andThen ((does_setConnected true).andThen (does_sendMiSend h))).congr (by simp) (by simp) rfl

theorem does_sendSetConfig (h : Takes msg fits change) : Does w (sendSetConfig w msg) fits True [change] where
  returns := by
    intro hf s
    unfold sendSetConfig
    by_cases hc : s.connected = true
    · obtain ⟨ret, s', hs⟩ := (does_sendMiSend (w := w) h).returns hf s
      rw [if_pos hc, hs]
      by_cases hr : ret = 0
      · exact ⟨0, s', by simp [hr]⟩
      · simpa [hr] using (does_reconnectAndSend (w := w) h).returns hf { s' with connected := false }
    · rw [if_neg hc]
      exact (does_reconnectAndSend h).returns hf s
  quiet := by
    intro s ret s' hok hq
    unfold sendSetConfig at hok
    split at hok
    · split at hok
      · cases hok
      · rename_i ret₁ s₁ hs
        split at hok
        · cases hok
          obtain ⟨hq₀, hf, -, -, hfar⟩ := (does_sendMiSend h).quiet hs hq
          exact ⟨hq₀, hf, trivial, rfl, hfar⟩
        · rename_i hr
          have hq₁ := ((does_reconnectAndSend h).quiet hok hq).1
          exact absurd ((does_sendMiSend h).quiet hs hq₁).2.2.2.1 hr
    · exact (does_reconnectAndSend h).quiet hok hq
  calm := by
    intro hcalm ht s ret s' hok hq
    unfold sendSetConfig at hok
    split at hok
    · split at hok
      · cases hok
      · rename_i ret₁ s₁ hs
        have hq₁ := (does_sendMiSend h).calm hcalm ht hs hq
        split at hok
        · cases hok
          exact hq₁
        · exact (does_reconnectAndSend h).calm hcalm ht hok hq₁
    · exact (does_reconnectAndSend h).calm hcalm ht hok hq

/-- The items that a subsystem of a target is sent as in band. -/
def sentSubsysParts (target : Target) (subsys : Subsystem) : List Item :=
  [sentSubsys subsys] ++
    ((if subsys.isRestricted then
      subsys.hostList.flatMap (fun host => [Item.host host.nqn, Item.hostLink subsys.nqn host.nqn]) else []) ++
    (subsys.nsList.map (sentNs subsys) ++
    (if isHidden subsys then [] else target.portidList.map (sentPortLink subsys))))

def sentTarget (target : Target) : List Item :=
  target.portidList.map sentPort ++ target.subsysList.flatMap (sentSubsysParts target)

/-- The NQNs of a subsystem that are sent in band. -/
def NqnsFit (subsys : Subsystem) : Prop :=
  NqnFits subsys.nqn ∧ (subsys.isRestricted = true → ∀ host ∈ subsys.hostList, NqnFits host.nqn)

theorem does_hosts (subsys : Subsystem) :
    Does w (each (fun host => andThen (sendHostConfigInb w host) (sendLinkHostInb w subsys host)) subsys.hostList)
      (∀ host ∈ subsys.hostList, NqnFits host.nqn ∧ NqnFits subsys.nqn) True
      ((subsys.hostList.flatMap (fun host => [Item.host host.nqn, Item.hostLink subsys.nqn host.nqn])).map Change.put) := by
  refine (Writes.each (fun host _ => ((does_sendSetConfig (takes_host host)).andThen
    (does_sendSetConfig (takes_hostLink subsys host))))).congr ?_ (by simp) ?_
  · exact forall₂_congr (fun host _ => by tauto)
  · rw [List.map_flatMap]
    rfl

theorem does_configSubsysPartsInb (target : Target) (subsys : Subsystem) :
    Does w (configSubsysPartsInb w target subsys) (NqnsFit subsys) True ((sentSubsysParts target subsys).map Change.put) := by
  have hns : Does w (each (sendSetNsInb w subsys) subsys.nsList) (∀ ns ∈ subsys.nsList, NqnFits subsys.nqn)
      (∀ ns ∈ subsys.nsList, True) (subsys.nsList.map (fun ns => Change.put (sentNs subsys ns))) :=
    Writes.eachOne (fun ns _ => does_sendSetConfig (takes_ns subsys ns))
  have hports : Does w (each (sendLinkPortidInb w subsys) target.portidList) (∀ portid ∈ target.portidList, NqnFits subsys.nqn)
      (∀ portid ∈ target.portidList, True)
      (target.portidList.map (fun portid => Change.put (sentPortLink subsys portid))) :=
    Writes.eachOne (fun portid _ => does_sendSetConfig (takes_portLink subsys portid))
  have hhosts : Does w
      (if subsys.isRestricted then
        each (fun host => andThen (sendHostConfigInb w host) (sendLinkHostInb w subsys host)) subsys.hostList else done)
      (subsys.isRestricted = true → ∀ host ∈ subsys.hostList, NqnFits host.nqn ∧ NqnFits subsys.nqn) True
      ((if subsys.isRestricted then
        subsys.hostList.flatMap (fun host => [Item.host host.nqn, Item.hostLink subsys.nqn host.nqn]) else []).map
          Change.put) := by
    by_cases hr : subsys.isRestricted = true
    · simpa [hr] using does_hosts (w := w) subsys
    · simpa [hr] using Writes.done
  have hlinks : Does w (if isHidden subsys then done else each (sendLinkPortidInb w subsys) target.portidList)
      (isHidden subsys = false → ∀ portid ∈ target.portidList, NqnFits subsys.nqn) True
      ((if isHidden subsys then [] else target.portidList.map (sentPortLink subsys)).map Change.put) := by
    cases hh : isHidden subsys
    · exact hports.congr (by simp) (by simp) (by simp)
    · simpa using Writes.done
  refine ((does_sendSetConfig (takes_subsys subsys)).andThen (hhosts.andThen (hns.andThen hlinks))).congr ?_ (by simp) ?_
  · unfold NqnsFit
    constructor
    · rintro ⟨hs, hh, -⟩
      exact ⟨hs, fun hr host hhost => (hh hr host hhost).1⟩
    · rintro ⟨hs, hh⟩
      exact ⟨hs, fun hr host hhost => ⟨hh hr host hhost, hs⟩, fun _ _ => hs, fun _ _ _ => hs⟩
  · simp [sentSubsysParts]

theorem does_configTargetInb (target : Target) :
    Does w (configTargetInb w target) (∀ subsys ∈ target.subsysList, NqnsFit subsys) True
      ((sentTarget target).map Change.put) := by
  have hconnect : Does w (fun s => if s.connected then done s else connectCtrl w s) True True [] :=
    Writes.byState Writes.done does_connectCtrl
  have hports : Does w (each (configPortidInb w) target.portidList) (∀ portid ∈ target.portidList, True)
      (∀ portid ∈ target.portidList, True) (target.portidList.map (fun portid => Change.put (sentPort portid))) :=
    Writes.eachOne (fun portid _ => does_sendSetConfig (takes_port portid))
  have hsubs := Writes.each (fun subsys (_ : subsys ∈ target.subsysList) => does_configSubsysPartsInb (w := w) target subsys)
  refine (hconnect.andThen (hports.andThen hsubs)).congr (by simp) (by simp) ?_
  simp [sentTarget, List.map_flatMap]

end

end Push

end NvmeDem
