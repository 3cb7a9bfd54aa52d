import NvmeDem.Endpoint.Target

/-!
# The keep-alive setting

A host may set the time after which it is given up, and ask for it. A daemon keeps it as a number of turns of its timer. Here two daemons are
given any sequence of Set Features and Get Features commands, and what the law asks of each step is followed along the run, with the value that
was last set.

The discovery daemon answers with its number of turns. A manager reads the words of the command in the other byte order, and takes for a command
that sets the time every one whose feature is zero in that order.
-/

namespace NvmeDem.KeepAlive

open PseudoTarget (NvmeCommand NvmeCompletion HostConn EventRequest nvmeAdminSetFeatures nvmeAdminGetFeatures nvmeFeatKato katoInterval
  delayTimeout)

/-- A command that sets features or asks for them. -/
def Feature : Type := { cmd : NvmeCommand // cmd.opcode = nvmeAdminSetFeatures ∨ cmd.opcode = nvmeAdminGetFeatures }

/-- The command is about the keep-alive time. -/
def IsKato (cmd : NvmeCommand) : Prop := cmd.cdw10 &&& 0xff = nvmeFeatKato

instance (cmd : NvmeCommand) : Decidable (IsKato cmd) := inferInstanceAs (Decidable (_ = _))

/-- How many turns of the timer a value stands for. -/
def ticks (value : BitVec 32) : Int := value.toNat * (katoInterval / delayTimeout : Nat)

/-- The value that was last set, after one more command. -/
def told (last : Option (BitVec 32)) (cmd : NvmeCommand) : Option (BitVec 32) :=
  if cmd.opcode = nvmeAdminSetFeatures ∧ IsKato cmd then some cmd.cdw11 else last

/-- The setting that there should be after one more command. -/
def setting (kato : Int) (cmd : NvmeCommand) : Int := if cmd.opcode = nvmeAdminSetFeatures ∧ IsKato cmd then ticks cmd.cdw11 else kato

/-- A daemon, as far as it handles features: its setting, and whether it answers a Get Features command at all. -/
structure Daemon (σ ε : Type) where
  kato : σ → Int
  answersGet : Bool
  handle : NvmeCommand → ε → σ → Except Fault (σ × NvmeCompletion)

variable {σ ε : Type}

/-! ## The law -/

/-- What the law asks of one step. -/
structure Obeys (d : Daemon σ ε) (last : Option (BitVec 32)) (cmd : NvmeCommand) (s s' : σ) (resp : NvmeCompletion) : Prop where
  other : cmd.opcode = nvmeAdminSetFeatures → ¬IsKato cmd → d.kato s' = d.kato s
  set : cmd.opcode = nvmeAdminSetFeatures → IsKato cmd → resp.status = 0 ∧ d.kato s' = ticks cmd.cdw11
  get : d.answersGet = true → cmd.opcode = nvmeAdminGetFeatures → IsKato cmd → ∀ value, last = some value →
    resp.status = 0 ∧ resp.result = value.setWidth 64

/-- Every step of a run obeys the law. -/
def Law (d : Daemon σ ε) : List (Feature × ε) → Option (BitVec 32) → σ → Prop
  | [], _, _ => True
  | (cmd, env) :: cmds, last, s =>
    ∃ s' resp, d.handle cmd.val env s = .ok (s', resp) ∧ Obeys d last cmd.val s s' resp ∧ Law d cmds (told last cmd.val) s'

/-- A condition on each command of a run, on the value that was last set and on the setting. -/
def Meets (fine : Option (BitVec 32) → Int → NvmeCommand → Prop) : List (Feature × ε) → Option (BitVec 32) → Int → Prop
  | [], _, _ => True
  | (cmd, _) :: cmds, last, kato => fine last kato cmd.val ∧ Meets fine cmds (told last cmd.val) (setting kato cmd.val)

/-- The setting is that of the value that was last set. -/
def Kept (kato : Int) (last : Option (BitVec 32)) : Prop := ∀ value, last = some value → kato = ticks value ∧ ticks value < 2 ^ 31

/-- A run obeys the law if and only if its commands meet the condition, where one step does. -/
theorem law_iff (d : Daemon σ ε) (fine : Option (BitVec 32) → Int → NvmeCommand → Prop)
    (hstep : ∀ cmd, cmd.opcode = nvmeAdminSetFeatures ∨ cmd.opcode = nvmeAdminGetFeatures → ∀ env last s, Kept (d.kato s) last →
      ∃ s' resp, d.handle cmd env s = .ok (s', resp) ∧ (Obeys d last cmd s s' resp ↔ fine last (d.kato s) cmd) ∧
        (fine last (d.kato s) cmd → Kept (d.kato s') (told last cmd) ∧ d.kato s' = setting (d.kato s) cmd))
    (cmds : List (Feature × ε)) : ∀ last s, Kept (d.kato s) last → (Law d cmds last s ↔ Meets fine cmds last (d.kato s)) := by
  induction cmds with
  | nil => exact fun _ _ _ => Iff.rfl
  | cons step cmds ih =>
    obtain ⟨cmd, env⟩ := step
    intro last s hkept
    obtain ⟨s', resp, hhandle, hobeys, hnext⟩ := hstep cmd.val cmd.property env last s hkept
    rw [Law, Meets, hhandle]
    constructor
    · rintro ⟨_, _, ⟨⟩, hobey, hlaw⟩
      obtain ⟨hkept', hkato⟩ := hnext (hobeys.mp hobey)
      refine ⟨hobeys.mp hobey, ?_⟩
      rw [← hkato]
      exact (ih _ _ hkept').mp hlaw
    · rintro ⟨hfine, hmeets⟩
      obtain ⟨hkept', hkato⟩ := hnext hfine
      refine ⟨s', resp, rfl, hobeys.mpr hfine, (ih _ _ hkept').mpr ?_⟩
      rwa [hkato]

section

variable {d : Daemon σ ε} {last : Option (BitVec 32)} {cmd : NvmeCommand} {s s' : σ} {resp : NvmeCompletion}

theorem ne_get (h : cmd.opcode = nvmeAdminSetFeatures) : cmd.opcode ≠ nvmeAdminGetFeatures := by
  rw [h]
  decide

theorem ne_set (h : cmd.opcode = nvmeAdminGetFeatures) : cmd.opcode ≠ nvmeAdminSetFeatures := by
  rw [h]
  decide

theorem obeys_set_iff (hset : cmd.opcode = nvmeAdminSetFeatures) (hkato : IsKato cmd) :
    Obeys d last cmd s s' resp ↔ resp.status = 0 ∧ d.kato s' = ticks cmd.cdw11 :=
  ⟨fun h => h.set hset hkato,
    fun h => ⟨fun _ hother => absurd hkato hother, fun _ _ => h, fun _ hget => absurd hget (ne_get hset)⟩⟩

theorem obeys_other_iff (hset : cmd.opcode = nvmeAdminSetFeatures) (hkato : ¬IsKato cmd) :
    Obeys d last cmd s s' resp ↔ d.kato s' = d.kato s :=
  ⟨fun h => h.other hset hkato,
    fun h => ⟨fun _ _ => h, fun _ hkato' => absurd hkato' hkato, fun _ hget => absurd hget (ne_get hset)⟩⟩

theorem obeys_get_iff (hget : cmd.opcode = nvmeAdminGetFeatures) :
    Obeys d last cmd s s' resp ↔ (d.answersGet = true → IsKato cmd → ∀ value, last = some value →
      resp.status = 0 ∧ resp.result = value.setWidth 64) :=
  ⟨fun h hanswers => h.get hanswers hget,
    fun h => ⟨fun hset => absurd hset (ne_set hget), fun hset => absurd hset (ne_set hget), fun hanswers _ => h hanswers⟩⟩

/-- After a time that was set and stored. -/
theorem kept_set (hset : cmd.opcode = nvmeAdminSetFeatures) (hkato : IsKato cmd) (h : d.kato s' = ticks cmd.cdw11)
    (hlt : ticks cmd.cdw11 < 2 ^ 31) : Kept (d.kato s') (told last cmd) ∧ d.kato s' = setting (d.kato s) cmd := by
  rw [told, setting, if_pos ⟨hset, hkato⟩, if_pos ⟨hset, hkato⟩]
  refine ⟨?_, h⟩
  rintro value ⟨⟩
  exact ⟨h, hlt⟩

/-- After a command that sets no time and leaves the setting. -/
theorem kept_same (hother : ¬(cmd.opcode = nvmeAdminSetFeatures ∧ IsKato cmd)) (h : d.kato s' = d.kato s)
    (hkept : Kept (d.kato s) last) : Kept (d.kato s') (told last cmd) ∧ d.kato s' = setting (d.kato s) cmd := by
  rw [told, setting, if_neg hother, if_neg hother, h]
  exact ⟨hkept, rfl⟩

end

/-! ## Words -/

/-- The number of turns that a daemon stores. -/
def stored (value : BitVec 32) : Int := (value * .ofNat 32 (katoInterval / delayTimeout)).toInt

theorem ticks_eq (value : BitVec 32) : ticks value = 5 * value.toNat := by
  rw [ticks, Int.mul_comm]
  rfl

theorem stored_of_lt {value : BitVec 32} (h : ticks value < 2 ^ 31) : stored value = ticks value := by
  rw [ticks_eq] at h ⊢
  have hlt : value.toNat * 5 < 2 ^ 32 := by omega
  have hmul : (value * .ofNat 32 (katoInterval / delayTimeout)).toNat = value.toNat * 5 :=
    (BitVec.toNat_mul _ _).trans (Nat.mod_eq_of_lt hlt)
  rw [stored, BitVec.toInt_eq_toNat_of_lt (by omega), hmul]
  omega

/-- Five has an inverse among words. -/
theorem stored_inj {got value : BitVec 32} (h : stored got = stored value) : got = value := by
  have hmul := BitVec.toInt_inj.mp h
  have hone : BitVec.ofNat 32 (katoInterval / delayTimeout) * 3435973837 = 1#32 := by decide
  have hinv := congrArg (fun word => word * 3435973837) hmul
  simpa only [BitVec.mul_assoc, hone, BitVec.mul_one] using hinv

/-- A daemon stores what the value stands for if and only if it reads the value right and has room for it. -/
theorem stored_eq_ticks_iff (got value : BitVec 32) : stored got = ticks value ↔ got = value ∧ ticks value < 2 ^ 31 := by
  constructor
  · intro h
    have hlt : ticks value < 2 ^ 31 := h ▸ BitVec.toInt_lt
    exact ⟨stored_inj (h.trans (stored_of_lt hlt).symm), hlt⟩
  · rintro ⟨rfl, hlt⟩
    exact stored_of_lt hlt

/-- A daemon that answers with the number of turns answers with the value if and only if both are zero. -/
theorem ofInt_ticks_iff {value : BitVec 32} (h : ticks value < 2 ^ 31) :
    (BitVec.ofInt 32 (ticks value)).setWidth 64 = value.setWidth 64 ↔ value = 0 := by
  have hlt := value.isLt
  rw [← BitVec.toNat_inj, ← BitVec.toNat_inj, BitVec.toNat_setWidth_of_le (by decide), BitVec.toNat_setWidth_of_le (by decide),
    BitVec.toNat_ofInt]
  rw [ticks_eq] at h ⊢
  have hzero : (0 : BitVec 32).toNat = 0 := rfl
  rw [hzero]
  omega

/-! ## The discovery daemon -/

section

variable {cmd : NvmeCommand} {host : HostConn} {reqs : List EventRequest}

theorem not_async (h : IsKato cmd) : ¬cmd.cdw10 &&& 0xff = PseudoTarget.nvmeFeatAsyncEvent := by
  rw [show cmd.cdw10 &&& 0xff = nvmeFeatKato from h]
  decide

theorem handleSetFeatures_kato (h : IsKato cmd) : PseudoTarget.handleSetFeatures cmd host reqs =
    { ret := 0, host := { host with kato := stored cmd.cdw11 }, aenReqList := reqs } := by
  rw [PseudoTarget.handleSetFeatures, if_neg (not_async h), if_pos (show _ = _ from h)]
  rfl

theorem handleSetFeatures_other (h : ¬IsKato cmd) : (PseudoTarget.handleSetFeatures cmd host reqs).host = host := by
  rw [PseudoTarget.handleSetFeatures]
  split
  · rfl
  · rw [if_neg (show ¬_ = _ from h)]

theorem handleGetFeatures_kato (h : IsKato cmd) : PseudoTarget.handleGetFeatures cmd host reqs =
    { ret := 0, result := (BitVec.ofInt 32 host.kato).setWidth 64, host := host, aenReqList := reqs } := by
  rw [PseudoTarget.handleGetFeatures, if_neg (not_async h), if_pos (show _ = _ from h)]

theorem handleGetFeatures_host : (PseudoTarget.handleGetFeatures cmd host reqs).host = host := by
  rw [PseudoTarget.handleGetFeatures]
  split
  · rfl
  · split <;> rfl

end

/-- The discovery daemon, with what it has besides the host when a command comes. -/
def dem : Daemon (HostConn × List EventRequest) (Lists × PseudoTarget.Answers) where
  kato s := s.1.kato
  answersGet := true
  handle cmd env s := (PseudoTarget.handleRequest env.1 cmd env.2 s.1 s.2).map (fun out => ((out.1.host, out.1.aenReqList), out.2))

/-- What the discovery daemon makes of a handled command. -/
theorem dem_handle {cmd : NvmeCommand} {env : Lists × PseudoTarget.Answers} {host : HostConn} {reqs : List EventRequest}
    {out : PseudoTarget.Handled} (h : PseudoTarget.dispatch env.1 cmd env.2 host reqs = .ok out) :
    dem.handle cmd env (host, reqs) = .ok ((out.host, out.aenReqList), out.resp cmd.commandId) := by
  show (PseudoTarget.handleRequest env.1 cmd env.2 host reqs).map _ = _
  rw [PseudoTarget.handleRequest, h]
  rfl

/-- A time that is set is small enough, and the time is not asked for after one other than zero was set. -/
def DemFine (last : Option (BitVec 32)) (_kato : Int) (cmd : NvmeCommand) : Prop :=
  IsKato cmd → if cmd.opcode = nvmeAdminSetFeatures then ticks cmd.cdw11 < 2 ^ 31 else ∀ value, last = some value → value = 0

theorem dem_step (cmd : NvmeCommand) (hcmd : cmd.opcode = nvmeAdminSetFeatures ∨ cmd.opcode = nvmeAdminGetFeatures)
    (env : Lists × PseudoTarget.Answers) (last : Option (BitVec 32)) (s : HostConn × List EventRequest) (hkept : Kept (dem.kato s) last) :
    ∃ s' resp, dem.handle cmd env s = .ok (s', resp) ∧ (Obeys dem last cmd s s' resp ↔ DemFine last (dem.kato s) cmd) ∧
      (DemFine last (dem.kato s) cmd → Kept (dem.kato s') (told last cmd) ∧ dem.kato s' = setting (dem.kato s) cmd) := by
  obtain ⟨host, reqs⟩ := s
  rcases hcmd with hset | hget
  · have hdispatch : PseudoTarget.dispatch env.1 cmd env.2 host reqs = .ok (PseudoTarget.handleSetFeatures cmd host reqs) := by
      rw [PseudoTarget.dispatch, hset]
      rfl
    refine ⟨_, _, dem_handle hdispatch, ?_⟩
    by_cases hkato : IsKato cmd
    · have hfine : DemFine last host.kato cmd ↔ ticks cmd.cdw11 < 2 ^ 31 := by
        rw [DemFine, if_pos hset]
        exact forall_prop_of_true hkato
      rw [handleSetFeatures_kato hkato, obeys_set_iff hset hkato]
      refine ⟨?_, ?_⟩
      · rw [show DemFine last (dem.kato (host, reqs)) cmd ↔ _ from hfine]
        exact ⟨fun h => ((stored_eq_ticks_iff _ _).mp h.2).2, fun h => ⟨rfl, stored_of_lt h⟩⟩
      · intro h
        have hlt := hfine.mp h
        exact kept_set hset hkato (stored_of_lt hlt) hlt
    · have hsame : (PseudoTarget.handleSetFeatures cmd host reqs).host.kato = host.kato := by rw [handleSetFeatures_other hkato]
      rw [obeys_other_iff hset hkato]
      exact ⟨iff_of_true hsame (fun h => absurd h hkato), fun _ => kept_same (fun h => hkato h.2) hsame hkept⟩
  · have hdispatch : PseudoTarget.dispatch env.1 cmd env.2 host reqs = .ok (PseudoTarget.handleGetFeatures cmd host reqs) := by
      rw [PseudoTarget.dispatch, hget]
      rfl
    have hsame : (PseudoTarget.handleGetFeatures cmd host reqs).host.kato = host.kato := by rw [handleGetFeatures_host]
    refine ⟨_, _, dem_handle hdispatch, ?_, fun _ => kept_same (fun h => ne_set hget h.1) hsame hkept⟩
    have hanswers : dem.answersGet = true := rfl
    rw [obeys_get_iff hget, DemFine, if_neg (ne_set hget), forall_prop_of_true hanswers]
    refine forall_congr' (fun hkato => forall_congr' (fun value => forall_congr' (fun hvalue => ?_)))
    obtain ⟨hticks, hlt⟩ := hkept value hvalue
    rw [handleGetFeatures_kato hkato, ← ofInt_ticks_iff hlt, ← hticks]
    exact and_iff_right rfl

/-! ## A manager -/

/-- A manager, with what it has besides the host when a command comes. -/
def manager : Daemon HostConn EndpointTarget.Answers where
  kato host := host.kato
  answersGet := false
  handle cmd env host := (EndpointTarget.handleRequest cmd env host).map (fun out => (out.1.host, out.2))

/-- A time that is set has zero for the highest byte of its feature, is the same in both byte orders and small enough; another feature that is
set has another highest byte, unless its value makes the setting that there is. -/
def ManagerFine (_last : Option (BitVec 32)) (kato : Int) (cmd : NvmeCommand) : Prop :=
  cmd.opcode = nvmeAdminSetFeatures →
    if IsKato cmd then
      EndpointTarget.bswap32 cmd.cdw10 &&& 0xff = 0 ∧ EndpointTarget.bswap32 cmd.cdw11 = cmd.cdw11 ∧ ticks cmd.cdw11 < 2 ^ 31
    else EndpointTarget.bswap32 cmd.cdw10 &&& 0xff = 0 → stored (EndpointTarget.bswap32 cmd.cdw11) = kato

/-- What a manager makes of a handled command. -/
theorem manager_handle {cmd : NvmeCommand} {ans : EndpointTarget.Answers} {host : HostConn} {out : EndpointTarget.Handled}
    (h : EndpointTarget.dispatch cmd ans host = .ok out) :
    manager.handle cmd ans host = .ok (out.host, out.resp cmd.commandId) := by
  show (EndpointTarget.handleRequest cmd ans host).map _ = _
  rw [EndpointTarget.handleRequest, h]
  rfl

/-- A command that a manager takes for one that sets the time. -/
theorem handleSetFeatures_zero {cmd : NvmeCommand} {host : HostConn} (h : EndpointTarget.bswap32 cmd.cdw10 &&& 0xff = 0) :
    EndpointTarget.handleSetFeatures cmd host = { ret := 0, host := { host with kato := stored (EndpointTarget.bswap32 cmd.cdw11) } } := by
  rw [EndpointTarget.handleSetFeatures, if_pos h]
  rfl

theorem handleSetFeatures_refused {cmd : NvmeCommand} {host : HostConn} (h : ¬EndpointTarget.bswap32 cmd.cdw10 &&& 0xff = 0) :
    EndpointTarget.handleSetFeatures cmd host = { ret := PseudoTarget.nvmeScInvalidField, host := host } := by
  rw [EndpointTarget.handleSetFeatures, if_neg h]

theorem manager_step (cmd : NvmeCommand) (hcmd : cmd.opcode = nvmeAdminSetFeatures ∨ cmd.opcode = nvmeAdminGetFeatures)
    (ans : EndpointTarget.Answers) (last : Option (BitVec 32)) (host : HostConn) (hkept : Kept (manager.kato host) last) :
    ∃ host' resp, manager.handle cmd ans host = .ok (host', resp) ∧
      (Obeys manager last cmd host host' resp ↔ ManagerFine last (manager.kato host) cmd) ∧
      (ManagerFine last (manager.kato host) cmd →
        Kept (manager.kato host') (told last cmd) ∧ manager.kato host' = setting (manager.kato host) cmd) := by
  rcases hcmd with hset | hget
  · have hdispatch : EndpointTarget.dispatch cmd ans host = .ok (EndpointTarget.handleSetFeatures cmd host) := by
      rw [EndpointTarget.dispatch, hset]
      rfl
    refine ⟨_, _, manager_handle hdispatch, ?_⟩
    rw [ManagerFine, forall_prop_of_true hset]
    by_cases hkato : IsKato cmd
    · rw [obeys_set_iff hset hkato, if_pos hkato]
      by_cases hzero : EndpointTarget.bswap32 cmd.cdw10 &&& 0xff = 0
      · rw [handleSetFeatures_zero hzero]
        refine ⟨?_, ?_⟩
        · constructor
          · exact fun h => ⟨hzero, (stored_eq_ticks_iff _ _).mp h.2⟩
          · exact fun h => ⟨rfl, (stored_eq_ticks_iff _ _).mpr h.2⟩
        · exact fun h => kept_set hset hkato ((stored_eq_ticks_iff _ _).mpr h.2) h.2.2
      · rw [handleSetFeatures_refused hzero]
        have hstatus : (PseudoTarget.nvmeScDnr ||| .ofInt 16 PseudoTarget.nvmeScInvalidField) <<< 1 ≠ 0 := by decide
        exact ⟨iff_of_false (fun h => hstatus h.1) (fun h => hzero h.1), fun h => absurd h.1 hzero⟩
    · rw [obeys_other_iff hset hkato, if_neg hkato]
      by_cases hzero : EndpointTarget.bswap32 cmd.cdw10 &&& 0xff = 0
      · rw [handleSetFeatures_zero hzero, forall_prop_of_true hzero]
        exact ⟨Iff.rfl, fun h => kept_same (fun h' => hkato h'.2) h hkept⟩
      · rw [handleSetFeatures_refused hzero]
        exact ⟨iff_of_true rfl (fun h => absurd h hzero), fun _ => kept_same (fun h' => hkato h'.2) rfl hkept⟩
  · have hdispatch : EndpointTarget.dispatch cmd ans host = .ok { ret := PseudoTarget.nvmeScInvalidOpcode, host := host } := by
      rw [EndpointTarget.dispatch, hget]
      rfl
    refine ⟨_, _, manager_handle hdispatch, ?_, fun _ => kept_same (fun h => ne_set hget h.1) rfl hkept⟩
    rw [obeys_get_iff hget]
    exact iff_of_true (fun h => nomatch h) (fun hset => absurd hset (ne_set hget))

/-! ## Runs -/

theorem kept_none (kato : Int) : Kept kato none := fun _ h => nomatch h

theorem dem_law_iff (cmds : List (Feature × Lists × PseudoTarget.Answers)) (host : HostConn) (reqs : List EventRequest) :
    Law dem cmds none (host, reqs) ↔ Meets DemFine cmds none host.kato :=
  law_iff dem DemFine dem_step cmds none (host, reqs) (kept_none _)

theorem manager_law_iff (cmds : List (Feature × EndpointTarget.Answers)) (host : HostConn) :
    Law manager cmds none host ↔ Meets ManagerFine cmds none host.kato :=
  law_iff manager ManagerFine manager_step cmds none host (kept_none _)

/-- A run of either daemon obeys the law if and only if its commands meet the condition of the daemon. -/
theorem keep_alive_law_iff (demCmds : List (Feature × Lists × PseudoTarget.Answers)) (managerCmds : List (Feature × EndpointTarget.Answers))
    (host : HostConn) (reqs : List EventRequest) :
    (Law dem demCmds none (host, reqs) ↔ Meets DemFine demCmds none host.kato) ∧
    (Law manager managerCmds none host ↔ Meets ManagerFine managerCmds none host.kato) :=
  ⟨dem_law_iff demCmds host reqs, manager_law_iff managerCmds host⟩

/-- A time that is set. -/
def setKato : Feature := ⟨{ opcode := nvmeAdminSetFeatures, cdw10 := 0x0F, cdw11 := 1 }, .inl rfl⟩

/-- The time is asked for. -/
def getKato : Feature := ⟨{ opcode := nvmeAdminGetFeatures, cdw10 := 0x0F }, .inr rfl⟩

/-- The discovery daemon does not answer with the time that was set, and a manager sets another one. -/
theorem not_keep_alive_law :
    (¬∀ (cmds : List (Feature × Lists × PseudoTarget.Answers)) (host : HostConn) (reqs : List EventRequest),
      Law dem cmds none (host, reqs)) ∧
    ¬∀ (cmds : List (Feature × EndpointTarget.Answers)) (host : HostConn), Law manager cmds none host := by
  constructor
  · intro h
    have env : Lists × PseudoTarget.Answers :=
      ({}, { rmaRead := none, rmaWrite := true, malloc := none, allocKey := true, data := Mem.filled 0 })
    have hlaw := h [(setKato, env), (getKato, env)] { ep := 0, nqn := "host", kato := 200, countdown := 200 } []
    obtain ⟨-, hget, -⟩ := (dem_law_iff _ _ _).mp hlaw
    exact absurd (hget rfl 1 rfl) (by decide)
  · intro h
    have ans : EndpointTarget.Answers :=
      { rmaRead := .error 0, rmaWrite := true, data := Mem.filled 0, ops := fun _ => 0, devices := [], interfaces := [] }
    have hlaw := h [(setKato, ans)] { ep := 0, nqn := "host", kato := 200, countdown := 200 }
    obtain ⟨hset, -⟩ := (manager_law_iff _ _).mp hlaw
    have hfine := hset rfl
    rw [if_pos (show IsKato setKato.val from rfl)] at hfine
    exact absurd hfine.2.1 (by decide)

end NvmeDem.KeepAlive
