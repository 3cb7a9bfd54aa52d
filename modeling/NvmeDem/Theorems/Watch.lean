import NvmeDem.Lemmas.Errands
import NvmeDem.Theorems.Modes

/-!
# A target that is told of every change

The daemon goes from request to request, and a target that it manages is told on the way. `Watch` looks at both: at the daemon, and
at the session with the manager of one target for as long as the target is there. A step is a request of which every message
reached the manager (`watchStep`).

A message that comes out as it went in makes one change (`does_sendMessage`). So a step changes the record of the target by the
errand of the request and the configuration at the manager by the changes of its messages, and what each errand keeps of the two,
every run keeps (`Run.watch`).
-/

namespace NvmeDem

open Link

namespace Push

/-! ## Messages that come out as they went in -/

/-- The call that a message makes in a mode, with the values as the daemon has them. -/
def Message.call (mode : MgmtMode) (msg : Message) : OpsCall :=
  match mode with
  | .outOfBandMgmt => msg.oobCall
  | _ => msg.given

/-- The change that a message makes at the manager. -/
def Message.change (mode : MgmtMode) (msg : Message) : Change := (msg.call mode).change

/-- In band the values fit the fields. -/
structure Message.ArrivesInb (msg : Message) : Prop where
  nqns : ∀ nqn ∈ msg.nqns, NqnFits nqn
  ints : ∀ n ∈ msg.ints, IsInt n
  range : msg.InRange

instance (portid : Portid) : Decidable (PortFaithful portid) :=
  decidable_of_iff ((0 ≤ portid.portid ∧ portid.portid < 2 ^ 16) ∧ trtypeStr (toTrtype portid.type) = portid.type ∧
    adrfamStr (toAdrfam portid.family) = portid.family) ⟨fun h => ⟨h.1, h.2.1, h.2.2⟩, fun h => ⟨h.id, h.type, h.family⟩⟩

instance : (msg : Message) → Decidable msg.InRange
  | .setPort portid => inferInstanceAs (Decidable (PortFaithful portid))
  | .delPort portid | .linkPort _ portid | .unlinkPort _ portid => inferInstanceAs (Decidable (PortidFits portid.portid))
  | .setSubsys subsys => inferInstanceAs (Decidable (0 ≤ subsys.access ∧ subsys.access < 2 ^ 8))
  | .configNs _ ns | .setNs _ ns => inferInstanceAs (Decidable (ns.devid ≠ nvmfNullbDevid))
  | .reset | .delSubsys _ | .delNs _ _ | .setHost _ | .delHost _ | .linkHost _ _ | .unlinkHost _ _ => inferInstanceAs (Decidable True)

instance (msg : Message) : Decidable msg.ArrivesInb :=
  decidable_of_iff ((∀ nqn ∈ msg.nqns, NqnFits nqn) ∧ (∀ n ∈ msg.ints, IsInt n) ∧ msg.InRange)
    ⟨fun h => ⟨h.1, h.2.1, h.2.2⟩, fun h => ⟨h.nqns, h.ints, h.range⟩⟩

/-- Out of band the names need no escape, the URI fits its buffer, and the other side reads what was written. -/
structure Message.ArrivesOob (w : Wire) (target : Target) (msg : Message) : Prop where
  names : ∀ name ∈ msg.names, Plain name
  ints : ∀ n ∈ msg.ints, IsInt n
  allowed : ∀ portid, msg = .setPort portid → PortidAllowed portid
  uri : UriFits target msg.oob.path
  reads : msg.ReadsAsWritten w.http w.json target

/-- A message to a managed target comes out as it went in. -/
def Message.Arrives (w : Wire) (target : Target) (msg : Message) : Prop :=
  (target.mgmtMode = .inBandMgmt ∧ msg.ArrivesInb) ∨ (target.mgmtMode = .outOfBandMgmt ∧ msg.ArrivesOob w target)

section

variable {w : Wire} {target : Target} {msg : Message}

theorem takes_inb (h : msg.ArrivesInb) : Takes msg.inb True msg.given.change where
  taken := by
    intro _ config
    rw [handleMiSend_eq, miCall_inb h.nqns, (inbCall_eq_given_iff h.ints).2 h.range]
    exact congrArg Except.ok (OpsCall.run_eq config _)
  fits_of_ok := fun _ => trivial

theorem does_execOob (h : msg.ArrivesOob w target) : Does w (execOob w target msg.oob) True True [msg.oobCall.change] := by
  have hurl : uriTo target msg.oob.path = .ok (getUri target ++ msg.oob.path) := if_pos h.uri
  have hout := outcome_oob h.names h.ints h.allowed h.reads.body
  have hdone : ∀ config : Finset Item, (Except.ok (.call msg.oobCall) : Except Fault Outcome).map
      (fun out => (if (out.run config).1 = 0 then 0 else -einval, (out.run config).2)) =
        .ok (0, applyChange config msg.oobCall.change) := by
    intro config
    show Except.ok (if (msg.oobCall.run config).1 = 0 then 0 else -einval, (msg.oobCall.run config).2) = _
    rw [OpsCall.run_eq]
    rfl
  have hattempt : ∀ handle : Finset Item → List String → Except Fault (Int × Finset Item),
      (∀ config, request w (getUri target ++ msg.oob.path) handle config = .ok (0, applyChange config msg.oobCall.change)) →
        Does w (execRequest w target msg.oob.path handle) True True [msg.oobCall.change] := by
    intro handle hhandle
    have hprog : execRequest w target msg.oob.path handle = attempt w.net (request w (getUri target ++ msg.oob.path) handle) := by
      funext s
      simp only [execRequest, hurl]
    rw [hprog]
    refine Writes.attempt (fun _ far => ⟨_, hhandle far⟩) ?_ ?_
    · intro far far' hok
      rw [hhandle] at hok
      cases hok
      exact ⟨trivial, trivial, rfl⟩
    · intro _ far ret far' hok
      rw [hhandle] at hok
      cases hok
      rfl
  have huri := h.reads.uri
  cases hreq : msg.oob with
  | post path body =>
    rw [hreq] at hattempt hout huri
    refine hattempt _ (fun config => (request_post_eq w path body config huri).trans ?_)
    exact (congrArg (Except.map _) hout).trans (hdone config)
  | delete path =>
    rw [hreq] at hattempt hout huri
    refine hattempt _ (fun config => (request_delete_eq w path config huri).trans ?_)
    exact (congrArg (Except.map _) hout).trans (hdone config)

/-- What a message does that comes out as it went in. -/
theorem does_sendMessage (h : msg.Arrives w target) : Does w (sendMessage w target msg) True True [msg.change target.mgmtMode] := by
  rcases h with ⟨hmode, h⟩ | ⟨hmode, h⟩
  · have hsend : sendMessage w target msg = sendSetConfig w msg.inb := by simp only [sendMessage, hmode]
    rw [hsend, hmode]
    exact does_sendSetConfig (takes_inb h)
  · have hsend : sendMessage w target msg = execOob w target msg.oob := by simp only [sendMessage, hmode]
    rw [hsend, hmode]
    exact does_execOob h

end

/-- What an errand changes at the manager. -/
def changes (target : Target) (e : Errand) : List Change := (e.script target).messages.map (Message.change target.mgmtMode)

/-- The messages of an errand come out as they went in. -/
def Arrive (w : Wire) (target : Target) (e : Errand) : Prop := ∀ msg ∈ (e.script target).messages, msg.Arrives w target

theorem does_script {w : Wire} {target : Target} {e : Errand} (h : Arrive w target e) :
    Does w ((e.script target).run (sendMessage w target)) True True (changes target e) :=
  Script.writes_run (fun msg hm => does_sendMessage (h msg hm))

theorem arrive_inb {w : Wire} {target : Target} {e : Errand} (hmode : target.mgmtMode = .inBandMgmt)
    (h : ∀ msg ∈ (e.script target).messages, msg.ArrivesInb) : Arrive w target e := fun msg hm => Or.inl ⟨hmode, h msg hm⟩

/-! ## Steps -/

/-- The daemon, the alias of a target while the target is there, and the session with its manager. -/
structure Watch where
  dem : Daemon
  name : Option String
  session : Session (Finset Item)

namespace Watch

/-- The target that is watched. -/
def target (s : Watch) : Option Target := s.name.bind (findTarget s.dem.lists)

/-- The errand of a request at the target. -/
def errand (J : JsonLib) (op : World × Request) (s : Watch) : Option Errand :=
  s.name.bind (op.2.errand J op.1 s.dem.root)

/-- What a request tells the target. -/
def tell (J : JsonLib) (w : Wire) (op : World × Request) (s : Watch) : Sends :=
  match s.target, s.errand J op with
  | some target, some e => (e.script target).run (sendMessage w target)
  | _, _ => done

end Watch

def isDelTarget : Errand → Bool
  | .delTarget => true
  | _ => false

/-- A request that returns and of which every message was sent well. -/
def watchStep (J : JsonLib) (w : Wire) (op : World × Request) (s s' : Watch) : Prop :=
  demStep J op s.dem s'.dem ∧ (∃ ret, s.tell J w op s.session = .ok (ret, s'.session)) ∧ s'.session.Quiet ∧
    s'.name = if (s.errand J op).any isDelTarget then none else s.name

/-- A request whose errand at the target has messages that come out as they went in, and meets a condition. -/
def Told (J : JsonLib) (w : Wire) (keeps : Target → Finset Item → Errand → Prop) (s : Watch) (op : World × Request) : Prop :=
  op.2.tells = true ∧ ∀ target e, s.target = some target → s.errand J op = some e →
    Arrive w target e ∧ keeps target s.session.far e

section

variable {J : JsonLib} {w : Wire} {s₀ s s' : Watch} {op : World × Request} {target : Target}

/-- A step without an errand. -/
theorem watchStep_idle (hs : watchStep J w op s s') (htells : op.2.tells = true) (htarget : s.target = some target)
    (he : s.errand J op = none) :
    (∃ target', s'.target = some target' ∧ target'.withoutLogs = target.withoutLogs) ∧ s'.session.far = s.session.far := by
  obtain ⟨⟨-, a, hr, hdem⟩, ⟨ret, htell⟩, -, hname⟩ := hs
  obtain ⟨name, hsome, hfind⟩ := Option.bind_eq_some_iff.mp htarget
  have herrand : op.2.errand J op.1 s.dem.root name = none := by
    simpa [Watch.errand, hsome] using he
  have hnow := now_of_run hfind hr htells (by simp [herrand])
  rw [herrand, hdem] at hnow
  rw [he] at hname
  obtain ⟨target', hfind', hsame⟩ := hnow
  refine ⟨⟨target', ?_, hsame⟩, ?_⟩
  · have hname' : s'.name = some name := hname.trans hsome
    rw [Watch.target, hname']
    exact hfind'
  · simp only [Watch.tell, htarget, he, done, Except.ok.injEq, Prod.mk.injEq] at htell
    rw [← htell.2]

/-- A step with an errand: the configuration changes by its messages, and the record by the errand if the target stays. -/
theorem watchStep_errand {e : Errand} (hs : watchStep J w op s s') (htells : op.2.tells = true) (htarget : s.target = some target)
    (he : s.errand J op = some e) (harrive : Arrive w target e) :
    s'.session.far = (changes target e).foldl applyChange s.session.far ∧
      ((isDelTarget e = true ∧ s'.name = none) ∨ (isDelTarget e = false ∧
        ∃ target', s'.target = some target' ∧ target'.withoutLogs = (e.apply target).withoutLogs)) := by
  obtain ⟨⟨-, a, hr, hdem⟩, ⟨ret, htell⟩, hquiet, hname⟩ := hs
  obtain ⟨name, hsome, hfind⟩ := Option.bind_eq_some_iff.mp htarget
  have herrand : op.2.errand J op.1 s.dem.root name = some e := by
    simpa [Watch.errand, hsome] using he
  refine ⟨?_, ?_⟩
  · simp only [Watch.tell, htarget, he] at htell
    exact ((does_script harrive).quiet htell hquiet).2.2.2.2
  · rw [he, Option.any_some] at hname
    cases hdel : isDelTarget e
    · rw [hdel] at hname
      have hstay : op.2.errand J op.1 s.dem.root name ≠ some .delTarget := by
        rw [herrand]
        rintro h
        rw [Option.some.inj h] at hdel
        cases hdel
      have hnow := now_of_run hfind hr htells hstay
      rw [herrand, hdem] at hnow
      obtain ⟨target', hfind', hsame⟩ := hnow
      refine Or.inr ⟨rfl, target', ?_, hsame⟩
      have hname' : s'.name = some name := hname.trans hsome
      rw [Watch.target, hname']
      exact hfind'
    · rw [hdel] at hname
      exact Or.inl ⟨rfl, hname⟩

/-- Over a link that never fails, a request whose messages come out as they went in is a step. -/
theorem exists_watchStep {e : Errand} {a : Answer} (hnet : ∀ n, w.net n = 0) (hquiet : s.session.Quiet) (hfresh : op.1.Fresh s.dem)
    (hr : op.2.run J op.1 s.dem = .ok a) (htarget : s.target = some target) (he : s.errand J op = some e)
    (harrive : Arrive w target e) : ∃ s', watchStep J w op s s' := by
  have hdoes := does_script harrive
  obtain ⟨ret, session, hsent⟩ := hdoes.returns trivial s.session
  refine ⟨⟨a.dem, if (s.errand J op).any isDelTarget then none else s.name, session⟩, ⟨hfresh, a, hr, rfl⟩, ⟨ret, ?_⟩, ?_, rfl⟩
  · simp only [Watch.tell, htarget, he]
    exact hsent
  · exact hdoes.calm hnet trivial hsent hquiet

/-- The rule for runs: `P` speaks of the target and the configuration while the target is there, `Q` of the configuration after
it was deleted. -/
theorem Run.watch {keeps : Target → Finset Item → Errand → Prop} {P : Target → Finset Item → Prop} {Q : Finset Item → Prop}
    (hrun : Run (watchStep J w) (Told J w keeps) s₀ s) (h₀ : ∃ target, s₀.target = some target ∧ P target s₀.session.far)
    (hlogs : ∀ t t' config, t.withoutLogs = t'.withoutLogs → P t config → P t' config)
    (hstep : ∀ target config e, P target config → keeps target config e → isDelTarget e = false →
      P (e.apply target) ((changes target e).foldl applyChange config))
    (hdel : ∀ target config, P target config → keeps target config .delTarget →
      Q ((changes target .delTarget).foldl applyChange config)) :
    (∃ target, s.target = some target ∧ P target s.session.far) ∨ (s.name = none ∧ Q s.session.far) := by
  refine Run.invariant (I := fun s => (∃ target, s.target = some target ∧ P target s.session.far) ∨
    (s.name = none ∧ Q s.session.far)) hrun (Or.inl h₀) ?_
  rintro s op s' (⟨target, htarget, hP⟩ | ⟨hnone, hQ⟩) ⟨htells, hkeeps⟩ hs
  · cases he : s.errand J op with
    | none =>
      obtain ⟨⟨target', htarget', hsame⟩, hfar⟩ := watchStep_idle hs htells htarget he
      exact Or.inl ⟨target', htarget', by rw [hfar]; exact hlogs _ _ _ hsame.symm hP⟩
    | some e =>
      obtain ⟨harrive, hkeep⟩ := hkeeps target e htarget he
      obtain ⟨hfar, ⟨hisdel, hname⟩ | ⟨hstay, target', htarget', hsame⟩⟩ := watchStep_errand hs htells htarget he harrive
      · refine Or.inr ⟨hname, ?_⟩
        rw [hfar]
        cases e with
        | delTarget => exact hdel target _ hP hkeep
        | _ => cases hisdel
      · refine Or.inl ⟨target', htarget', ?_⟩
        rw [hfar]
        exact hlogs _ _ _ hsame.symm (hstep target _ e hP hkeep hstay)
  · obtain ⟨-, ⟨ret, htell⟩, -, hname⟩ := hs
    have he : s.errand J op = none := by simp [Watch.errand, hnone]
    have htarget : s.target = none := by simp [Watch.target, hnone]
    refine Or.inr ⟨by rw [hname, he]; exact hnone, ?_⟩
    simp only [Watch.tell, htarget, done, Except.ok.injEq, Prod.mk.injEq] at htell
    rw [← htell.2]
    exact hQ

end

end Push

end NvmeDem
