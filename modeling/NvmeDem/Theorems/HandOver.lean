import NvmeDem.Dem.HandOver

/-!
# The host queue is a channel

What the host thread reads from the queue is what the interface thread queued, in that order, from the first on: nothing is lost,
read twice or read as NULL, however the two threads take turns.

The places are the two counters modulo the size: `queued.length` endpoints were queued, `r` were taken and their slots given back.
The interface thread writes the slot of the next endpoint after it saw that there is room, which the host thread only makes more
of; the host thread reads the slot of the `r`-th after it saw that it is queued, and the interface thread only queues more.
-/

namespace NvmeDem.HandOver

open Ring

variable {α : Type}

/-- What the interface thread knows: `n` endpoints were queued, `r` taken. -/
def InterfaceKnows (q : HostQueue α) (n r : Nat) : InterfaceThread α → Prop
  | .waitForConnection => True
  | .isFull _ _ head tail =>
    (∀ x, head = some x → x = place hostQueueMax n) ∧
      ∀ y, tail = some y → ∃ r', r' ≤ r ∧ n < r' + hostQueueMax ∧ y = place hostQueueMax r'
  | .setEp _ => n + 1 < r + hostQueueMax
  | .writeEp _ head => n + 1 < r + hostQueueMax ∧ head = place hostQueueMax n
  | .setHead ep => n + 1 < r + hostQueueMax ∧ q.ep[place hostQueueMax n]? = some (some ep)
  | .writeHead ep head =>
    n + 1 < r + hostQueueMax ∧ q.ep[place hostQueueMax n]? = some (some ep) ∧ head = place hostQueueMax n

/-- What the host thread knows. -/
def HostKnows (n r : Nat) : HostThread → Prop
  | .isEmpty head tail =>
    (∀ x, head = some x → ∃ n', r ≤ n' ∧ n' ≤ n ∧ x = place hostQueueMax n') ∧
      ∀ y, tail = some y → y = place hostQueueMax r
  | .testEp | .getEp | .clearEp | .setTail => r < n
  | .readTestEp tail | .readEp tail | .writeNull tail | .writeTail tail => r < n ∧ tail = place hostQueueMax r

/-- Whether the host thread has read the endpoint whose slot it has not given back. -/
def HostThread.hasRead : HostThread → Nat
  | .clearEp | .writeNull _ | .setTail | .writeTail _ => 1
  | _ => 0

/-- Whether it has cleared that slot. -/
def HostThread.hasCleared : HostThread → Nat
  | .setTail | .writeTail _ => 1
  | _ => 0

/-- More endpoints are queued. -/
theorem HostKnows.mono {n n' r : Nat} {at' : HostThread} (h : HostKnows n r at') (hle : n ≤ n') : HostKnows n' r at' := by
  cases at' with
  | isEmpty head tail =>
    refine ⟨fun x hx => ?_, h.2⟩
    obtain ⟨k, hr, hk, heq⟩ := h.1 x hx
    exact ⟨k, hr, Nat.le_trans hk hle, heq⟩
  | testEp | getEp | clearEp | setTail => exact Nat.lt_of_lt_of_le h hle
  | readTestEp tail | readEp tail | writeNull tail | writeTail tail => exact ⟨Nat.lt_of_lt_of_le h.1 hle, h.2⟩

/-- More endpoints are taken, and the slot of the next one is left alone. -/
theorem InterfaceKnows.mono {q q' : HostQueue α} {n r r' : Nat} {at' : InterfaceThread α} (h : InterfaceKnows q n r at')
    (hslot : q'.ep[place hostQueueMax n]? = q.ep[place hostQueueMax n]?) (hle : r ≤ r') : InterfaceKnows q' n r' at' := by
  have hroom : n + 1 < r + hostQueueMax → n + 1 < r' + hostQueueMax := fun hlt => by omega
  cases at' with
  | waitForConnection => trivial
  | isFull loop ep head tail =>
    refine ⟨h.1, fun y hy => ?_⟩
    obtain ⟨k, hk, hlt, heq⟩ := h.2 y hy
    exact ⟨k, Nat.le_trans hk hle, hlt, heq⟩
  | setEp ep => exact hroom h
  | writeEp ep head => exact ⟨hroom h.1, h.2⟩
  | setHead ep => exact ⟨hroom h.1, hslot.trans h.2⟩
  | writeHead ep head => exact ⟨hroom h.1, hslot.trans h.2.1, h.2.2⟩

/-- An endpoint that was read was queued. -/
theorem HostKnows.hasRead_le {n r : Nat} {at' : HostThread} (h : HostKnows n r at') (hle : r ≤ n) : r + at'.hasRead ≤ n := by
  cases at' with
  | clearEp | setTail => exact h
  | writeNull tail | writeTail tail => exact h.1
  | _ => exact hle

theorem HostKnows.isEmpty (n r : Nat) : HostKnows n r (.isEmpty none none) := by
  constructor <;> intro _ h <;> cases h

theorem InterfaceKnows.isFull {q : HostQueue α} {n r : Nat} (loop : Bool) (ep : α) :
    InterfaceKnows q n r (.isFull loop ep none none) := by
  constructor <;> intro _ h <;> cases h

theorem HostThread.hasCleared_le (at' : HostThread) : at'.hasCleared ≤ at'.hasRead := by
  cases at' with
  | clearEp | writeNull tail => exact Nat.zero_le 1
  | _ => exact Nat.le_refl _

/-- What the interface thread knows after it compared the two places: if they tell that the queue is not full, there is room. -/
theorem InterfaceKnows.decideFull {q : HostQueue α} {n r : Nat} {loop : Bool} {ep : α} {head tail : Nat} (stopped : Bool)
    (h : InterfaceKnows q n r (.isFull loop ep (some head) (some tail))) :
    InterfaceKnows q n r (decideFull loop ep head tail stopped) := by
  obtain ⟨hhead, htail⟩ := h
  obtain ⟨r', hle, hroom, rfl⟩ := htail tail rfl
  obtain rfl := hhead head rfl
  unfold HandOver.decideFull
  rw [place_succ]
  split
  · cases loop with
    | false => trivial
    | true => cases stopped <;> exact .isFull _ _
  · rename_i hne
    cases loop with
    | true => exact .isFull _ _
    | false =>
      -- the slot after the head is not the tail that was read, and the tail has only moved on since
      have hlt : n + 1 ≠ r' + hostQueueMax := by
        intro heq
        refine hne ?_
        rw [heq, place, Nat.add_mod_right]
        rfl
      show n + 1 < r + hostQueueMax
      omega

/-- What the host thread knows after it compared the two places: if they tell that the queue is not empty, it is not. -/
theorem HostKnows.decideEmpty {n r : Nat} {head tail : Nat} (h : HostKnows n r (.isEmpty (some head) (some tail))) :
    (decideEmpty head tail).hasRead = 0 ∧ (decideEmpty head tail).hasCleared = 0 ∧ HostKnows n r (decideEmpty head tail) := by
  obtain ⟨k, hr, hk, rfl⟩ := h.1 head rfl
  obtain rfl := h.2 tail rfl
  unfold HandOver.decideEmpty
  split
  · exact ⟨rfl, rfl, .isEmpty _ _⟩
  · rename_i hne
    refine ⟨rfl, rfl, Nat.lt_of_lt_of_le (Nat.lt_of_le_of_ne hr ?_) hk⟩
    rintro rfl
    exact hne rfl

/-- The invariant: `r` endpoints were taken and their slots given back. -/
structure Inv (r : Nat) (s : State α) : Prop where
  slots : s.q.ep.length = hostQueueMax
  head : s.q.head = place hostQueueMax s.queued.length
  tail : s.q.tail = place hostQueueMax r
  le : r ≤ s.queued.length
  room : s.queued.length < r + hostQueueMax
  received : s.received = (s.queued.take (r + s.host.hasRead)).map some
  holds : Holds hostQueueMax s.q.ep s.queued (r + s.host.hasCleared)
  interface : InterfaceKnows s.q s.queued.length r s.interface
  host : HostKnows s.queued.length r s.host

theorem inv_start : Inv 0 (start α) where
  slots := rfl
  head := rfl
  tail := rfl
  le := Nat.le_refl 0
  room := Nat.zero_lt_succ 2
  received := rfl
  holds := .of_length_le (Nat.zero_le _)
  interface := trivial
  host := .isEmpty 0 0

namespace Inv

variable {r : Nat} {s : State α}

theorem place_lt (h : Inv r s) (k : Nat) : place hostQueueMax k < s.q.ep.length := by
  rw [h.slots]
  exact Ring.place_lt (Nat.zero_lt_succ 2) k

/-- The interface thread goes on without a write. -/
theorem moveInterface (h : Inv r s) {at' : InterfaceThread α} (hknows : InterfaceKnows s.q s.queued.length r at') :
    Inv r { s with interface := at' } :=
  { h with interface := hknows }

/-- The host thread goes on without a write. -/
theorem moveHost (h : Inv r s) {at' : HostThread} (hread : at'.hasRead = s.host.hasRead)
    (hcleared : at'.hasCleared = s.host.hasCleared) (hknows : HostKnows s.queued.length r at') :
    Inv r { s with host := at' } :=
  { h with
    received := by rw [hread]; exact h.received
    holds := by rw [hcleared]; exact h.holds
    host := hknows }

/-! ## The interface thread -/

/-- The slot of the next endpoint is written. -/
theorem writeEp (h : Inv r s) (ep : α) (hroom : s.queued.length + 1 < r + hostQueueMax) :
    Inv r { s with
      q := { s.q with ep := s.q.ep.set (place hostQueueMax s.queued.length) (some ep) }
      interface := .setHead ep } :=
  { h with
    slots := by rw [List.length_set]; exact h.slots
    holds := h.holds.store (by omega) (some ep)
    interface := ⟨hroom, List.getElem?_set_self (h.place_lt s.queued.length)⟩ }

/-- The next endpoint is queued. -/
theorem writeHead (h : Inv r s) (ep : α) (hroom : s.queued.length + 1 < r + hostQueueMax)
    (hep : s.q.ep[place hostQueueMax s.queued.length]? = some (some ep)) :
    Inv r { s with
      q := { s.q with head := (place hostQueueMax s.queued.length + 1) % hostQueueMax }
      interface := .waitForConnection
      queued := s.queued ++ [ep] } := by
  have hlength : (s.queued ++ [ep]).length = s.queued.length + 1 := List.length_append
  constructor
  case slots => exact h.slots
  case head => exact (place_succ _ _).trans (congrArg (place hostQueueMax) hlength.symm)
  case tail => exact h.tail
  case le => exact hlength ▸ Nat.le_succ_of_le h.le
  case room => exact hlength ▸ hroom
  case received =>
    have hread := h.host.hasRead_le h.le
    show s.received = ((s.queued ++ [ep]).take (r + s.host.hasRead)).map some
    rw [List.take_append_of_le_length hread]
    exact h.received
  case holds => exact h.holds.push hep
  case interface => trivial
  case host => exact h.host.mono (hlength ▸ Nat.le_succ _)

theorem interfaceStep (h : Inv r s) (ep : α) (stopped tailFirst : Bool) :
    Inv r (interfaceStep s ep stopped tailFirst) := by
  have hknows := h.interface
  -- what is read now is what the places are now
  have hhead : ∀ x, some s.q.head = some x → x = place hostQueueMax s.queued.length := fun x hx =>
    (Option.some.inj hx).symm.trans h.head
  have htail : ∀ y, some s.q.tail = some y →
      ∃ r', r' ≤ r ∧ s.queued.length < r' + hostQueueMax ∧ y = place hostQueueMax r' := fun y hy =>
    ⟨r, Nat.le_refl r, h.room, (Option.some.inj hy).symm.trans h.tail⟩
  unfold HandOver.interfaceStep
  split <;> rename_i hat <;> rw [hat] at hknows
  · exact h.moveInterface (.isFull _ _)
  · split
    · exact h.moveInterface ⟨hknows.1, htail⟩
    · exact h.moveInterface ⟨hhead, hknows.2⟩
  · exact h.moveInterface ⟨hknows.1, htail⟩
  · exact h.moveInterface ⟨hhead, hknows.2⟩
  · exact h.moveInterface (hknows.decideFull stopped)
  · exact h.moveInterface ⟨hknows, h.head⟩
  · obtain ⟨hroom, rfl⟩ := hknows
    exact h.writeEp _ hroom
  · exact h.moveInterface ⟨hknows.1, hknows.2, h.head⟩
  · obtain ⟨hroom, hep, rfl⟩ := hknows
    exact h.writeHead _ hroom hep

/-! ## The host thread -/

/-- The endpoint that is next is in its slot. -/
theorem get_next (h : Inv r s) (hlt : r < s.queued.length) (hcleared : s.host.hasCleared = 0) :
    ∃ ep, s.queued[r]? = some ep ∧ s.q.get (place hostQueueMax r) = some ep := by
  have hep := List.getElem?_eq_getElem hlt
  refine ⟨_, hep, ?_⟩
  rw [HostQueue.get, h.holds r _ (by rw [hcleared]; exact Nat.le_refl r) hep]
  rfl

/-- The endpoint is read. -/
theorem readEp (h : Inv r s) (hread : s.host.hasRead = 0) (hcleared : s.host.hasCleared = 0) (hlt : r < s.queued.length) :
    Inv r { s with host := .clearEp, received := s.received ++ [s.q.get (place hostQueueMax r)] } := by
  obtain ⟨ep, hep, hget⟩ := h.get_next hlt hcleared
  refine { h with received := ?_, holds := ?_, host := hlt }
  · have hreceived := h.received
    rw [hread] at hreceived
    show s.received ++ [s.q.get (place hostQueueMax r)] = (s.queued.take (r + 1)).map some
    rw [hreceived, hget, List.take_add_one, hep, List.map_append]
    rfl
  · have hholds := h.holds
    rw [hcleared] at hholds
    exact hholds

/-- The slot is cleared. -/
theorem writeNull (h : Inv r s) (hread : s.host.hasRead = 1) (hcleared : s.host.hasCleared = 0) (hlt : r < s.queued.length) :
    Inv r { s with q := { s.q with ep := s.q.ep.set (place hostQueueMax r) none }, host := .setTail } := by
  have hholds := h.holds
  have hreceived := h.received
  rw [hcleared] at hholds
  rw [hread] at hreceived
  refine { h with
    slots := by rw [List.length_set]; exact h.slots
    received := hreceived
    holds := hholds.clear h.room none
    interface := h.interface.mono ?_ (Nat.le_refl r)
    host := hlt }
  exact List.getElem?_set_ne (place_ne hlt h.room)

/-- The slot is given back. -/
theorem writeTail (h : Inv r s) (hread : s.host.hasRead = 1) (hcleared : s.host.hasCleared = 1) (hlt : r < s.queued.length) :
    Inv (r + 1) { s with
      q := { s.q with tail := (place hostQueueMax r + 1) % hostQueueMax }
      host := .isEmpty none none } := by
  have hholds := h.holds
  have hreceived := h.received
  rw [hcleared] at hholds
  rw [hread] at hreceived
  exact {
    slots := h.slots
    head := h.head
    tail := place_succ hostQueueMax r
    le := hlt
    room := Nat.lt_of_lt_of_le h.room (by omega)
    received := hreceived
    holds := hholds
    interface := h.interface.mono rfl (Nat.le_succ r)
    host := .isEmpty _ _ }

theorem hostStep (h : Inv r s) (tailFirst : Bool) : ∃ r', Inv r' (hostStep s tailFirst) := by
  have hhead : ∀ x, some s.q.head = some x → ∃ n, r ≤ n ∧ n ≤ s.queued.length ∧ x = place hostQueueMax n := fun x hx =>
    ⟨_, h.le, Nat.le_refl _, (Option.some.inj hx).symm.trans h.head⟩
  have htail : ∀ y, some s.q.tail = some y → y = place hostQueueMax r := fun y hy =>
    (Option.some.inj hy).symm.trans h.tail
  obtain ⟨q, interface, host, queued, received⟩ := s
  have hknows := h.host
  cases host with
  | isEmpty head tail =>
    cases head with
    | none =>
      cases tail with
      | none =>
        cases tailFirst with
        | true => exact ⟨r, h.moveHost rfl rfl ⟨hknows.1, htail⟩⟩
        | false => exact ⟨r, h.moveHost rfl rfl ⟨hhead, hknows.2⟩⟩
      | some tail => exact ⟨r, h.moveHost rfl rfl ⟨hhead, hknows.2⟩⟩
    | some head =>
      cases tail with
      | none => exact ⟨r, h.moveHost rfl rfl ⟨hknows.1, htail⟩⟩
      | some tail =>
        obtain ⟨hread, hcleared, hnext⟩ := hknows.decideEmpty
        exact ⟨r, h.moveHost hread hcleared hnext⟩
  | testEp => exact ⟨r, h.moveHost rfl rfl ⟨hknows, h.tail⟩⟩
  | readTestEp tail =>
    obtain ⟨hlt, rfl⟩ := hknows
    obtain ⟨ep, -, hget⟩ := h.get_next hlt rfl
    unfold HandOver.hostStep
    dsimp only at hget ⊢
    rw [hget]
    exact ⟨r, h.moveHost rfl rfl hlt⟩
  | getEp => exact ⟨r, h.moveHost rfl rfl ⟨hknows, h.tail⟩⟩
  | readEp tail =>
    obtain ⟨hlt, rfl⟩ := hknows
    exact ⟨r, h.readEp rfl rfl hlt⟩
  | clearEp => exact ⟨r, h.moveHost rfl rfl ⟨hknows, h.tail⟩⟩
  | writeNull tail =>
    obtain ⟨hlt, rfl⟩ := hknows
    exact ⟨r, h.writeNull rfl rfl hlt⟩
  | setTail => exact ⟨r, h.moveHost rfl rfl ⟨hknows, h.tail⟩⟩
  | writeTail tail =>
    obtain ⟨hlt, rfl⟩ := hknows
    exact ⟨r + 1, h.writeTail rfl rfl hlt⟩

/-- However the threads take turns. -/
theorem run (turns : List (Turn α)) (h : Inv r s) : ∃ r', Inv r' (run s turns) := by
  induction turns generalizing r s with
  | nil => exact ⟨r, h⟩
  | cons turn turns ih =>
    cases turn with
    | interface ep stopped tailFirst => exact ih (h.interfaceStep ep stopped tailFirst)
    | host tailFirst =>
      obtain ⟨r', h'⟩ := h.hostStep tailFirst
      exact ih h'

end Inv

/-- What the host thread has received is a prefix of what the interface thread has queued, none of it NULL, and every endpoint that
was queued and not received stands in the queue: for every order in which the threads take turns. -/
theorem host_queue_fifo (turns : List (Turn α)) :
    (run (start α) turns).received <+: (run (start α) turns).queued.map some ∧
      ∀ k ep, (run (start α) turns).received.length ≤ k → (run (start α) turns).queued[k]? = some ep →
        (run (start α) turns).q.ep[place hostQueueMax k]? = some (some ep) := by
  obtain ⟨r, h⟩ := Inv.run turns (inv_start)
  generalize run (start α) turns = s at h
  refine ⟨?_, ?_⟩
  · rw [h.received]
    exact (List.take_prefix _ _).map some
  · intro k ep hk hep
    have hlength : s.received.length = r + s.host.hasRead := by
      rw [h.received, List.length_map, List.length_take, Nat.min_eq_left (h.host.hasRead_le h.le)]
    have hcleared := s.host.hasCleared_le
    exact h.holds k ep (by omega) hep

/-- Two endpoints go through the queue; the host thread is slower. -/
example :
    (run (start Nat) (List.replicate 11 (.interface 7 false false) ++ List.replicate 11 (.interface 8 false true) ++
      List.replicate 22 (.host false))).received = [some 7, some 8] := by
  decide

end NvmeDem.HandOver
