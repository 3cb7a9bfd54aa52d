import NvmeDem.Fabric.Rdma
import Mathlib.Data.List.Nodup
import Mathlib.Data.List.Perm.Basic

/-!
# The receive pool

Every buffer is in one place, and what its entry says of it holds: `Sound` is kept by every event, and from it a reader finds just
the messages that arrived, one after the other, whatever the buffers were used for before.
-/

namespace NvmeDem.Rdma

/-! ## Pages -/

/-- A message as a reader finds it: followed by zeros to the end of the page. -/
def found (msg : List UInt8) : Found := (msg ++ List.replicate (pageSize - msg.length) 0, msg.length)

/-- A page that holds zeros. -/
def Blank (m : Mem) : Prop := m.read 0 pageSize = List.replicate pageSize 0

theorem blank_filled : Blank (Mem.filled 0) := by
  refine List.eq_replicate_iff.mpr ⟨Mem.length_read, fun b hb => ?_⟩
  obtain ⟨i, -, rfl⟩ := List.mem_map.mp hb
  rfl

theorem blank_write (m : Mem) : Blank (m.write 0 (List.replicate pageSize 0)) := Mem.read_write_eq List.length_replicate

/-- A message in a page of zeros is followed by zeros. -/
theorem read_write_of_blank {m : Mem} {msg : List UInt8} (h : Blank m) (hlen : msg.length ≤ pageSize) :
    (m.write 0 msg).read 0 pageSize = (found msg).1 := by
  have hsplit : pageSize = msg.length + (pageSize - msg.length) := by omega
  have hrest : (m.write 0 msg).read msg.length (pageSize - msg.length) = List.replicate (pageSize - msg.length) 0 := by
    rw [Mem.read_write_after (by omega)]
    have hdrop := @Mem.drop_read m 0 _ _ hlen
    rw [Nat.zero_add] at hdrop
    rw [← hdrop, h, List.drop_replicate]
  show _ = msg ++ List.replicate (pageSize - msg.length) 0
  rw [← hrest]
  nth_rewrite 1 [hsplit]
  rw [Mem.read_add, Mem.read_write_self, Nat.zero_add]

/-! ## What holds of a pool -/

/-- The entries that hold messages, in the order in which the messages arrived. -/
def Conn.waiting (c : Conn) : List Wc := c.held.toList ++ c.ep.rcq.filter Wc.success

/-- Where the buffers are that are not posted. -/
def Conn.away (c : Conn) : List Nat := c.held.toList.map Wc.qe ++ c.ep.rcq.map Wc.qe ++ (c.lost ++ c.flushed)

structure Sound (reposts : Nat → Bool) (depth : Nat) (c : Conn) : Prop where
  each : (c.ep.posted ++ c.away).Perm (List.range depth)
  blank : ∀ qe ∈ c.ep.posted, Blank (c.ep.buf qe)
  fifo : c.handled ++ c.waiting.map (view c.ep.buf) = c.arrived.map found
  lost : c.lost.length = c.handled.countP (fun f => !reposts f.2)
  failed : c.ep.failed = false → c.flushed = [] ∧ ∀ wc ∈ c.ep.rcq, wc.success = true

section

variable {reposts : Nat → Bool} {depth : Nat} {c c' : Conn}

/-- What is in other buffers stays. -/
theorem view_update {buf : Nat → Mem} {qe : Nat} {m : Mem} {wc : Wc} (h : wc.qe ≠ qe) :
    view (Function.update buf qe m) wc = view buf wc := by
  unfold view
  rw [Function.update_of_ne h]

theorem map_view_update {buf : Nat → Mem} {qe : Nat} {m : Mem} {wcs : List Wc} (h : qe ∉ wcs.map Wc.qe) :
    wcs.map (view (Function.update buf qe m)) = wcs.map (view buf) := by
  refine List.map_congr_left (fun wc hwc => view_update ?_)
  rintro rfl
  exact h (List.mem_map_of_mem hwc)

theorem waiting_subset (c : Conn) : c.waiting.map Wc.qe ⊆ c.away := by
  intro qe hqe
  obtain ⟨wc, hwc, rfl⟩ := List.mem_map.mp hqe
  refine List.mem_append_left _ ?_
  rcases List.mem_append.mp hwc with hheld | hrcq
  · exact List.mem_append_left _ (List.mem_map_of_mem hheld)
  · exact List.mem_append_right _ (List.mem_map_of_mem (List.mem_of_mem_filter hrcq))

theorem Sound.nodup (h : Sound reposts depth c) : (c.ep.posted ++ c.away).Nodup := h.each.symm.nodup List.nodup_range

theorem sound_start (reposts : Nat → Bool) (depth : Nat) : Sound reposts depth (start depth) where
  each := by simp [start, createQueueRecvPool, Conn.away]
  blank := fun _ _ => blank_filled
  fifo := rfl
  lost := rfl
  failed := fun _ => ⟨rfl, by simp [start, createQueueRecvPool]⟩

theorem Conn.count_away (c : Conn) (qe : Nat) :
    c.away.count qe =
      (c.held.toList.map Wc.qe).count qe + (c.ep.rcq.map Wc.qe).count qe + (c.lost.count qe + c.flushed.count qe) := by
  simp only [Conn.away, List.count_append]

/-- Each buffer is somewhere when it is where it was, or has moved. -/
theorem each_of_count (h : Sound reposts depth c)
    (hcount : ∀ qe, c'.ep.posted.count qe + c'.away.count qe = c.ep.posted.count qe + c.away.count qe) :
    (c'.ep.posted ++ c'.away).Perm (List.range depth) := by
  refine List.Perm.trans ?_ h.each
  rw [List.perm_iff_count]
  intro qe
  rw [List.count_append, List.count_append, hcount]

/-- A connection that breaks moves what is posted to the receive queue. -/
theorem sound_fail (h : Sound reposts depth c) : Sound reposts depth { c with ep := c.ep.fail } where
  each := by
    refine each_of_count h (fun qe => ?_)
    simp only [Conn.count_away, Ep.fail, List.map_append, List.map_map, List.count_append, List.count_nil]
    have hposted : c.ep.posted.map (Wc.qe ∘ fun qe => ⟨qe, false, 0⟩) = c.ep.posted := List.map_id' _
    rw [hposted]
    omega
  blank := by simp [Ep.fail]
  fifo := by
    have hnone : (c.ep.posted.map (fun qe => (⟨qe, false, 0⟩ : Wc))).filter Wc.success = [] := by
      rw [List.filter_eq_nil_iff]
      simp
    have hfifo := h.fifo
    simp only [Conn.waiting, Ep.fail, List.filter_append, hnone, List.append_nil]
    exact hfifo
  lost := h.lost
  failed := fun he => by simp [Ep.fail] at he

/-- A message that arrives is put behind those that wait. -/
theorem sound_receive {qe : Nat} {posted : List Nat} {msg : List UInt8} (h : Sound reposts depth c)
    (hposted : c.ep.posted = qe :: posted) (hlen : msg.length ≤ pageSize) :
    Sound reposts depth { c with ep := c.ep.receive qe posted msg, arrived := c.arrived ++ [msg] } := by
  have hnodup := h.nodup
  rw [hposted, List.cons_append, List.nodup_cons] at hnodup
  have haway : qe ∉ c.away := fun hmem => hnodup.1 (List.mem_append_right _ hmem)
  have hother : ∀ qe' ∈ posted, qe' ≠ qe := by
    rintro _ hmem rfl
    exact hnodup.1 (List.mem_append_left _ hmem)
  have hblank : Blank (c.ep.buf qe) := h.blank qe (by rw [hposted]; exact List.mem_cons_self)
  exact {
    each := by
      refine each_of_count h (fun qe' => ?_)
      simp only [Conn.count_away, Ep.receive, hposted, List.map_append, List.map_cons, List.map_nil, List.count_append,
        List.count_cons, List.count_nil]
      omega
    blank := by
      intro qe' hmem
      show Blank (Function.update c.ep.buf qe _ qe')
      rw [Function.update_of_ne (hother qe' hmem)]
      exact h.blank qe' (by rw [hposted]; exact List.mem_cons_of_mem _ hmem)
    fifo := by
      have hview : view (Function.update c.ep.buf qe ((c.ep.buf qe).write 0 msg)) ⟨qe, true, msg.length⟩ = found msg := by
        show (_, _) = _
        rw [Function.update_self, read_write_of_blank hblank hlen]
        rfl
      have hwaiting : Conn.waiting { c with ep := c.ep.receive qe posted msg, arrived := c.arrived ++ [msg] } =
          c.waiting ++ [⟨qe, true, msg.length⟩] := by
        simp [Conn.waiting, Ep.receive, List.filter_append]
      rw [hwaiting, List.map_append, List.map_append, ← h.fifo, List.append_assoc]
      show _ ++ (c.waiting.map (view (Function.update c.ep.buf qe _)) ++ _) = _
      rw [map_view_update (fun hmem => haway (waiting_subset c hmem))]
      simp only [List.map_cons, List.map_nil, Ep.receive, hview]
    lost := h.lost
    failed := fun he => by
      obtain ⟨hflushed, hsuccess⟩ := h.failed he
      refine ⟨hflushed, fun wc hwc => ?_⟩
      rcases List.mem_append.mp hwc with hold | hnew
      · exact hsuccess wc hold
      · rw [List.mem_singleton] at hnew
        rw [hnew] }

/-- What the reader takes from the queue waited in front, or is a buffer that was given back. -/
theorem sound_poll {wc : Wc} {rcq : List Wc} (h : Sound reposts depth c) (hheld : c.held = none) (hrcq : c.ep.rcq = wc :: rcq) :
    Sound reposts depth (if wc.success then { c with ep := { c.ep with rcq := rcq }, held := some wc }
      else { c with ep := { c.ep with rcq := rcq }, flushed := c.flushed ++ [wc.qe] }) := by
  have hwaiting : c.waiting = (wc :: rcq).filter Wc.success := by
    rw [Conn.waiting, hheld, hrcq]
    rfl
  have hfifo := h.fifo
  rw [hwaiting] at hfifo
  split
  · rename_i hsuccess
    rw [List.filter_cons_of_pos hsuccess] at hfifo
    exact {
      each := by
        refine each_of_count h (fun qe => ?_)
        simp only [Conn.count_away, hheld, hrcq, Option.toList, List.map_cons, List.map_nil, List.count_cons, List.count_nil]
        omega
      blank := h.blank
      fifo := hfifo
      lost := h.lost
      failed := fun he => by
        obtain ⟨hflushed, hall⟩ := h.failed he
        refine ⟨hflushed, fun wc' hwc' => hall wc' ?_⟩
        rw [hrcq]
        exact List.mem_cons_of_mem _ hwc' }
  · rename_i hsuccess
    rw [List.filter_cons_of_neg hsuccess] at hfifo
    exact {
      each := by
        refine each_of_count h (fun qe => ?_)
        simp only [Conn.count_away, hheld, hrcq, Option.toList, List.map_cons, List.map_nil, List.count_append, List.count_cons,
          List.count_nil]
        omega
      blank := h.blank
      fifo := by
        rw [Conn.waiting]
        simp only [hheld]
        exact hfifo
      lost := h.lost
      failed := fun he => absurd ((h.failed he).2 wc (by rw [hrcq]; exact List.mem_cons_self)) hsuccess }

/-- What the reader holds is no other entry's, nor posted. -/
theorem held_apart {wc : Wc} (h : Sound reposts depth c) (hheld : c.held = some wc) :
    wc.qe ∉ c.ep.posted ∧ wc.qe ∉ (c.ep.rcq.filter Wc.success).map Wc.qe := by
  have hone : (c.ep.posted ++ c.away).count wc.qe ≤ 1 := List.nodup_iff_count.mp h.nodup wc.qe
  rw [List.count_append, Conn.count_away, hheld] at hone
  simp only [Option.toList, List.map_cons, List.map_nil, List.count_singleton_self] at hone
  refine ⟨List.count_eq_zero.mp (by omega), fun hmem => ?_⟩
  have hsub := (List.filter_sublist (p := Wc.success) (l := c.ep.rcq)).map Wc.qe
  have hzero := List.count_eq_zero.mp (show (c.ep.rcq.map Wc.qe).count wc.qe = 0 by omega)
  exact hzero (hsub.subset hmem)

/-- A buffer that is posted again was held, is cleared, and goes behind the others. -/
theorem sound_repost {wc : Wc} (h : Sound reposts depth c) (hheld : c.held = some wc) (hreposts : reposts wc.byteLen = true) :
    Sound reposts depth { c with held := none, handled := c.handled ++ [view c.ep.buf wc], ep := repostRecv wc.qe c.ep } := by
  obtain ⟨hposted, hrcq⟩ := held_apart h hheld
  have hfifo := h.fifo
  simp only [Conn.waiting, hheld, Option.toList, List.cons_append, List.nil_append, List.map_cons] at hfifo
  have hlost : c.lost.length = (c.handled ++ [view c.ep.buf wc]).countP (fun f => !reposts f.2) := by
    simp only [List.countP_append, List.countP_singleton, view, hreposts, Bool.not_true, Bool.false_eq_true, if_false, h.lost,
      Nat.add_zero]
  have hcleared : Blank (Function.update c.ep.buf wc.qe ((c.ep.buf wc.qe).write 0 (List.replicate pageSize 0)) wc.qe) := by
    rw [Function.update_self]
    exact blank_write _
  have hblank : ∀ qe ∈ c.ep.posted,
      Blank (Function.update c.ep.buf wc.qe ((c.ep.buf wc.qe).write 0 (List.replicate pageSize 0)) qe) := by
    intro qe hqe
    have hne : qe ≠ wc.qe := by
      rintro rfl
      exact hposted hqe
    rw [Function.update_of_ne hne]
    exact h.blank qe hqe
  unfold repostRecv Ep.postRecv
  dsimp only
  split
  · rename_i hfailed
    exact {
      each := by
        refine each_of_count h (fun qe => ?_)
        simp only [Conn.count_away, hheld, Option.toList, List.map_append, List.map_cons, List.map_nil, List.count_append,
          List.count_cons, List.count_nil]
        omega
      blank := hblank
      fifo := by
        simp only [Conn.waiting, Option.toList, List.nil_append, List.filter_append, List.filter_cons_of_neg, Bool.false_eq_true,
          not_false_eq_true, List.filter_nil, List.append_nil]
        rw [map_view_update hrcq, List.append_assoc]
        exact hfifo
      lost := hlost
      failed := fun he => by
        rw [hfailed] at he
        cases he }
  · exact {
      each := by
        refine each_of_count h (fun qe => ?_)
        simp only [Conn.count_away, hheld, Option.toList, List.map_cons, List.map_nil, List.count_append, List.count_cons,
          List.count_nil]
        omega
      blank := by
        intro qe hqe
        rcases List.mem_append.mp hqe with hold | hnew
        · exact hblank qe hold
        · rw [List.mem_singleton.mp hnew]
          exact hcleared
      fifo := by
        simp only [Conn.waiting, Option.toList, List.nil_append]
        rw [map_view_update hrcq, List.append_assoc]
        exact hfifo
      lost := hlost
      failed := h.failed }

theorem sound_drop {wc : Wc} (h : Sound reposts depth c) (hheld : c.held = some wc) (hreposts : ¬reposts wc.byteLen = true) :
    Sound reposts depth { c with held := none, handled := c.handled ++ [view c.ep.buf wc], lost := c.lost ++ [wc.qe] } where
  each := by
    refine each_of_count h (fun qe => ?_)
    simp only [Conn.count_away, hheld, Option.toList, List.map_cons, List.map_nil, List.count_append, List.count_cons, List.count_nil]
    omega
  blank := h.blank
  fifo := by
    have hfifo := h.fifo
    simp only [Conn.waiting, hheld, Option.toList, List.cons_append, List.nil_append, List.map_cons] at hfifo ⊢
    rw [List.append_assoc]
    exact hfifo
  lost := by
    simp only [List.length_append, List.length_singleton, List.countP_append, List.countP_singleton, view, hreposts, Bool.not_false,
      if_true, h.lost]
  failed := h.failed

theorem sound_step {e : Event} (h : Sound reposts depth c) (hs : step reposts c e = some c') : Sound reposts depth c' := by
  cases e with
  | arrives msg =>
    simp only [step] at hs
    split at hs
    · cases hs
    rename_i qe posted hposted
    split at hs
    · rename_i hlen
      obtain rfl := Option.some.inj hs
      exact sound_receive h hposted hlen
    · obtain rfl := Option.some.inj hs
      exact sound_fail h
  | breaks =>
    simp only [step] at hs
    split at hs
    · cases hs
    · obtain rfl := Option.some.inj hs
      exact sound_fail h
  | polls =>
    simp only [step] at hs
    split at hs
    · cases hs
    rename_i hheld
    have hheld : c.held = none := Option.not_isSome_iff_eq_none.mp hheld
    cases hrcq : c.ep.rcq with
    | nil =>
      simp only [pollForMsg, hrcq] at hs
      obtain rfl := Option.some.inj hs
      exact h
    | cons wc rcq =>
      have hpoll := sound_poll h hheld hrcq
      simp only [pollForMsg, hrcq] at hs
      obtain rfl := Option.some.inj hs
      cases hsuccess : wc.success with
      | true =>
        simp only [hsuccess, if_true] at hpoll ⊢
        exact hpoll
      | false =>
        simp only [hsuccess, Bool.false_eq_true, if_false] at hpoll ⊢
        exact hpoll
  | finishes =>
    simp only [step] at hs
    split at hs
    · cases hs
    rename_i wc hheld
    obtain rfl := Option.some.inj hs
    split
    · rename_i hreposts
      exact sound_repost h hheld hreposts
    · rename_i hreposts
      exact sound_drop h hheld hreposts

theorem Reaches.next {e : Event} (h : Reaches reposts depth c) (hs : step reposts c e = some c') : Reaches reposts depth c' :=
  Run.next h trivial hs

theorem Reaches.sound (h : Reaches reposts depth c) : Sound reposts depth c :=
  h.invariant (sound_start reposts depth) (fun _ _ _ hc _ hs => sound_step hc hs)

/-- What the reader has dealt with, what it holds as it is in memory now, and what waits for it, are the messages that arrived, in
order, each once, with zeros behind it. -/
theorem reader_finds (h : Reaches reposts depth c) : c.handled ++ c.waiting.map (view c.ep.buf) = c.arrived.map found :=
  h.sound.fifo

/-- On a connection that is not broken every buffer is posted or waits for the reader, but for one for each message that the reader
returned early on. -/
theorem posted_length (h : Reaches reposts depth c) (hfailed : c.ep.failed = false) :
    c.ep.posted.length + c.waiting.length + c.handled.countP (fun f => !reposts f.2) = depth := by
  obtain ⟨hflushed, hsuccess⟩ := h.sound.failed hfailed
  have hall : c.ep.rcq.filter Wc.success = c.ep.rcq := List.filter_eq_self.mpr hsuccess
  have hlen := h.sound.each.length_eq
  simp only [Conn.away, hflushed, List.append_nil, List.length_append, List.length_map, List.length_range] at hlen
  rw [Conn.waiting, hall, List.length_append, ← h.sound.lost]
  omega

/-- An endpoint with nothing waiting can be sent a message as long as its reader has not returned early on as many as it has buffers. A
server never does; a client does on every response of another length. -/
theorem can_receive_iff (h : Reaches reposts depth c) (hfailed : c.ep.failed = false) (hidle : c.waiting = []) (msg : List UInt8) :
    (step reposts c (.arrives msg)).isSome ↔ c.handled.countP (fun f => !reposts f.2) < depth := by
  have hlen := posted_length h hfailed
  rw [hidle, List.length_nil, Nat.add_zero] at hlen
  cases hposted : c.ep.posted with
  | nil =>
    rw [hposted, List.length_nil] at hlen
    simp only [step, hposted, Option.isSome_none, Bool.false_eq_true, false_iff]
    omega
  | cons qe posted =>
    rw [hposted, List.length_cons] at hlen
    simp only [step, hposted]
    constructor
    · intro _
      omega
    · intro _
      split <;> rfl

end

/-- A client whose first response is short. -/
def short : Conn :=
  { start 2 with ep := (createQueueRecvPool 2).receive 0 [1] [7], arrived := [[7]] }

theorem reaches_short : Reaches processNvmeRsp 2 short := Reaches.next (e := .arrives [7]) Run.start rfl

theorem reader_finds_short : short.handled ++ short.waiting.map (view short.ep.buf) = [found [7]] := reader_finds reaches_short

/-- It has dealt with it, and one buffer is left. -/
def shortened : Conn :=
  { ep := { short.ep with rcq := [] }, held := none, lost := [0], flushed := [], arrived := [[7]],
    handled := [view short.ep.buf ⟨0, true, 1⟩] }

theorem reaches_shortened : Reaches processNvmeRsp 2 shortened :=
  (reaches_short.next (e := .polls) rfl).next (e := .finishes) rfl

theorem can_receive_shortened : (step processNvmeRsp shortened (.arrives [])).isSome ↔ 1 < 2 :=
  can_receive_iff reaches_shortened rfl rfl []

end NvmeDem.Rdma
