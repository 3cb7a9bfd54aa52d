import NvmeDem.Fabric.Handshake

/-!
# What the two ends of a connection agree on

`Agree` is kept by every event: until the server is back with success there is no reply, and from then on the streams hold what
follows the request as the server took it, and the reply as far as the client has not read it.
-/

namespace NvmeDem.Handshake

open Tcp

/-! ## The messages -/

theorem length_initRep (fresh : Mem) : (initRep fresh).length = sizeofIcresp := Mem.length_read

theorem length_buildConnectData (fresh : Mem) : (buildConnectData fresh).length = sizeofIcreq := Mem.length_read

/-- Memory over which the bytes of other memory are written is that memory. -/
theorem write_read_at {fresh m : Mem} {n i : Nat} (h : i < n) : fresh.write 0 (m.read 0 n) i = m i := by
  have hi : i < (m.read 0 n).length := by rwa [Mem.length_read]
  have hat := @Mem.write_at fresh 0 _ _ hi
  rw [Nat.zero_add] at hat
  rw [hat, List.getElem_eq_iff, Mem.getElem?_read h, Nat.zero_add]

theorem read_write_read {fresh m : Mem} {off k n : Nat} (h : off + k ≤ n) :
    (fresh.write 0 (m.read 0 n)).read off k = m.read off k :=
  Mem.read_congr (fun _ hi => write_read_at (by omega))

/-- The client accepts what the server writes, whatever either end's memory held. -/
theorem connectRet_initRep (fresh reply : Mem) : connectRet reply (initRep fresh) = 0 := by
  have hlen : (initRep fresh).length = sizeofIcresp := length_initRep fresh
  have hvalid : validateReply (reply.write 0 (initRep fresh)) sizeofIcresp = 0 := by
    unfold initRep validateReply
    simp only [write_read_at (show 0 < sizeofIcresp by decide), write_read_at (show 2 < sizeofIcresp by decide),
      write_read_at (show 10 < sizeofIcresp by decide), write_read_at (show 11 < sizeofIcresp by decide),
      read_write_read (show 4 + 4 ≤ sizeofIcresp by decide), read_write_read (show 8 + 2 ≤ sizeofIcresp by decide)]
    simp [Mem.write, Mem.read, List.range_succ, leBytes, ofLe, sizeofIcresp, nvmeTcpIcresp, nvmeTcpPduFormatVer, nvmeTcpConnectFmt10]
  unfold connectRet
  rw [hlen, hvalid]
  decide

theorem length_of_connectRet {fresh : Mem} {reply : List UInt8} (h : connectRet fresh reply = 0) : reply.length = sizeofIcresp := by
  by_contra hlen
  have hvalid : validateReply (fresh.write 0 reply) reply.length = -einval := by
    unfold validateReply
    rw [if_pos hlen, ite_self]
  unfold connectRet at h
  rw [hvalid] at h
  exact absurd h (by decide)

/-! ## What is left of a stream -/

/-- What is left to be read is `whole`; of that, after a reset, some may be lost at the end. -/
def Left (reset : Bool) (stream : Stream) (whole : List UInt8) : Prop :=
  stream.bytes <+: whole ∧ (reset = false → stream.bytes = whole)

namespace Left

variable {reset : Bool} {stream : Stream} {whole : List UInt8} {n : Nat}

theorem deliver (h : Left reset stream whole) : Left reset (stream.deliver n) whole := by
  have hbytes : (stream.deliver n).bytes = stream.bytes := by
    simp only [Stream.deliver, Stream.bytes, List.append_assoc, List.take_append_drop]
  unfold Left
  rw [hbytes]
  exact h

theorem lose (h : Left reset stream whole) : Left true stream.lose whole := by
  refine ⟨List.IsPrefix.trans ?_ h.1, by simp⟩
  simp only [Stream.lose, Stream.bytes, List.append_nil]
  exact List.prefix_append _ _

/-- What is sent on a stream that is empty is what is left of it. -/
theorem send (bytes : List UInt8) : Left reset (Stream.send bytes {}) bytes := by
  have hstart : bytes <+: bytes := List.prefix_rfl
  exact ⟨hstart, fun _ => rfl⟩

/-- What arrived is the beginning. -/
theorem take (h : Left reset stream whole) (hn : n ≤ stream.arrived.length) : stream.arrived.take n = whole.take n := by
  obtain ⟨rest, hrest⟩ := h.1
  rw [← hrest, Stream.bytes, List.append_assoc, List.take_append_of_le_length hn]

theorem recv (h : Left reset stream whole) (hn : n ≤ stream.arrived.length) : Left reset (stream.recv n) (whole.drop n) := by
  have hbytes : (stream.recv n).bytes = stream.bytes.drop n := by
    simp only [Stream.recv, Stream.bytes]
    rw [List.drop_append_of_le_length hn]
  unfold Left
  rw [hbytes]
  refine ⟨?_, fun hr => by rw [h.2 hr]⟩
  obtain ⟨rest, hrest⟩ := h.1
  have hlen : n ≤ stream.bytes.length := by
    rw [Stream.bytes, List.length_append]
    omega
  rw [← hrest, List.drop_append_of_le_length hlen]
  exact List.prefix_append _ _

theorem length_le (h : Left reset stream whole) : stream.arrived.length ≤ whole.length := by
  have hle := h.1.length_le
  rw [Stream.bytes, List.length_append] at hle
  omega

/-- All of it is read. -/
theorem recv_all (h : Left reset stream whole) (hn : whole.length ≤ stream.arrived.length) : stream.recv whole.length = {} := by
  have hle := h.1.length_le
  rw [Stream.bytes, List.length_append] at hle
  have harrived : stream.arrived.drop whole.length = [] := List.drop_eq_nil_of_le (by omega)
  have hflight : stream.flight = [] := List.eq_nil_of_length_eq_zero (by omega)
  unfold Stream.recv
  rw [harrived, hflight]

end Left

/-! ## What the two ends agree on -/

/-- A request that the server accepts: one of another type by its header alone, and one of the client's type when it is whole and the
byte that the server takes for the alignment is zero. -/
def Accepted (request : List UInt8) : Prop :=
  sizeofCommonHdr ≤ request.length ∧
    (request.getD 0 0 ≠ nvmeTcpIcreq ∨ (sizeofIcreq ≤ request.length ∧ request.getD (sizeofCommonHdr + 10) 0 = 0))

/-- How much of a request the server reads. -/
def accepts (request : List UInt8) : Nat := if request.getD 0 0 = nvmeTcpIcreq then sizeofIcreq else sizeofCommonHdr

structure Agree (ends : Ends) (c : Conn) : Prop where
  unsent : c.client = .write → c.request = {} ∧ (c.server = .readHdr ∨ c.server.Closed)
  hdr : c.server = .readHdr → c.client ≠ .write → Left c.reset c.request ends.request
  initReq : c.server = .readInitReq → ends.request.getD 0 0 = nvmeTcpIcreq ∧ sizeofCommonHdr ≤ ends.request.length ∧
    Left c.reset c.request (ends.request.drop sizeofCommonHdr)
  accepted : c.server = .write ∨ c.server = .returned 0 →
    Accepted ends.request ∧ Left c.reset c.request (ends.request.drop (accepts ends.request))
  silent : c.server ≠ .returned 0 → c.reply = {} ∧ c.client ≠ .returned 0
  replied : c.server = .returned 0 → c.client = .read → Left c.reset c.reply (initRep ends.initRep)
  done : c.client = .returned 0 → c.reply = {}

section

variable {ends : Ends} {c c' : Conn}

theorem acceptHdr_of_length {hdr : List UInt8} (h : hdr.length = sizeofCommonHdr) :
    acceptHdr hdr = if hdr.getD 0 0 = nvmeTcpIcreq then .readInitReq else .write := by
  have hne : hdr ≠ [] := List.ne_nil_of_length_pos (by rw [h]; decide)
  unfold acceptHdr
  rw [if_neg hne, if_neg (not_not.mpr h)]

/-- A header is refused, or is one of a request, or is taken as it is. -/
theorem acceptHdr_cases (hdr : List UInt8) :
    (acceptHdr hdr).Closed ∨
    (hdr.length = sizeofCommonHdr ∧ hdr.getD 0 0 = nvmeTcpIcreq ∧ acceptHdr hdr = .readInitReq) ∨
    (hdr.length = sizeofCommonHdr ∧ hdr.getD 0 0 ≠ nvmeTcpIcreq ∧ acceptHdr hdr = .write) := by
  by_cases hlen : hdr.length = sizeofCommonHdr
  · rw [acceptHdr_of_length hlen]
    by_cases htype : hdr.getD 0 0 = nvmeTcpIcreq
    · rw [if_pos htype]
      exact .inr (.inl ⟨hlen, htype, rfl⟩)
    · rw [if_neg htype]
      exact .inr (.inr ⟨hlen, htype, rfl⟩)
  · left
    unfold acceptHdr
    rw [if_pos hlen]
    split
    · decide
    · decide

theorem acceptInitReq_of_length {rest : List UInt8} (fresh : Mem) (h : rest.length = sizeofIcreq - sizeofCommonHdr) :
    acceptInitReq fresh rest = if rest.getD 10 0 = 0 then .write else .returned (-eproto) := by
  have hat : (fresh.write 0 rest) 10 = rest.getD 10 0 := by
    have hlt : 10 < rest.length := by
      rw [h]
      decide
    rw [List.getD_eq_getElem?_getD, List.getElem?_eq_getElem hlt, Option.getD_some]
    exact Mem.write_at hlt
  unfold acceptInitReq
  rw [if_neg (not_not.mpr h), hat, ite_not]

theorem acceptInitReq_cases (fresh : Mem) (rest : List UInt8) :
    (acceptInitReq fresh rest).Closed ∨
    (rest.length = sizeofIcreq - sizeofCommonHdr ∧ rest.getD 10 0 = 0 ∧ acceptInitReq fresh rest = .write) := by
  by_cases hlen : rest.length = sizeofIcreq - sizeofCommonHdr
  · rw [acceptInitReq_of_length fresh hlen]
    by_cases hzero : rest.getD 10 0 = 0
    · rw [if_pos hzero]
      exact .inr ⟨hlen, hzero, rfl⟩
    · rw [if_neg hzero]
      exact .inl (by decide)
  · left
    unfold acceptInitReq
    rw [if_pos hlen]
    decide

/-- What the server reads as far as it is asked to, it reads from what is left. -/
theorem length_arrived {stream : Stream} {n : Nat} (h : (stream.arrived.take n).length = n) : n ≤ stream.arrived.length := by
  rw [List.length_take] at h
  omega

theorem agree_clientWrite (h : Agree ends c) (hs : step ends c .clientWrite = some c') : Agree ends c' := by
  simp only [step] at hs
  split at hs
  · cases hs
  rename_i hclient
  obtain ⟨hrequest, hserver⟩ := h.unsent (not_not.mp hclient)
  have hinit : c.server ≠ .readInitReq := by
    rintro he
    rw [he] at hserver
    simp [Server.Closed] at hserver
  have haccepted : ¬(c.server = .write ∨ c.server = .returned 0) := by
    rintro (he | he) <;> · rw [he] at hserver; simp [Server.Closed] at hserver
  have hreply := h.silent (fun he => haccepted (.inr he))
  split at hs
  · rename_i hreset
    obtain rfl := Option.some.inj hs
    exact {
      unsent := fun he => by cases he
      hdr := fun _ _ => ⟨by rw [hrequest]; exact List.nil_prefix, fun hr => by rw [hreset] at hr; cases hr⟩
      initReq := fun he => absurd he hinit
      accepted := fun he => absurd he haccepted
      silent := fun _ => ⟨hreply.1, by simp [econnreset]⟩
      replied := fun _ he => by cases he
      done := fun _ => hreply.1 }
  · obtain rfl := Option.some.inj hs
    exact {
      unsent := fun he => by cases he
      hdr := fun _ _ => by
        show Left c.reset (c.request.send ends.request) ends.request
        rw [hrequest]
        exact Left.send ends.request
      initReq := fun he => absurd he hinit
      accepted := fun he => absurd he haccepted
      silent := fun _ => ⟨hreply.1, by simp⟩
      replied := fun he => absurd (.inr he) haccepted
      done := fun _ => hreply.1 }

theorem agree_requestArrives {n : Nat} (h : Agree ends c) (hs : step ends c (.requestArrives n) = some c') : Agree ends c' := by
  simp only [step] at hs
  split at hs
  · rename_i hn
    obtain rfl := Option.some.inj hs
    exact {
      unsent := fun he => by
        rw [(h.unsent he).1] at hn
        simp only [List.length_nil] at hn
        omega
      hdr := fun he hc => (h.hdr he hc).deliver
      initReq := fun he => ⟨(h.initReq he).1, (h.initReq he).2.1, (h.initReq he).2.2.deliver⟩
      accepted := fun he => ⟨(h.accepted he).1, (h.accepted he).2.deliver⟩
      silent := h.silent
      replied := h.replied
      done := h.done }
  · cases hs

/-- A server that fails promises nothing more. -/
theorem Agree.close (h : Agree ends c) (hserver : c.server ≠ .returned 0) {server : Server} {request : Stream}
    (hclosed : server.Closed) (hrequest : c.client = .write → request = {}) : Agree ends { c with server := server, request := request } := by
  have hne : ∀ s : Server, ¬s.Closed → server ≠ s := by
    rintro s hs rfl
    exact hs hclosed
  exact {
    unsent := fun he => ⟨hrequest he, .inr hclosed⟩
    hdr := fun he => absurd he (hne _ (by decide))
    initReq := fun he => absurd he (hne _ (by decide))
    accepted := fun he => he.elim (fun he => absurd he (hne _ (by decide))) (fun he => absurd he (hne _ (by decide)))
    silent := fun _ => h.silent hserver
    replied := fun he => absurd he (hne _ (by decide))
    done := h.done }

theorem getD_take {bytes : List UInt8} {i n : Nat} (h : i < n) : (bytes.take n).getD i 0 = bytes.getD i 0 := by
  rw [List.getD_eq_getElem?_getD, List.getD_eq_getElem?_getD, List.getElem?_take, if_pos h]

theorem getD_drop {bytes : List UInt8} {i n : Nat} : (bytes.drop n).getD i 0 = bytes.getD (n + i) 0 := by
  rw [List.getD_eq_getElem?_getD, List.getD_eq_getElem?_getD, List.getElem?_drop]

theorem agree_serverReadHdr (h : Agree ends c) (hs : step ends c .serverReadHdr = some c') : Agree ends c' := by
  simp only [step] at hs
  split at hs
  · cases hs
  rename_i hserver
  have hserver := not_not.mp hserver
  obtain rfl := Option.some.inj hs
  have hback : c.server ≠ .returned 0 := by
    rw [hserver]
    simp
  by_cases hclient : c.client = .write
  -- Before the client's write there is nothing to read, and the server gives up.
  · have hnone : c.request = {} := (h.unsent hclient).1
    refine h.close hback ?_ (fun _ => ?_) <;> · rw [hnone]; decide
  have hleft := h.hdr hserver hclient
  rcases acceptHdr_cases (c.request.arrived.take sizeofCommonHdr) with hclosed | ⟨hlen, htype, hnext⟩ | ⟨hlen, htype, hnext⟩
  · exact h.close hback hclosed (fun he => absurd he hclient)
  all_goals
    have hn := length_arrived hlen
    have hlong : sizeofCommonHdr ≤ ends.request.length := hn.trans hleft.length_le
    rw [hleft.take hn, getD_take (by decide)] at htype
    rw [hnext]
  · exact {
      unsent := fun he => absurd he hclient
      hdr := fun he => by cases he
      initReq := fun _ => ⟨htype, hlong, hleft.recv hn⟩
      accepted := fun he => by simp at he
      silent := fun _ => h.silent hback
      replied := fun he => by cases he
      done := h.done }
  · have haccepts : accepts ends.request = sizeofCommonHdr := if_neg htype
    exact {
      unsent := fun he => absurd he hclient
      hdr := fun he => by cases he
      initReq := fun he => by cases he
      accepted := fun _ => ⟨⟨hlong, .inl htype⟩, by rw [haccepts]; exact hleft.recv hn⟩
      silent := fun _ => h.silent hback
      replied := fun he => by cases he
      done := h.done }

theorem agree_serverReadInitReq (h : Agree ends c) (hs : step ends c .serverReadInitReq = some c') : Agree ends c' := by
  simp only [step] at hs
  split at hs
  · cases hs
  rename_i hserver
  have hserver := not_not.mp hserver
  obtain rfl := Option.some.inj hs
  have hback : c.server ≠ .returned 0 := by
    rw [hserver]
    simp
  have hclient : c.client ≠ .write := by
    intro he
    have hearly := (h.unsent he).2
    rw [hserver] at hearly
    simp [Server.Closed] at hearly
  obtain ⟨htype, hhdr, hleft⟩ := h.initReq hserver
  rcases acceptInitReq_cases ends.initReq (c.request.arrived.take (sizeofIcreq - sizeofCommonHdr)) with
    hclosed | ⟨hlen, hzero, hnext⟩
  · exact h.close hback hclosed (fun he => absurd he hclient)
  · have hn := length_arrived hlen
    have hlong : sizeofIcreq ≤ ends.request.length := by
      have hle := hn.trans hleft.length_le
      rw [List.length_drop] at hle
      omega
    rw [hleft.take hn, getD_take (by decide), getD_drop] at hzero
    have hrest := hleft.recv hn
    rw [List.drop_drop] at hrest
    have haccepts : accepts ends.request = sizeofIcreq := if_pos htype
    rw [hnext]
    exact {
      unsent := fun he => absurd he hclient
      hdr := fun he => by cases he
      initReq := fun he => by cases he
      accepted := fun _ => ⟨⟨hhdr, .inr ⟨hlong, hzero⟩⟩, by rw [haccepts]; exact hrest⟩
      silent := fun _ => h.silent hback
      replied := fun he => by cases he
      done := h.done }

theorem agree_serverWrite (h : Agree ends c) (hs : step ends c .serverWrite = some c') : Agree ends c' := by
  simp only [step] at hs
  split at hs
  · cases hs
  rename_i hserver
  have hserver := not_not.mp hserver
  have hback : c.server ≠ .returned 0 := by
    rw [hserver]
    simp
  have hclient : c.client ≠ .write := by
    intro he
    have hearly := (h.unsent he).2
    rw [hserver] at hearly
    simp [Server.Closed] at hearly
  split at hs
  · obtain rfl := Option.some.inj hs
    exact h.close hback (by decide) (fun he => absurd he hclient)
  · obtain rfl := Option.some.inj hs
    have hreply := h.silent hback
    exact {
      unsent := fun he => absurd he hclient
      hdr := fun he => by cases he
      initReq := fun he => by cases he
      accepted := fun _ => h.accepted (.inl hserver)
      silent := fun he => absurd rfl he
      replied := fun _ _ => by
        show Left c.reset (c.reply.send (initRep ends.initRep)) (initRep ends.initRep)
        rw [hreply.1]
        exact Left.send _
      done := fun he => absurd he hreply.2 }

theorem agree_replyArrives {n : Nat} (h : Agree ends c) (hs : step ends c (.replyArrives n) = some c') : Agree ends c' := by
  simp only [step] at hs
  split at hs
  · rename_i hn
    obtain rfl := Option.some.inj hs
    have hsome : c.reply ≠ {} := by
      intro he
      rw [he] at hn
      simp only [List.length_nil] at hn
      omega
    exact {
      unsent := h.unsent
      hdr := h.hdr
      initReq := h.initReq
      accepted := h.accepted
      silent := fun he => absurd (h.silent he).1 hsome
      replied := fun he hc => (h.replied he hc).deliver
      done := fun he => absurd (h.done he) hsome }
  · cases hs

/-- A client that is back with a failure, having read or not. -/
theorem Agree.giveUp (h : Agree ends c) (hclient : c.client = .read) {ret : Int} (hret : ret ≠ 0) :
    Agree ends { c with client := .returned ret } := by
  have hread : c.client ≠ .write := by
    rw [hclient]
    simp
  exact {
    unsent := fun he => by cases he
    hdr := fun he _ => h.hdr he hread
    initReq := h.initReq
    accepted := h.accepted
    silent := fun he => ⟨(h.silent he).1, by simp [hret]⟩
    replied := fun _ he => by cases he
    done := fun he => absurd (Client.returned.inj he) hret }

theorem agree_clientRead (h : Agree ends c) (hs : step ends c .clientRead = some c') : Agree ends c' := by
  simp only [step] at hs
  split at hs
  · cases hs
  rename_i hclient
  have hclient := not_not.mp hclient
  split at hs
  · rename_i harrived
    obtain rfl := Option.some.inj hs
    have hserver : c.server = .returned 0 := by
      by_contra hback
      exact harrived (by rw [(h.silent hback).1])
    have hleft := h.replied hserver hclient
    exact {
      unsent := fun he => by cases he
      hdr := fun he => by rw [hserver] at he; cases he
      initReq := fun he => by rw [hserver] at he; cases he
      accepted := h.accepted
      silent := fun he => absurd hserver he
      replied := fun _ he => by cases he
      done := fun he => by
        have hlen := length_arrived (length_of_connectRet (Client.returned.inj he))
        have hwhole := length_initRep ends.initRep
        have hnil := hleft.recv_all (by rw [hwhole]; exact hlen)
        rw [hwhole] at hnil
        exact hnil }
  split at hs
  · obtain rfl := Option.some.inj hs
    exact h.giveUp hclient (by decide)
  split at hs
  · obtain rfl := Option.some.inj hs
    refine h.giveUp hclient (fun he => ?_)
    exact absurd (length_of_connectRet he) (by decide)
  · cases hs

theorem agree_reset (h : Agree ends c) (hs : step ends c .reset = some c') : Agree ends c' := by
  simp only [step] at hs
  split at hs
  · cases hs
  · obtain rfl := Option.some.inj hs
    have hnil : ∀ {stream : Stream}, stream = {} → stream.lose = {} := by
      rintro _ rfl
      rfl
    exact {
      unsent := fun he => ⟨hnil (h.unsent he).1, (h.unsent he).2⟩
      hdr := fun he hc => (h.hdr he hc).lose
      initReq := fun he => ⟨(h.initReq he).1, (h.initReq he).2.1, (h.initReq he).2.2.lose⟩
      accepted := fun he => ⟨(h.accepted he).1, (h.accepted he).2.lose⟩
      silent := fun he => ⟨hnil (h.silent he).1, (h.silent he).2⟩
      replied := fun he hc => (h.replied he hc).lose
      done := fun he => hnil (h.done he) }

theorem agree_start (ends : Ends) : Agree ends {} :=
  { unsent := fun _ => ⟨rfl, .inl rfl⟩
    hdr := fun _ he => absurd rfl he
    initReq := fun he => by cases he
    accepted := fun he => by simp at he
    silent := fun _ => ⟨rfl, by simp⟩
    replied := fun he => by cases he
    done := fun he => by cases he }

/-- Every event keeps what the ends agree on. -/
theorem agree_step {e : Event} (h : Agree ends c) (hs : step ends c e = some c') : Agree ends c' := by
  cases e with
  | clientWrite => exact agree_clientWrite h hs
  | requestArrives n => exact agree_requestArrives h hs
  | serverReadHdr => exact agree_serverReadHdr h hs
  | serverReadInitReq => exact agree_serverReadInitReq h hs
  | serverWrite => exact agree_serverWrite h hs
  | replyArrives n => exact agree_replyArrives h hs
  | clientRead => exact agree_clientRead h hs
  | reset => exact agree_reset h hs

theorem Reaches.agree (h : Reaches ends c) : Agree ends c :=
  h.invariant (agree_start ends) (fun _ _ _ hc _ hs => agree_step hc hs)

theorem server_of_connected (h : Reaches ends c) (hc : c.client = .returned 0) : c.server = .returned 0 := by
  by_contra hback
  exact (h.agree.silent hback).2 hc

theorem accepted_of_connected (h : Reaches ends c) (hc : c.client = .returned 0) : Accepted ends.request :=
  (h.agree.accepted (.inr (server_of_connected h hc))).1

/-- A client that is connected has a server that accepted it: the reply is read to its end, and what the server is to read next is what
follows the request. -/
theorem connected_agrees (h : Reaches ends c) (hc : c.client = .returned 0) :
    c.server = .returned 0 ∧ c.reply = {} ∧ Accepted ends.request ∧
      Left c.reset c.request (ends.request.drop (accepts ends.request)) := by
  have hserver := server_of_connected h hc
  have haccepted := h.agree.accepted (.inr hserver)
  exact ⟨hserver, h.agree.done hc, haccepted.1, haccepted.2⟩

/-- The repository's own two ends, with memory that is zero. -/
def zeroed : Ends := ⟨buildConnectData (Mem.filled 0), Mem.filled 0, Mem.filled 0, Mem.filled 0⟩

/-- A handshake in which either message arrives whole. -/
def wholly : List Event :=
  [.clientWrite, .requestArrives 128, .serverReadHdr, .serverReadInitReq, .serverWrite, .replyArrives 128, .clientRead]

theorem wholly_zeroed : wholly.foldlM (step zeroed) {} = some { client := .returned 0, server := .returned 0 } := by
  decide +kernel

theorem connected_agrees_zeroed :
    Left false {} (zeroed.request.drop (accepts zeroed.request)) :=
  (@connected_agrees zeroed { client := .returned 0, server := .returned 0 } (Run.of_foldlM Run.start wholly_zeroed) rfl).2.2.2

end

/-! ## Who gets connected -/

section

variable {ends : Ends} {c c' : Conn}

theorem Reaches.next {e : Event} (h : Reaches ends c) (hs : step ends c e = some c') : Reaches ends c' := Run.next h trivial hs

theorem deliver_all (bytes : List UInt8) : Stream.deliver bytes.length { flight := bytes } = { arrived := bytes } := by
  simp [Stream.deliver]

/-- The request is there before the server looks. -/
theorem reaches_request (hreq : 0 < ends.request.length) : Reaches ends { client := .read, request := { arrived := ends.request } } := by
  have hsent : Reaches ends { client := .read, request := { flight := ends.request } } := by
    refine Reaches.next (e := .clientWrite) Run.start ?_
    simp [step, Stream.send]
  refine hsent.next (e := .requestArrives ends.request.length) ?_
  simp only [step, hreq, le_refl, and_self, if_true, deliver_all]

/-- A server that gets to its write connects the client. -/
theorem reaches_connected {request : Stream} (h : Reaches ends { client := .read, server := .write, request := request }) :
    ∃ c, Reaches ends c ∧ c.client = .returned 0 := by
  have hpos : 0 < (initRep ends.initRep).length := by
    rw [length_initRep]
    decide
  have hne : initRep ends.initRep ≠ [] := List.ne_nil_of_length_pos hpos
  have hall : (initRep ends.initRep).take sizeofIcresp = initRep ends.initRep := List.take_of_length_le (length_initRep _).le
  have hwritten : Reaches ends
      { client := .read, server := .returned 0, request := request, reply := { flight := initRep ends.initRep } } :=
    h.next (e := .serverWrite) rfl
  have harrived : Reaches ends
      { client := .read, server := .returned 0, request := request, reply := { arrived := initRep ends.initRep } } := by
    refine hwritten.next (e := .replyArrives (initRep ends.initRep).length) ?_
    simp only [step, hpos, le_refl, and_self, if_true, deliver_all]
  have hread : Reaches ends
      { client := .returned 0, server := .returned 0, request := request,
        reply := Stream.recv sizeofIcresp { arrived := initRep ends.initRep } } := by
    refine harrived.next (e := .clientRead) ?_
    simp only [step, ne_eq, not_true_eq_false, if_false, hne, not_false_eq_true, if_true, hall, connectRet_initRep]
  exact ⟨_, hread, rfl⟩

/-- A request that arrives whole and is accepted connects the client. -/
theorem reaches_accepted (h : Accepted ends.request) : ∃ c, Reaches ends c ∧ c.client = .returned 0 := by
  obtain ⟨hhdr, htype⟩ := h
  have hlen : (ends.request.take sizeofCommonHdr).length = sizeofCommonHdr := List.length_take_of_le hhdr
  have hread : Reaches ends
      { client := .read, server := acceptHdr (ends.request.take sizeofCommonHdr),
        request := { arrived := ends.request.drop sizeofCommonHdr } } :=
    (reaches_request (lt_of_lt_of_le (by decide) hhdr)).next (e := .serverReadHdr) rfl
  rw [acceptHdr_of_length hlen, getD_take (by decide)] at hread
  by_cases hicreq : ends.request.getD 0 0 = nvmeTcpIcreq
  · obtain ⟨hwhole, hzero⟩ := htype.resolve_left (not_not.mpr hicreq)
    have hrest : ((ends.request.drop sizeofCommonHdr).take (sizeofIcreq - sizeofCommonHdr)).length = sizeofIcreq - sizeofCommonHdr := by
      rw [List.length_take, List.length_drop]
      omega
    have hat : ((ends.request.drop sizeofCommonHdr).take (sizeofIcreq - sizeofCommonHdr)).getD 10 0 = 0 := by
      rw [getD_take (by decide), getD_drop]
      exact hzero
    rw [if_pos hicreq] at hread
    have hinit := hread.next (e := .serverReadInitReq) rfl
    dsimp only at hinit
    rw [acceptInitReq_of_length _ hrest, if_pos hat] at hinit
    exact reaches_connected hinit
  · rw [if_neg hicreq] at hread
    exact reaches_connected hread

/-- A client and a server can come to be connected for just the requests that the server accepts. -/
theorem exists_connected_iff (ends : Ends) :
    (∃ c, Reaches ends c ∧ c.client = .returned 0 ∧ c.server = .returned 0) ↔ Accepted ends.request := by
  constructor
  · rintro ⟨c, hc, hclient, -⟩
    exact accepted_of_connected hc hclient
  · intro h
    obtain ⟨c, hc, hclient⟩ := reaches_accepted h
    exact ⟨c, hc, hclient, server_of_connected hc hclient⟩

theorem getD_read {m : Mem} {i n : Nat} (h : i < n) : (m.read 0 n).getD i 0 = m i := by
  rw [List.getD_eq_getElem?_getD, Mem.getElem?_read h, Nat.zero_add, Option.getD_some]

/-- The client of this repository can be connected to its server just where a byte of the client's memory that nothing sets, and that
the server takes for the alignment, happens to be zero. -/
theorem own_client_connects_iff (fresh initReq initRep reply : Mem) :
    (∃ c, Reaches ⟨buildConnectData fresh, initReq, initRep, reply⟩ c ∧ c.client = .returned 0) ↔ fresh 18 = 0 := by
  have htype : (buildConnectData fresh).getD 0 0 = nvmeTcpIcreq := by
    unfold buildConnectData
    rw [getD_read (by decide)]
    simp [Mem.write]
  have hbyte : (buildConnectData fresh).getD (sizeofCommonHdr + 10) 0 = fresh 18 := by
    unfold buildConnectData
    rw [getD_read (by decide)]
    simp [Mem.write, sizeofCommonHdr, leBytes]
  have hlen := length_buildConnectData fresh
  have haccepted : Accepted (buildConnectData fresh) ↔ fresh 18 = 0 := by
    rw [Accepted, htype, hbyte, hlen]
    constructor
    · rintro ⟨-, hne | ⟨-, hzero⟩⟩
      · exact absurd rfl hne
      · exact hzero
    · intro hzero
      exact ⟨by decide, .inr ⟨le_refl _, hzero⟩⟩
  rw [← haccepted]
  constructor
  · rintro ⟨c, hc, hclient⟩
    exact accepted_of_connected hc hclient
  · exact @reaches_accepted ⟨buildConnectData fresh, initReq, initRep, reply⟩

end

/-! ## How a handshake ends -/

section

variable {ends : Ends} {c c' : Conn}

/-- What can still happen to a client, a server and a stream. -/
def Client.size (ends : Ends) : Client → Nat
  | .write => ends.request.length + 2
  | .read => 1
  | .returned _ => 0

def Server.size : Server → Nat
  | .readHdr => sizeofIcresp + 3
  | .readInitReq => sizeofIcresp + 2
  | .write => sizeofIcresp + 1
  | .returned _ => 0

def Conn.size (ends : Ends) (c : Conn) : Nat :=
  c.client.size ends + c.server.size + c.request.flight.length + c.reply.flight.length + (if c.reset then 0 else 1)

theorem size_acceptHdr (hdr : List UInt8) : (acceptHdr hdr).size < Server.size .readHdr := by
  unfold acceptHdr
  split_ifs <;> decide

theorem size_acceptInitReq (fresh : Mem) (rest : List UInt8) : (acceptInitReq fresh rest).size < Server.size .readInitReq := by
  unfold acceptInitReq
  split_ifs <;> decide

/-- Every event leaves less that can happen. -/
theorem size_step {e : Event} (hs : step ends c e = some c') : c'.size ends < c.size ends := by
  cases e with
  | clientWrite =>
    simp only [step] at hs
    split_ifs at hs with hclient hreset
    · obtain rfl := Option.some.inj hs
      simp only [Conn.size, not_not.mp hclient, Client.size]
      omega
    · obtain rfl := Option.some.inj hs
      simp only [Conn.size, not_not.mp hclient, Client.size, Stream.send, List.length_append]
      omega
  | requestArrives n =>
    simp only [step] at hs
    split_ifs at hs with hn
    obtain rfl := Option.some.inj hs
    simp only [Conn.size, Stream.deliver, List.length_drop]
    omega
  | serverReadHdr =>
    simp only [step] at hs
    split_ifs at hs with hserver
    obtain rfl := Option.some.inj hs
    have hlt := size_acceptHdr (c.request.arrived.take sizeofCommonHdr)
    simp only [Conn.size, not_not.mp hserver, Stream.recv]
    omega
  | serverReadInitReq =>
    simp only [step] at hs
    split_ifs at hs with hserver
    obtain rfl := Option.some.inj hs
    have hlt := size_acceptInitReq ends.initReq (c.request.arrived.take (sizeofIcreq - sizeofCommonHdr))
    simp only [Conn.size, not_not.mp hserver, Stream.recv]
    omega
  | serverWrite =>
    simp only [step] at hs
    split_ifs at hs with hserver hreset
    · obtain rfl := Option.some.inj hs
      simp only [Conn.size, not_not.mp hserver, Server.size]
      omega
    · obtain rfl := Option.some.inj hs
      have hlen := length_initRep ends.initRep
      simp only [Conn.size, not_not.mp hserver, Server.size, Stream.send, List.length_append]
      omega
  | replyArrives n =>
    simp only [step] at hs
    split_ifs at hs with hn
    obtain rfl := Option.some.inj hs
    simp only [Conn.size, Stream.deliver, List.length_drop]
    omega
  | clientRead =>
    simp only [step] at hs
    split_ifs at hs with hclient harrived hreset hclosed
    all_goals
      obtain rfl := Option.some.inj hs
      simp only [Conn.size, not_not.mp hclient, Client.size, Stream.recv]
      omega
  | reset =>
    simp only [step] at hs
    split_ifs at hs with hreset
    obtain rfl := Option.some.inj hs
    simp only [Conn.size, Stream.lose, hreset, List.length_nil, if_true]
    simp only [Bool.false_eq_true, if_false]
    omega

/-- Where only a reset can still happen, both calls are back. -/
theorem returned_of_stuck (h : Reaches ends c) (hstuck : ∀ e, e ≠ .reset → step ends c e = none) :
    ∃ client server, c.client = .returned client ∧ c.server = .returned server := by
  have hclient : c.client ≠ .write := by
    intro he
    have hnone := hstuck .clientWrite (by simp)
    simp only [step, he, ne_eq, not_true_eq_false, if_false] at hnone
    split at hnone <;> cases hnone
  have hserver : ∃ server, c.server = .returned server := by
    cases he : c.server with
    | readHdr =>
      have hnone := hstuck .serverReadHdr (by simp)
      simp [step, he] at hnone
    | readInitReq =>
      have hnone := hstuck .serverReadInitReq (by simp)
      simp [step, he] at hnone
    | write =>
      have hnone := hstuck .serverWrite (by simp)
      simp only [step, he, ne_eq, not_true_eq_false, if_false] at hnone
      split at hnone <;> cases hnone
    | returned server => exact ⟨server, rfl⟩
  obtain ⟨server, hserver⟩ := hserver
  cases he : c.client with
  | write => exact absurd he hclient
  | returned client => exact ⟨client, server, rfl, hserver⟩
  | read =>
    exfalso
    have hread := hstuck .clientRead (by simp)
    simp only [step, he, ne_eq, not_true_eq_false, if_false] at hread
    split_ifs at hread with harrived hreset hclosed
    have hflight : c.reply.flight = [] := by
      by_contra hne
      have harrives := hstuck (.replyArrives c.reply.flight.length) (by simp)
      simp only [step] at harrives
      rw [if_pos ⟨List.length_pos_iff.mpr hne, le_refl _⟩] at harrives
      cases harrives
    -- The server has not failed, so all of its reply is left.
    have hback : c.server = .returned 0 := by
      by_contra hne
      refine hclosed ⟨?_, hflight⟩
      rw [hserver] at hne ⊢
      intro hzero
      exact hne (by rw [hzero])
    have hbytes := (h.agree.replied hback he).2 (by simpa using hreset)
    rw [Stream.bytes, harrived, hflight] at hbytes
    have hlen := congrArg List.length hbytes
    rw [length_initRep] at hlen
    exact absurd hlen (by decide)

/-- No handshake goes on for ever or hangs: its events are bounded by the request, and where only a reset can still happen both calls
are back, the client's with success only if the server's is. -/
theorem handshake_settles {events : List Event} (h : events.foldlM (step ends) {} = some c) :
    events.length ≤ ends.request.length + sizeofIcresp + 6 ∧
      ((∀ e, e ≠ .reset → step ends c e = none) →
        ∃ client server, c.client = .returned client ∧ c.server = .returned server ∧ (client = 0 → server = 0)) := by
  constructor
  · have hle := @length_le_of_foldlM _ _ _ (Conn.size ends) (fun _ _ _ hs => size_step hs) _ _ _ h
    have hstart : Conn.size ends {} = ends.request.length + 2 + (sizeofIcresp + 3) + 0 + 0 + 1 := rfl
    omega
  · intro hstuck
    have hreach : Reaches ends c := Run.of_foldlM Run.start h
    obtain ⟨client, server, hclient, hserver⟩ := returned_of_stuck hreach hstuck
    refine ⟨client, server, hclient, hserver, ?_⟩
    rintro rfl
    have hback := server_of_connected hreach hclient
    rw [hserver] at hback
    exact Server.returned.inj hback

theorem handshake_settles_zeroed : wholly.length ≤ zeroed.request.length + sizeofIcresp + 6 :=
  (handshake_settles wholly_zeroed).1

end

end NvmeDem.Handshake
