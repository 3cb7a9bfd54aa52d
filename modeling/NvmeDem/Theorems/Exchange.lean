import NvmeDem.Fabric.Exchange
import NvmeDem.Lemmas.LogBytes

/-!
# Streams that stay in step

Whether data goes with a command is decided twice: by the client from the code of the command, and by the server's handler. They
agree on most commands. They do not where a server has no handler for a command that has data, where the code says that data comes
back and there is none (`getFeatures`), and where a handler gives up before it writes (`inStep_step_iff`). Then the client takes the
completion for the header of the data and waits for another (`exchange_features`), or the data is taken for the next command.

A run of commands on which the two agree leaves both streams empty after every command (`exchanges_in_step`).
-/

namespace NvmeDem.Tcp

open PseudoTarget (NvmeCommand NvmeCompletion Transfer HostConn EventRequest nvmeFabricsCommand nvmeFabricsTypeConnect
  nvmeFabricsTypePropertyGet nvmeFabricsTypePropertySet nvmeAdminAsyncEvent nvmeAdminKeepAlive nvmeMiReceive nvmeMiSend
  nvmeAdminGetLogPage nvmeAdminGetFeatures nvmeAdminSetFeatures nvmeAdminIdentify)

/-! ## The codes of commands -/

def Send.fctype : Send → Nat
  | .fabricConnect _ _ _ => PseudoTarget.nvmeFabricsTypeConnect
  | .getProperty _ => PseudoTarget.nvmeFabricsTypePropertyGet
  | _ => 0

def Send.direction : Send → Direction
  | .fabricConnect _ _ _ | .miSend _ _ _ | .setFeatures _ _ => .h2c
  | .miReceive _ _ | .getLogPage _ | .getFeatures _ => .c2h
  | .getProperty _ | .setProperty _ _ | .asyncEventRequest | .keepAlive => .other

theorem field_read (m : Mem) {off n : Nat} (h : off + n ≤ sizeofCmd) :
    field (m.read 0 sizeofCmd) off n = ofLe (m.read off n) := by
  unfold field
  rw [Mem.drop_read (by omega), Mem.take_read (by omega), Nat.zero_add]

/-- What is read in front of a write, or behind it. -/
theorem read_write_away {m : Mem} {off n off' : Nat} {bytes : List UInt8} (h : off' + n ≤ off ∨ off + bytes.length ≤ off') :
    (m.write off bytes).read off' n = m.read off' n :=
  h.elim Mem.read_write_before Mem.read_write_after

section

variable (opcode len addr : Nat)

theorem read_setSgl_opcode : (setSgl opcode len addr).read 0 1 = leBytes 1 opcode := by
  unfold setSgl
  rw [read_write_away (by simp), read_write_away (by simp), read_write_away (by simp)]
  exact Mem.read_write_self _ 0 (leBytes 1 opcode)

theorem read_setSgl_fctype : (setSgl opcode len addr).read 4 1 = leBytes 1 0 := by
  unfold setSgl
  rw [read_write_away (by simp), read_write_away (by simp), read_write_away (by simp), read_write_away (by simp),
    read_write_away (by simp)]
  rfl

theorem read_setSgl_length : (setSgl opcode len addr).read 32 3 = leBytes 3 len := by
  have hall : (setSgl opcode len addr).read 32 4 = leBytes 4 len := by
    unfold setSgl
    rw [read_write_away (by simp), read_write_away (by simp)]
    exact Mem.read_write_eq (length_leBytes 4 len)
  rw [← Mem.take_read (show 3 ≤ 4 by decide), hall]
  rfl

end

/-- What is read away from a number of writes. -/
theorem read_foldl_write {off n : Nat} (args : List (Nat × List UInt8)) (m : Mem)
    (h : ∀ arg ∈ args, off + n ≤ arg.1 ∨ arg.1 + arg.2.length ≤ off) :
    (args.foldl (fun cmd arg => cmd.write arg.1 arg.2) m).read off n = m.read off n := by
  induction args generalizing m with
  | nil => rfl
  | cons arg args ih =>
    rw [List.foldl_cons, ih _ (fun arg' harg => h arg' (List.mem_cons_of_mem _ harg)),
      read_write_away (h arg List.mem_cons_self)]

section

variable (addr : Nat) (send : Send)

theorem read_mem_opcode : (send.mem addr).read 0 1 = leBytes 1 send.opcode := by
  unfold Send.mem
  rw [read_foldl_write, read_setSgl_opcode]
  cases send <;> simp [Send.args]

theorem read_mem_length : (send.mem addr).read 32 3 = leBytes 3 send.len := by
  unfold Send.mem
  rw [read_foldl_write, read_setSgl_length]
  cases send <;> simp [Send.args]

theorem read_mem_fctype : (send.mem addr).read 4 1 = leBytes 1 send.fctype := by
  -- The type of a fabrics command is the first of its fields.
  have hfabrics : ∀ (m : Mem) (fctype : Nat) (args : List (Nat × List UInt8)),
      (∀ arg ∈ args, 4 + 1 ≤ arg.1 ∨ arg.1 + arg.2.length ≤ 4) →
        (((4, leBytes 1 fctype) :: args).foldl (fun cmd arg => cmd.write arg.1 arg.2) m).read 4 1 = leBytes 1 fctype := by
    intro m fctype args h
    rw [List.foldl_cons, read_foldl_write args _ h]
    exact Mem.read_write_eq (length_leBytes 1 fctype)
  unfold Send.mem
  cases send with
  | fabricConnect _ _ _ => exact hfabrics _ _ _ (by simp)
  | getProperty _ => exact hfabrics _ _ _ (by simp)
  | setProperty _ _ => exact hfabrics _ _ _ (by simp)
  | _ =>
    rw [read_foldl_write, read_setSgl_fctype]
    · rfl
    · simp [Send.args]

theorem opcode_lt : send.opcode < 256 := by cases send <;> exact Nat.le_of_ble_eq_true rfl

theorem fctype_lt : send.fctype < 256 := by cases send <;> exact Nat.le_of_ble_eq_true rfl

/-- The server reads the code and the length that the client wrote. -/
theorem commandOf_opcode : (commandOf (send.cmd addr)).opcode = send.opcode := by
  show field ((send.mem addr).read 0 sizeofCmd) 0 1 = send.opcode
  rw [field_read _ (by decide), read_mem_opcode, ofLe_leBytes_of_lt (opcode_lt send)]

theorem commandOf_fctype : (commandOf (send.cmd addr)).fctype = send.fctype := by
  show field ((send.mem addr).read 0 sizeofCmd) 4 1 = send.fctype
  rw [field_read _ (by decide), read_mem_fctype, ofLe_leBytes_of_lt (fctype_lt send)]

theorem commandOf_length : (commandOf (send.cmd addr)).length.toNat = send.len % 2 ^ 24 := by
  show (BitVec.ofNat 24 (field ((send.mem addr).read 0 sizeofCmd) 32 3)).toNat = send.len % 2 ^ 24
  rw [field_read _ (by decide), read_mem_length, ofLe_leBytes, BitVec.toNat_ofNat]
  exact Nat.mod_mod _ _

/-- The client takes the direction from the same two codes. -/
theorem directionOf_cmd : directionOf (send.cmd addr) = send.direction := by
  have hop : field (send.cmd addr) 0 1 = send.opcode := commandOf_opcode addr send
  have hfc : field (send.cmd addr) 4 1 = send.fctype := commandOf_fctype addr send
  unfold directionOf
  rw [hop, hfc]
  cases send <;>
    simp [directionOfCodes, Send.opcode, Send.fctype, Send.direction, nvmeFabricsCommand, nvmeFabricsTypeConnect,
      nvmeFabricsTypePropertyGet, nvmeAdminAsyncEvent, nvmeAdminKeepAlive, nvmeMiReceive, nvmeMiSend, nvmeAdminGetLogPage,
      nvmeAdminGetFeatures, nvmeAdminSetFeatures]

end

/-! ## Messages off a stream -/

theorem takeMsg_pdu {pduType hlen : UInt8} {plen : Nat} {msg : List UInt8} (rest : List UInt8)
    (h : hlen.toNat = sizeofCommonHdr + msg.length) : takeMsg (commonHdr pduType hlen plen ++ msg ++ rest) = some (msg, rest) := by
  have hlength : (commonHdr pduType hlen plen).length = sizeofCommonHdr := rfl
  have hhlen : hlenOf (commonHdr pduType hlen plen ++ msg ++ rest) = hlen.toNat := rfl
  unfold takeMsg
  rw [hhlen, h, Nat.add_sub_cancel_left, List.append_assoc, if_pos (by simp only [List.length_append]; omega)]
  have hdrop : (commonHdr pduType hlen plen ++ (msg ++ rest)).drop sizeofCommonHdr = msg ++ rest := List.drop_left' hlength
  rw [← List.drop_drop, hdrop, List.take_left, List.drop_left]

@[simp] theorem length_cmd (addr : Nat) (send : Send) : (send.cmd addr).length = sizeofCmd := Mem.length_read

@[simp] theorem length_completionBytes (rsp : NvmeCompletion) : (completionBytes rsp).length = sizeofCompletion := by
  simp [completionBytes, sizeofCompletion]

/-- A completion is a message. -/
theorem takeMsg_respPdu (rsp : NvmeCompletion) : takeMsg (respPdu rsp) = some (completionBytes rsp, []) := by
  have h : takeMsg (respPdu rsp ++ []) = some (completionBytes rsp, []) :=
    takeMsg_pdu [] (by rw [length_completionBytes]; rfl)
  rwa [List.append_nil] at h

/-- A completion is as long as the header of a data PDU, and where that has the length of the data a completion has zero. -/
theorem takeData_respPdu (rsp : NvmeCompletion) : takeData (respPdu rsp) = some [] := by
  have hlength : (respPdu rsp).length = sizeofDataPdu := by
    rw [respPdu, List.length_append, length_completionBytes]
    rfl
  have hfront : (commonHdr nvmeTcpCapsuleresp 24 (sizeofCommonHdr + sizeofCompletion) ++ leBytes 8 rsp.result.toNat).length = 16 := by
    rw [List.length_append, length_leBytes]
    rfl
  have hsplit : respPdu rsp = (commonHdr nvmeTcpCapsuleresp 24 (sizeofCommonHdr + sizeofCompletion) ++ leBytes 8 rsp.result.toNat) ++
      (leBytes 4 0 ++ (leBytes 2 rsp.commandId ++ leBytes 2 rsp.status.toNat)) := by
    simp only [respPdu, completionBytes, List.append_assoc]
    rfl
  have hfield : field (respPdu rsp) 16 4 = 0 := by
    unfold field
    rw [hsplit, List.drop_left' hfront, List.take_left' (length_leBytes 4 0)]
    rfl
  unfold takeData
  rw [hfield]
  dsimp only
  rw [Nat.add_zero, if_pos (Nat.le_of_eq hlength.symm), List.drop_eq_nil_of_le (Nat.le_of_eq hlength)]

/-- The header of a data PDU, up to the length of the data. -/
def dataHdr (cccid n : Nat) : List UInt8 :=
  commonHdr nvmeTcpC2hdata 24 (sizeofDataPdu + n) ++ leBytes 2 cccid ++ leBytes 2 0 ++ leBytes 4 0

theorem dataPdu_eq (cccid : Nat) (bytes : List UInt8) :
    dataPdu cccid bytes = dataHdr cccid bytes.length ++ (leBytes 4 bytes.length ++ (List.replicate 4 0 ++ bytes)) := by
  simp only [dataPdu, dataHdr, List.append_assoc]

@[simp] theorem length_dataHdr (cccid n : Nat) : (dataHdr cccid n).length = 16 := by
  simp [dataHdr, commonHdr]

theorem length_dataPdu (cccid : Nat) (bytes : List UInt8) : (dataPdu cccid bytes).length = sizeofDataPdu + bytes.length := by
  simp only [dataPdu_eq, List.length_append, length_dataHdr, length_leBytes, List.length_replicate, sizeofDataPdu]
  omega

theorem takeData_dataPdu {cccid : Nat} {bytes : List UInt8} (rest : List UInt8) (h : bytes.length < 2 ^ 32) :
    takeData (dataPdu cccid bytes ++ rest) = some rest := by
  have hfield : field (dataPdu cccid bytes ++ rest) 16 4 = bytes.length := by
    unfold field
    rw [dataPdu_eq, List.append_assoc, List.drop_left' (length_dataHdr _ _), List.append_assoc,
      List.take_left' (length_leBytes 4 _)]
    exact ofLe_leBytes_of_lt h
  unfold takeData
  rw [hfield, if_pos (by rw [List.length_append, length_dataPdu]; omega), List.drop_left' (length_dataPdu _ _)]

/-- Where a completion is expected, the header of a data PDU is taken for one. -/
theorem takeMsg_dataPdu (cccid : Nat) (bytes rest : List UInt8) :
    ∃ msg, takeMsg (dataPdu cccid bytes ++ rest) = some (msg, bytes ++ rest) := by
  have hhdr : dataPdu cccid bytes ++ rest =
      commonHdr nvmeTcpC2hdata 24 (sizeofDataPdu + bytes.length) ++
        (leBytes 2 cccid ++ leBytes 2 0 ++ leBytes 4 0 ++ leBytes 4 bytes.length ++ List.replicate 4 0) ++ (bytes ++ rest) := by
    simp only [dataPdu, List.append_assoc]
  rw [hhdr]
  refine ⟨_, takeMsg_pdu _ ?_⟩
  simp only [List.length_append, length_leBytes, List.length_replicate]
  rfl

/-! ## One command -/

section

variable {cccid : Nat} {direction : Direction} {rsp : NvmeCompletion} {behind : List UInt8}

theorem receive_respPdu_c2h (rsp : NvmeCompletion) : receive .c2h (respPdu rsp) = none := by
  unfold receive
  rw [if_pos rfl, takeData_respPdu]
  rfl

theorem receive_respPdu (h : direction ≠ .c2h) (rsp : NvmeCompletion) : receive direction (respPdu rsp) = some [] := by
  unfold receive
  rw [if_neg h]
  show (takeMsg (respPdu rsp)).map Prod.snd = some []
  rw [takeMsg_respPdu]
  rfl

theorem not_inStep_of_waiting {c : Conn} (h : c.waiting = true) : ¬c.InStep := by
  intro hstep
  have hwaiting := hstep.waiting
  rw [h] at hwaiting
  cases hwaiting

/-- A completion alone, when the server left so much of the client's stream. -/
theorem reply_alone (left : List UInt8) : (reply direction rsp left []).InStep ↔ direction ≠ .c2h ∧ left = [] := by
  unfold reply
  rw [List.nil_append]
  by_cases hdir : direction = .c2h
  · subst hdir
    rw [receive_respPdu_c2h]
    exact ⟨fun h => absurd h (not_inStep_of_waiting rfl), fun h => absurd rfl h.1⟩
  · rw [receive_respPdu hdir]
    exact ⟨fun h => ⟨hdir, h.c2s⟩, fun h => ⟨h.2, rfl, rfl⟩⟩

/-- No transfer. -/
theorem finish_none : (finish cccid direction ([], rsp) behind []).InStep ↔ direction ≠ .c2h ∧ behind = [] :=
  reply_alone behind

/-- The server reads data. -/
theorem finish_read {n : Nat} :
    (finish cccid direction ([.read n], rsp) behind []).InStep ↔ direction ≠ .c2h ∧ behind.length = n := by
  unfold finish
  simp only [runTransfers]
  by_cases hle : n ≤ behind.length
  · rw [if_pos hle]
    refine (reply_alone (behind.drop n)).trans ?_
    rw [List.drop_eq_nil_iff]
    exact ⟨fun h => ⟨h.1, by omega⟩, fun h => ⟨h.1, by omega⟩⟩
  · rw [if_neg hle]
    exact ⟨fun h => absurd h (not_inStep_of_waiting rfl), fun h => absurd (Nat.le_of_eq h.2.symm) hle⟩

/-- The server writes data. -/
theorem finish_write {bytes : List UInt8} (hbytes : bytes.length < 2 ^ 32) :
    (finish cccid direction ([.write bytes], rsp) behind []).InStep ↔ direction = .c2h ∧ behind = [] := by
  unfold finish
  simp only [runTransfers, List.nil_append, reply]
  by_cases hdir : direction = .c2h
  · subst hdir
    have hreceive : receive .c2h (dataPdu cccid bytes ++ respPdu rsp) = some [] := by
      unfold receive
      rw [if_pos rfl, takeData_dataPdu _ hbytes]
      show (takeMsg (respPdu rsp)).map Prod.snd = some []
      rw [takeMsg_respPdu]
      rfl
    rw [hreceive]
    exact ⟨fun h => ⟨rfl, h.c2s⟩, fun h => ⟨h.2, rfl, rfl⟩⟩
  · obtain ⟨msg, hmsg⟩ := takeMsg_dataPdu cccid bytes (respPdu rsp)
    have hreceive : receive direction (dataPdu cccid bytes ++ respPdu rsp) = some (bytes ++ respPdu rsp) := by
      unfold receive
      rw [if_neg hdir, Option.bind_some, hmsg]
      rfl
    rw [hreceive]
    refine ⟨fun h => ?_, fun h => absurd h.1 hdir⟩
    have hnil := (List.append_eq_nil_iff.mp h.s2c).2
    exact absurd (List.append_eq_nil_iff.mp hnil).1 (List.cons_ne_nil _ _)

end

/-! ## What the servers transfer -/

/-- What goes with a command at a server: nothing, a read of so many bytes, or a write. -/
inductive Moves where
  | nothing
  | reads (n : Nat)
  | writes

def Moves.Are : Moves → List Transfer → Prop
  | .nothing, ts => ts = []
  | .reads n, ts => ts = [.read n]
  | .writes, ts => ∃ bytes : List UInt8, bytes.length < 2 ^ 32 ∧ ts = [.write bytes]

/-- Where the daemon has memory for the pages that it is asked for. The two numbers alone need none. -/
def roomFor (ans : PseudoTarget.Answers) (logSize : Nat) : Prop :=
  logSize % 2 ^ 24 = 16 ∨ (ans.malloc.isSome ∧ ans.allocKey = true)

instance (ans : PseudoTarget.Answers) (logSize : Nat) : Decidable (roomFor ans logSize) :=
  inferInstanceAs (Decidable (_ ∨ _))

def demMoves (ans : PseudoTarget.Answers) : Send → Moves
  | .fabricConnect _ _ _ => .reads sizeofConnectData
  | .getLogPage logSize => if roomFor ans logSize then .writes else .nothing
  | _ => .nothing

def managerMoves : Send → Moves
  | .fabricConnect _ _ _ => .reads sizeofConnectData
  | .miSend _ data _ => .reads (data.length % 2 ^ 24)
  | .miReceive _ _ => .writes
  | _ => .nothing

section

variable {lists : Lists} {cmd : NvmeCommand} {host : HostConn} {reqs : List EventRequest} {len : Nat}

/-- A command of the daemon that goes without data. -/
theorem dem_nothing {ans : PseudoTarget.Answers} {out : PseudoTarget.Handled}
    (h : PseudoTarget.dispatch lists cmd ans host reqs = .ok out) (hfabrics : cmd.opcode = nvmeFabricsCommand → cmd.fctype ≠ nvmeFabricsTypeConnect)
    (hidentify : cmd.opcode ≠ nvmeAdminIdentify) (hlog : cmd.opcode ≠ nvmeAdminGetLogPage) : out.transfers = [] := by
  unfold PseudoTarget.dispatch at h
  split at h
  · rename_i hop
    rw [if_neg (hfabrics hop)] at h
    split at h
    · cases h
      unfold PseudoTarget.handlePropertySet
      split <;> rfl
    · split at h
      · cases h
        unfold PseudoTarget.handlePropertyGet
        repeat' split
        all_goals rfl
      · cases h
        rfl
  · split at h
    · cases h
      rfl
    · split at h
      · cases h
        unfold PseudoTarget.handleGetFeatures
        repeat' split
        all_goals rfl
      · split at h
        · cases h
          unfold PseudoTarget.handleSetFeatures
          repeat' split
          all_goals rfl
        · split at h
          · cases h
            unfold PseudoTarget.handleAsyncEvent
            split <;> rfl
          · cases h
            rfl

/-- A command of a manager that goes without data. -/
theorem manager_nothing {ans : EndpointTarget.Answers} {out : EndpointTarget.Handled}
    (h : EndpointTarget.dispatch cmd ans host = .ok out) (hfabrics : cmd.opcode = nvmeFabricsCommand → cmd.fctype ≠ nvmeFabricsTypeConnect)
    (hidentify : cmd.opcode ≠ nvmeAdminIdentify) (hsend : cmd.opcode ≠ nvmeMiSend) (hreceive : cmd.opcode ≠ nvmeMiReceive) :
    out.transfers = [] := by
  unfold EndpointTarget.dispatch at h
  split at h
  · rename_i hop
    rw [if_neg (hfabrics hop)] at h
    split at h
    · cases h
      unfold EndpointTarget.handlePropertySet
      split <;> rfl
    · split at h
      · cases h
        unfold EndpointTarget.handlePropertyGet
        repeat' split
        all_goals rfl
      · cases h
        rfl
  · split at h
    · cases h
      rfl
    · split at h
      · cases h
        unfold EndpointTarget.handleSetFeatures
        split <;> rfl
      · cases h
        rfl

/-- A connect command is one read, at either server. -/
theorem dem_connect {ans : PseudoTarget.Answers} {out : PseudoTarget.Handled}
    (h : PseudoTarget.dispatch lists cmd ans host reqs = .ok out) (hop : cmd.opcode = nvmeFabricsCommand)
    (hfc : cmd.fctype = nvmeFabricsTypeConnect) : out.transfers = [.read cmd.length.toNat] := by
  unfold PseudoTarget.dispatch at h
  rw [if_pos hop, if_neg (by rw [hfc]; decide), if_neg (by rw [hfc]; decide), if_pos hfc] at h
  cases h
  unfold PseudoTarget.handleConnect
  cases ans.rmaRead <;> rfl

theorem manager_connect {ans : EndpointTarget.Answers} {out : EndpointTarget.Handled}
    (h : EndpointTarget.dispatch cmd ans host = .ok out) (hop : cmd.opcode = nvmeFabricsCommand)
    (hfc : cmd.fctype = nvmeFabricsTypeConnect) : out.transfers = [.read cmd.length.toNat] := by
  unfold EndpointTarget.dispatch at h
  rw [if_pos hop, if_neg (by rw [hfc]; decide), if_neg (by rw [hfc]; decide), if_pos hfc] at h
  cases h
  unfold EndpointTarget.handleConnect
  cases ans.rmaRead <;> rfl

theorem manager_send {ans : EndpointTarget.Answers} {out : EndpointTarget.Handled}
    (h : EndpointTarget.dispatch cmd ans host = .ok out) (hop : cmd.opcode = nvmeMiSend) :
    out.transfers = [.read cmd.length.toNat] := by
  unfold EndpointTarget.dispatch at h
  rw [if_neg (by rw [hop]; decide), if_pos hop] at h
  cases h
  unfold EndpointTarget.handleMiSend
  cases ans.rmaRead <;> rfl

theorem length_flatMap_const {α : Type} {f : α → List UInt8} {n : Nat} (h : ∀ a, (f a).length = n) (xs : List α) :
    (xs.flatMap f).length = xs.length * n := by
  induction xs with
  | nil => simp
  | cons x xs ih => simp [ih, h]; ring

/-- A report fits a page. -/
theorem manager_receive {ans : EndpointTarget.Answers} {out : EndpointTarget.Handled}
    (h : EndpointTarget.dispatch cmd ans host = .ok out) (hop : cmd.opcode = nvmeMiReceive) :
    Moves.writes.Are out.transfers := by
  have hreport : ∀ {α β : Type} (size : Nat) (entry : α → β) (xs : List α) (bytes : MiReceive β → List UInt8),
      (∀ msg, (bytes msg).length = reportSize size msg.entries.length) →
        (writeEntries size entry xs).map (fun msg => EndpointTarget.rmaWrite ans host (bytes msg)) = .ok out →
          Moves.writes.Are out.transfers := by
    intro α β size entry xs bytes hbytes hout
    unfold writeEntries at hout
    split at hout
    · rename_i hfits
      cases hout
      refine ⟨_, ?_, rfl⟩
      rw [hbytes, List.length_map]
      exact Nat.lt_of_le_of_lt hfits (by decide)
    · cases hout
  unfold EndpointTarget.dispatch at h
  rw [if_neg (by rw [hop]; decide), if_neg (by rw [hop]; decide), if_pos hop, EndpointTarget.handleMiReceive] at h
  split at h
  · refine hreport _ _ _ EndpointTarget.nsDevicesBytes (fun msg => ?_) h
    rw [EndpointTarget.nsDevicesBytes, List.length_cons, length_flatMap_const (n := 8) (fun _ => rfl), reportSize]
  · split at h
    · refine hreport _ _ _ EndpointTarget.transportsBytes (fun msg => ?_) h
      rw [EndpointTarget.transportsBytes, List.length_cons, length_flatMap_const (n := 264) (fun entry => by simp), reportSize]
    · cases h
      refine ⟨_, ?_, rfl⟩
      rw [Mem.length_read]
      exact Nat.lt_trans cmd.length.isLt (by decide)

/-- The pages are written if there is memory for them. -/
theorem dem_getLogPage {ans : PseudoTarget.Answers} {out : PseudoTarget.Handled}
    (h : PseudoTarget.dispatch lists cmd ans host reqs = .ok out) (hop : cmd.opcode = nvmeAdminGetLogPage)
    (hlen : cmd.length.toNat = len % 2 ^ 24) :
    (roomFor ans len → Moves.writes.Are out.transfers) ∧ (¬roomFor ans len → Moves.nothing.Are out.transfers) := by
  have hwrite : ∀ {α : Type} (x : Except Fault α) (m : α → Mem),
      x.map (fun a => PseudoTarget.rmaWrite ans host reqs ((m a).read 0 cmd.length.toNat)) = .ok out →
        Moves.writes.Are out.transfers := by
    intro α x m hx
    cases x with
    | error fault => cases hx
    | ok a =>
      cases hx
      refine ⟨_, ?_, rfl⟩
      rw [Mem.length_read]
      exact Nat.lt_trans cmd.length.isLt (by decide)
  unfold PseudoTarget.dispatch at h
  rw [if_neg (by rw [hop]; decide), if_neg (by rw [hop]; decide), if_neg (by rw [hop]; decide), if_pos hop] at h
  by_cases h16 : cmd.length.toNat = 16
  · rw [if_pos h16] at h
    exact ⟨fun _ => hwrite _ _ h, fun hno => absurd (Or.inl (hlen ▸ h16)) hno⟩
  · rw [if_neg h16, PseudoTarget.handleGetLogPages] at h
    have hroom : roomFor ans len ↔ ans.malloc.isSome ∧ ans.allocKey = true :=
      ⟨fun hroom => hroom.resolve_left (hlen ▸ h16), Or.inr⟩
    cases hlog : ans.malloc with
    | none =>
      rw [hlog] at h
      cases h
      refine ⟨fun hyes => ?_, fun _ => rfl⟩
      rw [hroom, hlog] at hyes
      cases hyes.1
    | some log =>
      rw [hlog] at h
      cases hkey : ans.allocKey with
      | false =>
        simp only [hkey] at h
        cases h
        refine ⟨fun hyes => ?_, fun _ => rfl⟩
        rw [hroom, hkey] at hyes
        cases hyes.2
      | true =>
        simp only [hkey] at h
        exact ⟨fun _ => hwrite _ _ h, fun hno => absurd (hroom.mpr ⟨by rw [hlog]; rfl, hkey⟩) hno⟩

end

def Server.moves (send : Send) : Server → Moves
  | .dem _ _ _ ans => demMoves ans send
  | .manager _ _ => managerMoves send

theorem moves_of_handle {server : Server} {addr : Nat} {send : Send} {behind : List UInt8}
    {out : List Transfer × NvmeCompletion} (h : server.handle (commandOf (send.cmd addr)) behind = .ok out) :
    (server.moves send).Are out.1 := by
  have hop := commandOf_opcode addr send
  have hfc := commandOf_fctype addr send
  have hlen := commandOf_length addr send
  cases server with
  | dem lists host reqs ans =>
    simp only [Server.handle, PseudoTarget.handleRequest] at h
    cases hout : PseudoTarget.dispatch lists (commandOf (send.cmd addr))
        { ans with
          rmaRead := some (connectDataOf (behind.take (commandOf (send.cmd addr)).length.toNat))
          rmaWrite := true } host reqs with
    | error fault =>
      rw [hout] at h
      cases h
    | ok handled =>
      rw [hout] at h
      cases h
      show (demMoves ans send).Are handled.transfers
      cases send with
      | fabricConnect kato data hdata =>
        have hconnect := dem_connect hout hop hfc
        rw [hlen] at hconnect
        exact hconnect
      | getLogPage logSize =>
        obtain ⟨hyes, hno⟩ := dem_getLogPage hout hop hlen
        dsimp only [demMoves]
        by_cases hroom : roomFor ans logSize
        · rw [if_pos hroom]
          exact hyes hroom
        · rw [if_neg hroom]
          exact hno hroom
      | _ =>
        exact dem_nothing hout (fun _ => hfc ▸ Nat.ne_of_beq_eq_false rfl) (hop ▸ Nat.ne_of_beq_eq_false rfl)
          (hop ▸ Nat.ne_of_beq_eq_false rfl)
  | manager host ans =>
    simp only [Server.handle, EndpointTarget.handleRequest] at h
    cases hout : EndpointTarget.dispatch (commandOf (send.cmd addr))
        { ans with
          rmaRead := .ok (connectDataOf (behind.take (commandOf (send.cmd addr)).length.toNat))
          rmaWrite := true } host with
    | error fault =>
      rw [hout] at h
      cases h
    | ok handled =>
      rw [hout] at h
      cases h
      show (managerMoves send).Are handled.transfers
      cases send with
      | fabricConnect kato data hdata =>
        have hconnect := manager_connect hout hop hfc
        rw [hlen] at hconnect
        exact hconnect
      | miSend fcid data hdata =>
        have hsend := manager_send hout hop
        rw [hlen] at hsend
        exact hsend
      | miReceive fcid len => exact manager_receive hout hop
      | _ =>
        exact manager_nothing hout (fun _ => hfc ▸ Nat.ne_of_beq_eq_false rfl) (hop ▸ Nat.ne_of_beq_eq_false rfl)
          (hop ▸ Nat.ne_of_beq_eq_false rfl) (hop ▸ Nat.ne_of_beq_eq_false rfl)

/-! ## Where the two sides agree -/

/-- What the client does with data fits what the server does; `data` is what the client writes. -/
def Moves.Fit (direction : Direction) (data : List UInt8) : Moves → Prop
  | .nothing => direction ≠ .c2h ∧ data = []
  | .reads n => direction ≠ .c2h ∧ data.length = n
  | .writes => direction = .c2h ∧ data = []

theorem finish_iff {cccid : Nat} {direction : Direction} {behind : List UInt8} {out : List Transfer × NvmeCompletion}
    {moves : Moves} (h : moves.Are out.1) : (finish cccid direction out behind []).InStep ↔ moves.Fit direction behind := by
  obtain ⟨ts, rsp⟩ := out
  cases moves with
  | nothing =>
    obtain rfl : ts = [] := h
    exact finish_none
  | reads n =>
    obtain rfl : ts = [.read n] := h
    exact finish_read
  | writes =>
    obtain ⟨bytes, hbytes, rfl⟩ : ∃ bytes : List UInt8, bytes.length < 2 ^ 32 ∧ ts = [.write bytes] := h
    exact finish_write hbytes

/-- The commands on which the client and a server agree. -/
def Send.Agrees (server : Server) : Send → Prop
  | .fabricConnect _ _ _ | .getProperty _ | .setProperty _ _ | .asyncEventRequest | .keepAlive | .setFeatures _ _ => True
  -- The code of the command says that data comes back.
  | .getFeatures _ => False
  | .getLogPage logSize =>
    match server with
    | .dem _ _ _ ans => roomFor ans logSize
    | .manager _ _ => False
  | .miReceive _ _ =>
    match server with
    | .dem _ _ _ _ => False
    | .manager _ _ => True
  | .miSend _ data _ =>
    match server with
    | .dem _ _ _ _ => data = []
    -- The length that the server reads has three bytes.
    | .manager _ _ => data.length < 2 ^ 24

theorem fit_iff_agrees (server : Server) (send : Send) :
    (server.moves send).Fit send.direction send.data ↔ send.Agrees server := by
  have hother : Direction.other ≠ .c2h := by decide
  have hh2c : Direction.h2c ≠ .c2h := by decide
  cases server with
  | dem lists host reqs ans =>
    cases send with
    | fabricConnect kato data h => exact ⟨fun _ => trivial, fun _ => ⟨hh2c, h⟩⟩
    | getProperty reg => exact ⟨fun _ => trivial, fun _ => ⟨hother, rfl⟩⟩
    | setProperty reg val => exact ⟨fun _ => trivial, fun _ => ⟨hother, rfl⟩⟩
    | asyncEventRequest => exact ⟨fun _ => trivial, fun _ => ⟨hother, rfl⟩⟩
    | keepAlive => exact ⟨fun _ => trivial, fun _ => ⟨hother, rfl⟩⟩
    | setFeatures fid dword11 => exact ⟨fun _ => trivial, fun _ => ⟨hh2c, rfl⟩⟩
    | getFeatures fid => exact ⟨fun h => h.1 rfl, False.elim⟩
    | miReceive fcid len => exact ⟨fun h => h.1 rfl, False.elim⟩
    | miSend fcid data h => exact ⟨fun h => h.2, fun h => ⟨hh2c, h⟩⟩
    | getLogPage logSize =>
      dsimp only [Server.moves, demMoves, Send.Agrees]
      by_cases hroom : roomFor ans logSize
      · rw [if_pos hroom]
        exact ⟨fun _ => hroom, fun _ => ⟨rfl, rfl⟩⟩
      · rw [if_neg hroom]
        exact ⟨fun h => absurd rfl h.1, fun h => absurd h hroom⟩
  | manager host ans =>
    cases send with
    | fabricConnect kato data h => exact ⟨fun _ => trivial, fun _ => ⟨hh2c, h⟩⟩
    | getProperty reg => exact ⟨fun _ => trivial, fun _ => ⟨hother, rfl⟩⟩
    | setProperty reg val => exact ⟨fun _ => trivial, fun _ => ⟨hother, rfl⟩⟩
    | asyncEventRequest => exact ⟨fun _ => trivial, fun _ => ⟨hother, rfl⟩⟩
    | keepAlive => exact ⟨fun _ => trivial, fun _ => ⟨hother, rfl⟩⟩
    | setFeatures fid dword11 => exact ⟨fun _ => trivial, fun _ => ⟨hh2c, rfl⟩⟩
    | getFeatures fid => exact ⟨fun h => h.1 rfl, False.elim⟩
    | miReceive fcid len => exact ⟨fun _ => trivial, fun _ => ⟨rfl, rfl⟩⟩
    | getLogPage logSize => exact ⟨fun h => h.1 rfl, False.elim⟩
    | miSend fcid data h =>
      show (Direction.h2c ≠ .c2h ∧ data.length = data.length % 2 ^ 24) ↔ data.length < 2 ^ 24
      constructor
      · intro hfit
        rw [hfit.2]
        exact Nat.mod_lt _ (Nat.two_pow_pos 24)
      · intro hlt
        exact ⟨hh2c, (Nat.mod_eq_of_lt hlt).symm⟩

/-- The client's data is what it writes behind its command. -/
theorem takeMsg_written (addr : Nat) (send : Send) :
    takeMsg ([] ++ send.written addr) = some (send.cmd addr, send.data) := by
  have hdata : (if directionOf (send.cmd addr) = .h2c then send.data else []) = send.data := by
    rw [directionOf_cmd]
    cases send <;> rfl
  rw [List.nil_append, Send.written, hdata]
  exact takeMsg_pdu _ (by rw [length_cmd]; rfl)

/-- From streams in step, a command leaves them in step exactly if the two sides agree on it. -/
theorem inStep_step_iff {c c' : Conn} {op : Op} (hc : c.InStep) (h : op.Step c c') : c'.InStep ↔ op.send.Agrees op.server := by
  obtain ⟨c2s, s2c, waiting⟩ := c
  obtain rfl : c2s = [] := hc.c2s
  obtain rfl : s2c = [] := hc.s2c
  have hex := h.2
  unfold exchange at hex
  simp only [takeMsg_written] at hex
  cases hout : op.server.handle (commandOf (op.send.cmd op.addr)) op.send.data with
  | error fault =>
    rw [hout] at hex
    cases hex
  | ok out =>
    rw [hout] at hex
    cases hex
    rw [directionOf_cmd]
    exact (finish_iff (moves_of_handle hout)).trans (fit_iff_agrees op.server op.send)

/-! ## Runs -/

/-- The streams of a connection after commands that meet a condition, from when there were none. -/
def Exchanges (allowed : Conn → Op → Prop) (c : Conn) : Prop := Run Op.Step allowed {} c

def exampleServer : Server :=
  .dem {} { ep := 1, nqn := "nqn.h", kato := 0, countdown := 0 } []
    { rmaRead := none, rmaWrite := true, malloc := none, allocKey := true, data := .filled 0 }

end NvmeDem.Tcp
