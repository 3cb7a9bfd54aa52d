import NvmeDem.Common.Curl
import Mathlib.Algebra.Order.Ring.Nat

/-!
# What a call over HTTP sends and gives back

In whatever portions the library asks and delivers, and whatever became of the calls before, a call uploads its own data and returns its
own answer.
-/

namespace NvmeDem.Curl

/-! ## Uploads -/

/-- What an upload is given next is what comes next of the data. -/
theorem readCb_of_within {ctx : Ctx} (len : Nat) (h : ctx.readSz = ctx.readData.length) :
    (readCb len ctx).1 = ctx.readData.take len ∧
      ((readCb len ctx).2.readSz = 0 ∧ ctx.readData.length ≤ len ∨
        (readCb len ctx).2.readData = ctx.readData.drop len ∧
          (readCb len ctx).2.readSz = (readCb len ctx).2.readData.length) := by
  unfold readCb
  split
  · rename_i hzero
    have hnil : ctx.readData = [] := List.eq_nil_of_length_eq_zero (by omega)
    simp [hnil, hzero]
  split
  · rename_i hlt
    have hwhole : ctx.readData.take ctx.readSz = ctx.readData.take len := by
      rw [h, List.take_length, List.take_of_length_le (by omega)]
    exact ⟨hwhole, .inl ⟨rfl, by omega⟩⟩
  · refine ⟨rfl, .inr ⟨rfl, ?_⟩⟩
    simp only [List.length_drop]
    omega

/-- Nothing is uploaded when nothing is left. -/
theorem upload_of_zero {ctx : Ctx} (h : ctx.readSz = 0) (rooms : List Nat) : (upload rooms ctx).1 = [] := by
  cases rooms with
  | nil => rfl
  | cons room rooms =>
    have hnone : readCb room ctx = ([], ctx) := if_pos h
    simp only [upload, hnone, if_true]

/-- The portions of an upload, one after the other, are the beginning of the data, as far as there was room. -/
theorem upload_eq_take {rooms : List Nat} {ctx : Ctx} (hpos : ∀ room ∈ rooms, 0 < room) (h : ctx.readSz = ctx.readData.length) :
    (upload rooms ctx).1 = ctx.readData.take rooms.sum := by
  induction rooms generalizing ctx with
  | nil => rfl
  | cons room rooms ih =>
    obtain ⟨hbytes, hrest⟩ := readCb_of_within room h
    have hroom : 0 < room := hpos room List.mem_cons_self
    have hrooms : ∀ r ∈ rooms, 0 < r := fun r hr => hpos r (List.mem_cons_of_mem _ hr)
    rw [upload, List.sum_cons]
    dsimp only
    by_cases hnil : (readCb room ctx).1 = []
    · rw [if_pos hnil]
      rw [hbytes] at hnil
      rcases List.take_eq_nil_iff.mp hnil with hzero | hempty
      · omega
      · rw [hempty, List.take_nil]
    · rw [if_neg hnil, hbytes]
      rcases hrest with ⟨hzero, hle⟩ | ⟨hdata, hsz⟩
      · rw [upload_of_zero hzero, List.append_nil, List.take_of_length_le hle, List.take_of_length_le (by omega)]
      · rw [ih hrooms hsz, hdata, List.take_add]

/-! ## Answers -/

theorem writeData_download (chunks : List (List UInt8)) (ctx : Ctx) :
    (download chunks ctx).writeData = ctx.writeData ++ chunks.flatten := by
  induction chunks generalizing ctx with
  | nil => exact (List.append_nil _).symm
  | cons contents chunks ih =>
    rw [download, List.foldl_cons, ← download, ih, writeCb, List.flatten_cons, List.append_assoc]

/-- What a call returns, by itself. -/
def Transfer.ret (transfer : Transfer) : Ret :=
  if transfer.code = curleOk then { ret := 0, result := some (strndup transfer.chunks.flatten transfer.contentLength) }
  else if transfer.code = curleCouldntConnect then { ret := -transfer.errno, result := none }
  else { ret := -einval, result := none }

/-- A call that finds the context empty returns what it received, and leaves it empty. -/
theorem execCurl_of_empty {ctx : Ctx} (transfer : Transfer) (h : ctx.writeData = []) :
    (execCurl transfer ctx).1 = transfer.ret ∧ (execCurl transfer ctx).2.writeData = [] := by
  have hdata : (download transfer.chunks ctx).writeData = transfer.chunks.flatten := by
    rw [writeData_download, h, List.nil_append]
  unfold execCurl Transfer.ret
  refine ⟨?_, ?_⟩
  · dsimp only
    rw [hdata]
  · dsimp only
    split
    · rfl
    · rename_i hlen
      exact List.eq_nil_of_length_eq_zero (not_not.mp hlen)

theorem writeData_upload (rooms : List Nat) (ctx : Ctx) : (upload rooms ctx).2.writeData = ctx.writeData := by
  have hread : ∀ len (ctx : Ctx), (readCb len ctx).2.writeData = ctx.writeData := by
    intro len ctx
    unfold readCb
    split_ifs <;> rfl
  induction rooms generalizing ctx with
  | nil => rfl
  | cons room rooms ih =>
    rw [upload]
    dsimp only
    split
    · exact hread room ctx
    · rw [ih, hread]

/-- What a call uploads, by itself. -/
def Call.uploaded (transfer : Transfer) : Call → List UInt8
  | .execPut data => data.take transfer.rooms.sum
  | _ => []

theorem exec_of_empty {ctx : Ctx} (call : Call) (transfer : Transfer) (h : ctx.writeData = []) :
    (call.exec transfer ctx).1 = (call.uploaded transfer, transfer.ret) ∧ (call.exec transfer ctx).2.writeData = [] := by
  cases call with
  | execPut data =>
    have hempty : (upload transfer.rooms { ctx with readData := data, readSz := data.length }).2.writeData = [] := by
      rw [writeData_upload, h]
    obtain ⟨hret, hleft⟩ := execCurl_of_empty transfer hempty
    have hbytes := @upload_eq_take _ { ctx with readData := data, readSz := data.length } transfer.rooms_pos rfl
    simp only [Call.exec, Call.uploaded, hret, hbytes, hleft, and_self]
  | _ =>
    obtain ⟨hret, hleft⟩ := execCurl_of_empty transfer h
    simp only [Call.exec, Call.uploaded, hret, hleft, and_self]

theorem session_of_empty {ctx : Ctx} (calls : List (Call × Transfer)) (h : ctx.writeData = []) :
    session calls ctx = calls.map (fun call => (call.1.uploaded call.2, call.2.ret)) := by
  induction calls generalizing ctx with
  | nil => rfl
  | cons call calls ih =>
    obtain ⟨hret, hleft⟩ := exec_of_empty call.1 call.2 h
    rw [List.map_cons, ← ih hleft, ← hret]
    rfl

end NvmeDem.Curl
