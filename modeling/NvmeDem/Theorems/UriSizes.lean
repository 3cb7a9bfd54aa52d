import NvmeDem.Dem.UriTexts
import NvmeDem.Theorems.Listing

/-!
# Whether the URIs of a manager fit their arrays

A URI fits when the lengths of its parts do not add up to more than an array has. The address and the port leave room for the identifier of
a port, but not for every NQN: the array has 128 bytes, an NQN up to 256.
-/

namespace NvmeDem

namespace Push

open Buffer

/-- The number of characters of a number as it is written. -/
def digits (n : Int) : Nat := (toString n).length

/-- How many characters are written behind the address and the port, by their parts. -/
def OobSender.pathLength : OobSender → Nat
  | .getConfig tag => tag.length
  | .setPortid portid => 7 + digits portid
  | .setConfig tag => tag.length
  | .updateSubsys subsys tag => 11 + subsys.length + tag.length
  | .linkHost subnqn => 15 + subnqn.length
  | .unlinkHost subnqn hostnqn => 16 + subnqn.length + hostnqn.length
  | .delHost hostnqn => 5 + hostnqn.length
  | .unlinkPortid subnqn portid => 18 + subnqn.length + digits portid
  | .delSubsys subnqn => 10 + subnqn.length
  | .delPortid portid => 7 + digits portid
  | .setNs subnqn nsid => 21 + subnqn.length + digits nsid
  | .delNs subnqn nsid => 21 + subnqn.length + digits nsid
  | .delTarget => 6

theorem toString_string (s : String) : toString s = s := rfl

theorem length_segments : "/".length = 1 ∧ uriConfig.length = 6 ∧ uriSubsystem.length = 9 ∧ uriPortid.length = 6 ∧
    uriHost.length = 4 ∧ uriNamespace.length = 9 := by decide

theorem length_getUri (target : Target) : (getUri target).length = 9 + target.oob.address.length + digits target.oob.port := by
  have hscheme : "http://".length = 7 := rfl
  have hcolon : ":".length = 1 := rfl
  unfold getUri digits
  simp only [String.length_append, toString_string, hscheme, hcolon, length_segments.1]
  omega

/-- The longest text that is written at the place behind the address and the port is as long as its parts say. -/
theorem length_paths (sender : OobSender) (n : Nat) : (∀ path ∈ sender.paths, path.length ≤ n) ↔ sender.pathLength ≤ n := by
  obtain ⟨hslash, hconfig, hsubsystem, hportid, hhost, hnamespace⟩ := length_segments
  cases sender <;>
    simp only [OobSender.paths, OobSender.pathLength, List.forall_mem_cons, List.not_mem_nil, false_imp_iff, implies_true, and_true,
      String.length_append, toString_string, digits, hslash, hconfig, hsubsystem, hportid, hhost, hnamespace] <;> omega

theorem overwrite_isSome_iff {p : Nat} {paths : List String} {uri : Block Char} :
    (overwrite p paths uri).isSome = true ↔ ∀ path ∈ paths, p + path.length < uri.size := by
  induction paths generalizing uri with
  | nil => simp [overwrite]
  | cons path paths ih =>
    rw [overwrite, List.forall_mem_cons]
    by_cases hfit : p + path.length < uri.size
    · have hwritten : p + written [path] < uri.size := by simpa using hfit
      obtain ⟨uri', hsome, hsize⟩ := exists_sprintfs (List.cons_ne_nil path []) hwritten
      rw [hsome, and_iff_right hfit, ← hsize]
      exact ih
    · have hnone : sprintfs [path] p uri = none := by
        rw [← Option.not_isSome_iff_eq_none, sprintfs_isSome_iff (List.cons_ne_nil path [])]
        simpa using hfit
      rw [hnone]
      exact iff_of_false (by simp) (fun h => hfit h.1)

theorem OobSender.paths_ne_nil (sender : OobSender) : sender.paths ≠ [] := by
  cases sender <;> exact List.cons_ne_nil _ _

/-- What is sent for a message is as long as what its function writes at most. -/
theorem length_oob_path (msg : Message) : msg.oob.path.length = msg.sender.pathLength := by
  obtain ⟨hslash, hconfig, hsubsystem, hportid, hhost, hnamespace⟩ := length_segments
  cases msg <;>
    simp only [Message.oob, OobRequest.path, Message.sender, OobSender.pathLength, String.length_append, toString_string, digits,
      hslash, hconfig, hsubsystem, hportid, hhost, hnamespace] <;> omega

/-- A function stays in its array when each text that it writes behind the address and the port does. -/
theorem write_isSome_iff {sender : OobSender} {target : Target} {content : Nat → Char} :
    (sender.write target (uriArray content)).isSome = true ↔
      ∀ path ∈ sender.paths, (getUri target).length + path.length < maxUriSize := by
  obtain ⟨path, hpath⟩ := List.exists_mem_of_ne_nil _ sender.paths_ne_nil
  unfold OobSender.write writeGetUri
  by_cases hfit : (getUri target).length < maxUriSize
  · have hwritten : 0 + written [getUri target] < (uriArray content).size := by simpa [uriArray] using hfit
    obtain ⟨uri, hsome, hsize⟩ := exists_sprintfs (List.cons_ne_nil (getUri target) []) hwritten
    have hplace : 0 + written [getUri target] = (getUri target).length := by simp
    rw [hsome]
    show (overwrite (0 + written [getUri target]) sender.paths uri).isSome = true ↔ _
    rw [overwrite_isSome_iff, hsize, hplace]
    rfl
  · have hnone : sprintfs [getUri target] 0 (uriArray content) = none := by
      rw [← Option.not_isSome_iff_eq_none, sprintfs_isSome_iff (List.cons_ne_nil _ [])]
      simpa [uriArray] using hfit
    rw [hnone]
    exact iff_of_false (by simp) (fun h => hfit (Nat.lt_of_le_of_lt (Nat.le_add_right _ _) (h path hpath)))

/-- A URI that is written as a whole fits when the array of its function does. -/
theorem uriTo_iff_pathLength (target : Target) (msg : Message) :
    uriTo target msg.oob.path ≠ .error .outOfBounds ↔
      9 + target.oob.address.length + digits target.oob.port + msg.sender.pathLength < maxUriSize := by
  unfold uriTo
  rw [String.length_append, length_getUri, length_oob_path]
  split
  · exact iff_of_true nofun (by assumption)
  · exact iff_of_false (fun h => h rfl) (by assumption)

/-! ## An NQN that is too long -/

/-- An NQN of as many bytes. -/
def longNqn (n : Nat) : String := String.ofList (List.replicate n 'n')

theorem length_longNqn (n : Nat) : (longNqn n).length = n := by
  rw [longNqn, String.length_ofList, List.length_replicate]

def managerTarget : Target :=
  { ptr := 0, name := "t", mgmtMode := .outOfBandMgmt, oob := { address := "192.168.0.1", port := 22345 } }

/-- A subsystem whose NQN has as many bytes as the array cannot be deleted. -/
theorem delSubsys_overflow {nqn : String} (target : Target) (content : Nat → Char) (h : maxUriSize ≤ nqn.length) :
    (OobSender.delSubsys nqn).write target (uriArray content) = none := by
  rw [← Option.not_isSome_iff_eq_none, write_isSome_iff]
  intro hfit
  have hle := (length_paths (.delSubsys nqn) maxUriSize).mp (fun path hpath => by have := hfit path hpath; omega)
  simp only [OobSender.pathLength] at hle
  omega

theorem longNqn_overflow : (longNqn 200).length ≤ 256 ∧ managerTarget.oob.address.length ≤ 40 ∧
    (OobSender.delSubsys (longNqn 200)).write managerTarget (uriArray (fun _ => nul)) = none := by
  refine ⟨?_, by decide, delSubsys_overflow managerTarget (fun _ => nul) ?_⟩
  · rw [length_longNqn]
    decide
  · rw [length_longNqn]
    decide

/-- What each of the functions writes into its array, with the terminator, is inside of it exactly when the lengths of its parts leave a
byte. -/
theorem oob_uri_fits_iff (sender : OobSender) (target : Target) (content : Nat → Char) :
    (sender.write target (uriArray content)).isSome = true ↔
      9 + target.oob.address.length + digits target.oob.port + sender.pathLength < maxUriSize := by
  have hbase := length_getUri target
  have hpaths := length_paths sender (maxUriSize - 1 - (getUri target).length)
  obtain ⟨path, hpath⟩ := List.exists_mem_of_ne_nil _ sender.paths_ne_nil
  rw [write_isSome_iff]
  constructor
  · intro h
    have hone := h path hpath
    have hle := hpaths.mp (fun path hpath => by have := h path hpath; omega)
    omega
  · intro h path hpath
    have hle := hpaths.mpr (by omega) path hpath
    omega

end Push

end NvmeDem
