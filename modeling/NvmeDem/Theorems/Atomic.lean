import NvmeDem.Lemmas.Effects

/-!
# A failed call leaves the store as it was

Every error exit of every store function comes before its first real update: what a failed call can leave behind is one empty
array in the place of an absent one.
-/

namespace NvmeDem

open Jansson

theorem failed_call_fills (J : JsonLib) (root root' : Json) (op : StoreOp) (ret : Int)
    (h : op.run J root = .ok (ret, root')) (hret : ret ≠ 0) : Json.Fills root root' := by
  rcases run_cases h with ⟨-, hfill⟩ | ⟨hz, -⟩
  · exact hfill
  · exact absurd hz hret

/-- An update of a host that is not there makes the array of hosts. -/
theorem failed_call_fills_unknown_host :
    Json.Fills emptyRoot (.object [(tagHosts, .array [])]) :=
  failed_call_fills ⟨fun _ => none⟩ emptyRoot _ (.updateHost (some "h") "x" ⟨"", ""⟩) (-2) rfl (by decide)

end NvmeDem
