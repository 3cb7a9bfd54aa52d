import NvmeDem.Lemmas.Local

/-!
# Requests on different targets

The calls that edit the parts of a target may be made in any order when their targets have different aliases.
-/

namespace NvmeDem

open Jansson

variable {J : JsonLib}

/-- Whichever of two calls on different targets is made first, both return what they return in the other order, and leave the
store that the other order leaves; if one of them does not return, neither order ends. -/
theorem requests_commute (opa opb : StoreOp) (a b : String) (ha : opa.onTarget = some a) (hb : opb.onTarget = some b)
    (hne : a ≠ b) (root root' : Json) (ra rb : Int) :
    (∃ rootA : Json, opa.run J root = .ok (ra, rootA) ∧ opb.run J rootA = .ok (rb, root')) ↔
      ∃ rootB : Json, opb.run J root = .ok (rb, rootB) ∧ opa.run J rootB = .ok (ra, root') := by
  have hview : ∀ (root : Json) (tgt : String) (t : Json),
      (targetPlaces.put root tgt t).objectGet tagHosts = root.objectGet tagHosts := by
    intro root tgt t
    show (putTargetEntry root tgt t).objectGet tagHosts = root.objectGet tagHosts
    unfold putTargetEntry
    split
    · rfl
    · exact Json.objectGet_objectSet_ne (by decide) root _
  have hcomm : Places.both (fun root => opa.run J root) (fun root => opb.run J root) root = .ok (ra, rb, root') ↔
      Places.both (fun root => opb.run J root) (fun root => opa.run J root) root = .ok (rb, ra, root') :=
    Places.both_comm (run_local ha) (run_local hb) hne hview
  rwa [Places.both_eq_ok, Places.both_eq_ok] at hcomm

/-- Two targets with a port each. -/
def twoTargets : Json :=
  .object [(tagTargets, .array
    [.object [(tagAlias, .string "t"), (tagPortids, .array [.object [(tagPortid, .integer 1)]]), (tagSubsystems, .array [])],
     .object [(tagAlias, .string "u"), (tagPortids, .array [.object [(tagPortid, .integer 1)]])]])]

/-- A subsystem is added to the one target, and the port of the other is deleted. -/
theorem requests_commute_two :
    ∃ rootB : Json,
      StoreOp.run (.ofTexts [("x", .object [(tagSubnqn, .string "n")])]) twoTargets (.delPortid "u" 1) = .ok (0, rootB) ∧
        StoreOp.run (.ofTexts [("x", .object [(tagSubnqn, .string "n")])]) rootB (.setSubsys "t" none "x" ⟨"", undefinedAccess⟩) =
          .ok (0, .object [(tagTargets, .array
            [.object [(tagAlias, .string "t"), (tagPortids, .array [.object [(tagPortid, .integer 1)]]),
              (tagSubsystems, .array [.object [(tagSubnqn, .string "n")]])],
             .object [(tagAlias, .string "u"), (tagPortids, .array [])]])]) :=
  (requests_commute (.setSubsys "t" none "x" ⟨"", undefinedAccess⟩) (.delPortid "u" 1) "t" "u" rfl rfl (by decide) twoTargets _ 0 0).mp
    ⟨_, rfl, rfl⟩

end NvmeDem
