import NvmeDem.Lemmas.Records

/-!
# What an inventory leaves alone, and what marking does

The answer of a target to the question for its inventory changes two fields of its entry in the root, and the lists of devices
and interfaces of the target. Of a list with marks all that counts is which keys are marked, and what was added behind.
-/

namespace NvmeDem

open Jansson Keyed

/-! ## Lists with marks -/

section

variable {α κ : Type} {same : α → α → Bool} {key : α → κ}

theorem marked_unmarked (list : List α) : marked (unmarked list) = [] := by
  simp [marked, unmarked, List.filter_map, Function.comp_def]

theorem mem_keys_mark {p : α × Bool → Bool} {k k₀ : κ} (hp : ∀ y, p y = true ↔ key y.1 = k₀) {list : List (α × Bool)}
    (h : list.any p = true) :
    k ∈ (marked (modifyFirst p (fun y => (y.1, true)) list)).map key ↔ k = k₀ ∨ k ∈ (marked list).map key := by
  induction list with
  | nil => simp at h
  | cons y ys ih =>
    obtain ⟨x, mark⟩ := y
    by_cases hy : p (x, mark) = true
    · have hkey : key x = k₀ := (hp _).1 hy
      cases mark
      · simp [modifyFirst, marked, hy, hkey]
      · simp [modifyFirst, marked, hy, hkey]
    · have hys : ys.any p = true := by simpa [hy] using h
      have ih := ih hys
      simp only [marked] at ih
      cases mark
      · simpa [modifyFirst, marked, hy] using ih
      · simp only [modifyFirst, marked, hy, List.filter_cons_of_pos, List.map_cons, List.mem_cons, if_false,
          Bool.false_eq_true]
        rw [ih]
        tauto

theorem mem_keys_markOrAdd (hsame : ∀ x y, same x y = true ↔ key x = key y) (list : List (α × Bool)) (x : α) {k : κ} :
    k ∈ (marked (markOrAdd same list x)).map key ↔ k = key x ∨ k ∈ (marked list).map key := by
  unfold markOrAdd
  split
  · rename_i hany
    exact mem_keys_mark (fun y => hsame y.1 x) hany
  · simp only [marked, List.filter_append, List.map_append, List.mem_append]
    simp [or_comm]

theorem mem_keys_foldl (hsame : ∀ x y, same x y = true ↔ key x = key y) (xs : List α) (list : List (α × Bool)) {k : κ} :
    k ∈ (marked (xs.foldl (markOrAdd same) list)).map key ↔ k ∈ xs.map key ∨ k ∈ (marked list).map key := by
  induction xs generalizing list with
  | nil => simp
  | cons x xs ih =>
    rw [List.foldl_cons, ih, mem_keys_markOrAdd hsame, List.map_cons, List.mem_cons]
    tauto

/-- What was marked is what was reported, whatever the list held before. -/
theorem mem_keys_marked (hsame : ∀ x y, same x y = true ↔ key x = key y) (list xs : List α) {k : κ} :
    k ∈ (marked (xs.foldl (markOrAdd same) (unmarked list))).map key ↔ k ∈ xs.map key := by
  rw [mem_keys_foldl hsame, marked_unmarked]
  simp

variable [DecidableEq α]

theorem fst_markOrAdd (list : List (α × Bool)) (x : α) :
    (markOrAdd (fun x y => x == y) list x).map Prod.fst =
      if x ∈ list.map Prod.fst then list.map Prod.fst else list.map Prod.fst ++ [x] := by
  have hany : list.any (fun y => y.1 == x) = decide (x ∈ list.map Prod.fst) := by
    rw [Bool.eq_iff_iff, List.any_eq_true, decide_eq_true_iff, List.mem_map]
    exact exists_congr (fun y => and_congr_right (fun _ => beq_iff_eq))
  unfold markOrAdd
  rw [hany]
  by_cases hx : x ∈ list.map Prod.fst
  · rw [if_pos (decide_eq_true hx), if_pos hx]
    have hfst : ∀ y : α × Bool, (y.1, true).1 = y.1 := fun _ => rfl
    exact map_modifyFirst_same hfst list
  · rw [if_neg (by simpa using hx), if_neg hx, List.map_append]
    rfl

/-- What is new is added behind, in its order. -/
theorem fst_foldl_markOrAdd {xs : List α} (hn : xs.Nodup) (list : List (α × Bool)) :
    (xs.foldl (markOrAdd (fun x y => x == y)) list).map Prod.fst =
      list.map Prod.fst ++ xs.filter (fun x => x ∉ list.map Prod.fst) := by
  induction xs generalizing list with
  | nil => simp
  | cons x xs ih =>
    obtain ⟨hx, hn⟩ := List.nodup_cons.1 hn
    rw [List.foldl_cons, ih hn, fst_markOrAdd]
    by_cases hmem : x ∈ list.map Prod.fst
    · rw [if_pos hmem, List.filter_cons_of_neg (by simpa only [decide_eq_true_eq, not_not] using hmem)]
    · rw [if_neg hmem, List.filter_cons_of_pos (by simpa only [decide_eq_true_eq] using hmem), List.append_assoc]
      have hrest : xs.filter (fun y => y ∉ list.map Prod.fst ++ [x]) = xs.filter (fun y => y ∉ list.map Prod.fst) := by
        refine List.filter_congr (fun y hy => ?_)
        have hne : y ≠ x := fun heq => hx (heq ▸ hy)
        simp [hne]
      rw [hrest]
      rfl

end

/-! ## The entry of a target -/

/-- An entry before and after an inventory: the arrays of what the target reports may have changed. -/
def SameEntry (t t' : Json) : Prop := ∀ k, k ≠ tagNsdevs → k ≠ tagInterfaces → t'.objectGet k = t.objectGet k

theorem SameEntry.refl (t : Json) : SameEntry t t := fun _ _ _ => rfl

theorem SameEntry.objectSet {tag : String} (htag : tag = tagNsdevs ∨ tag = tagInterfaces) (t v : Json) :
    SameEntry t (t.objectSet tag v) := by
  intro k h₁ h₂
  refine Json.objectGet_objectSet_ne ?_ t v
  rcases htag with rfl | rfl
  · exact h₁
  · exact h₂

/-- A root before and after an inventory. -/
structure SameRoot (root root' : Json) : Prop where
  targets : List.Forall₂ SameEntry (root.entries tagTargets) (root'.entries tagTargets)
  others : ∀ k, k ≠ tagTargets → root'.objectGet k = root.objectGet k
  canPush : root'.canPush tagTargets = root.canPush tagTargets

namespace SameRoot

variable {root root' root'' : Json}

theorem refl (root : Json) : SameRoot root root :=
  ⟨List.forall₂_same.mpr (fun t _ => .refl t), fun _ _ => rfl, rfl⟩

theorem trans (h : SameRoot root root') (h' : SameRoot root' root'') : SameRoot root root'' := by
  refine ⟨?_, fun k hk => (h'.others k hk).trans (h.others k hk), h'.canPush.trans h.canPush⟩
  exact Keyed.forall₂_trans (fun _ _ _ ht ht' k h₁ h₂ => (ht' k h₁ h₂).trans (ht k h₁ h₂)) h.targets h'.targets

/-- An entry of the root that is given an array of what the target reports. -/
theorem putAt {i : Nat} {t v : Json} {tag : String} (htag : tag = tagNsdevs ∨ tag = tagInterfaces)
    (ht : (root.entries tagTargets)[i]? = some t) : SameRoot root (root.putAt tagTargets i (t.objectSet tag v)) := by
  refine ⟨?_, fun k hk => Json.objectGet_objectSet_ne hk root _, Json.canPush_putAt ..⟩
  rw [Json.entries_putAt]
  exact Keyed.forall₂_set .refl ht (.objectSet htag t v)

theorem hosts (h : SameRoot root root') : hostPairs root' = hostPairs root :=
  hostPairs_of_entries (by simp only [Json.entries, h.others tagHosts (by decide)])

theorem setTargetArray {name tag : String} {array : List Json} (htag : tag = tagNsdevs ∨ tag = tagInterfaces)
    (h : setTargetArray root name tag array = some root') : SameRoot root root' := by
  obtain ⟨i, hi, rfl⟩ := Option.map_eq_some_iff.mp h
  exact putAt htag (findArray_arrayOr_some hi).1

theorem setTargetArray_getD {tag : String} (htag : tag = tagNsdevs ∨ tag = tagInterfaces) (root : Json) (name : String)
    (array : List Json) : SameRoot root ((NvmeDem.setTargetArray root name tag array).getD root) := by
  cases h : NvmeDem.setTargetArray root name tag array with
  | none => exact .refl root
  | some root' => exact setTargetArray htag h

end SameRoot

/-- The root and the target before and after an inventory. -/
structure Reported (root : Json) (target : Target) (root' : Json) (target' : Target) : Prop where
  root : SameRoot root root'
  target : target' = { target with deviceList := target'.deviceList, fabricIfaceList := target'.fabricIfaceList }

namespace Reported

variable {J : JsonLib} {root root' root'' : Json} {target target' target'' : Target} {ret : Int}

theorem refl (root : Json) (target : Target) : Reported root target root target := ⟨.refl root, rfl⟩

theorem trans (h : Reported root target root' target') (h' : Reported root' target' root'' target'') :
    Reported root target root'' target'' := by
  refine ⟨h.root.trans h'.root, ?_⟩
  rw [h'.target, h.target]

theorem subsysList (h : Reported root target root' target') : target'.subsysList = target.subsysList := by
  rw [h.target]

theorem setJsonOobNsdevs {data : String} (h : setJsonOobNsdevs J root target data = .ok (ret, root', target')) :
    Reported root target root' target' := by
  unfold NvmeDem.setJsonOobNsdevs at h
  split at h
  · cases h
    exact .refl _ _
  · dsimp only at h
    split at h
    · cases h
    · rename_i hset
      split at h
      · cases h
        exact ⟨.setTargetArray (Or.inl rfl) hset, rfl⟩
      · cases h
        exact ⟨.setTargetArray (Or.inl rfl) hset, rfl⟩

theorem setJsonOobInterfaces {data : String} (h : setJsonOobInterfaces J root target data = .ok (ret, root', target')) :
    Reported root target root' target' := by
  unfold NvmeDem.setJsonOobInterfaces at h
  split at h
  · cases h
    exact .refl _ _
  · obtain ⟨ifaces, -, h⟩ := bind_eq_ok h
    split at h
    · cases h
    · rename_i hset
      cases h
      exact ⟨.setTargetArray (Or.inr rfl) hset, rfl⟩

theorem getOobConfig {inv : Inventory} (h : getOobConfig J inv root target = .ok (ret, root', target')) :
    Reported root target root' target' := by
  unfold NvmeDem.getOobConfig at h
  split at h
  · cases h
    exact .refl _ _
  · obtain ⟨⟨ret₁, root₁, target₁⟩, h₁, h⟩ := bind_eq_ok h
    have hdevs := setJsonOobNsdevs h₁
    dsimp only at h
    split at h
    · cases h
      exact hdevs
    · split at h
      · cases h
        exact hdevs
      · exact hdevs.trans (setJsonOobInterfaces h)

theorem getInbNsdevs (root : Json) (target : Target) (devs : List Nsdev) :
    Reported root target (getInbNsdevs root target devs).1 (getInbNsdevs root target devs).2 := by
  refine foldl_related (R := fun acc acc' : Json × Target => Reported acc.1 acc.2 acc'.1 acc'.2)
    (fun acc => .refl _ _) (fun _ _ _ => .trans) (fun acc dev _ => ?_) (root, target)
  unfold addInbNsdev
  split
  · exact .refl _ _
  · exact ⟨.setTargetArray_getD (Or.inl rfl) .., rfl⟩

theorem getInbConfig {inv : Inventory} (h : getInbConfig inv root target = (ret, root', target')) :
    Reported root target root' target' := by
  have hdevs := getInbNsdevs root target inv.inbNsdevs.2
  unfold NvmeDem.getInbConfig at h
  split at h
  · cases h
    exact .refl _ _
  · split at h
    · cases h
      exact .refl _ _
    · split at h
      · cases h
        exact .refl _ _
      · dsimp only at h
        split at h
        · cases h
          exact hdevs
        · split at h
          · cases h
            exact hdevs
          · cases h
            exact hdevs.trans ⟨.setTargetArray_getD (Or.inr rfl) .., rfl⟩

theorem getConfig {w : World} (h : getConfig J w root target = .ok (ret, root', target')) :
    Reported root target root' target' := by
  unfold NvmeDem.getConfig at h
  split at h
  · exact getInbConfig (Except.ok.inj h)
  · exact getOobConfig h
  · cases h
    exact .refl _ _

end Reported

end NvmeDem
