import Mathlib.Data.List.Dedup
import NvmeDem.Endpoint.Nvmet

/-!
# What the kernel keeps of its directories

No two nodes are at one place, what a node is in and what a link is to is there, and a subsystem that allows any host has no links to hosts
(`Wf`). Every call keeps that. Loops over what is in a directory come to taking away a list of places (`foldl_remove`).
-/

namespace NvmeDem.Nvmet

variable {k : Kernel} {t : Tree} {node x : Node} {p q : Place} {nqn name : String}

structure Wf (t : Tree) : Prop where
  nodup : (t.map Node.place).Nodup
  parent : ∀ node ∈ t, ∀ q, node.place.parent = some q → has t q = true
  target : ∀ node ∈ t, ∀ q, node.place.target = some q → has t q = true
  closed : ∀ nqn host, .subsys nqn true ∈ t → Node.allowed nqn host ∉ t

theorem wf_nil : Wf [] where
  nodup := List.nodup_nil
  parent := by simp
  target := by simp
  closed := by simp

/-! ## What is there -/

theorem has_iff : has t p = true ↔ ∃ node ∈ t, node.place = p := by simp [has]

theorem has_eq_false_iff : has t p = false ↔ ∀ node ∈ t, node.place ≠ p := by simp [has]

theorem has_of_mem (h : node ∈ t) : has t node.place = true := has_iff.mpr ⟨node, h, rfl⟩

theorem Wf.eq_of_place (h : Wf t) (hx : x ∈ t) (hn : node ∈ t) (he : x.place = node.place) : x = node :=
  List.inj_on_of_nodup_map h.nodup hx hn he

/-- A link and a host are nothing but their place. -/
theorem mem_of_has (h : has t p = true) (hnode : ∀ x : Node, x.place = p → x = node) : node ∈ t := by
  obtain ⟨x, hx, hp⟩ := has_iff.mp h
  rwa [← hnode x hp]

theorem has_allowed_iff {host : String} : has t (.allowed nqn host) = true ↔ Node.allowed nqn host ∈ t := by
  refine ⟨fun h => mem_of_has h (fun x hx => ?_), fun h => has_of_mem h⟩
  cases x <;> cases hx
  rfl

theorem has_host_iff {host : String} : has t (.host host) = true ↔ Node.host host ∈ t := by
  refine ⟨fun h => mem_of_has h (fun x hx => ?_), fun h => has_of_mem h⟩
  cases x <;> cases hx
  rfl

theorem has_portLink_iff : has t (.portLink name nqn) = true ↔ Node.portLink name nqn ∈ t := by
  refine ⟨fun h => mem_of_has h (fun x hx => ?_), fun h => has_of_mem h⟩
  cases x <;> cases hx
  rfl

theorem has_subsys_iff : has t (.subsys nqn) = true ↔ ∃ allowAny, Node.subsys nqn allowAny ∈ t := by
  rw [has_iff]
  constructor
  · rintro ⟨x, hx, hp⟩
    cases x <;> cases hp
    exact ⟨_, hx⟩
  · rintro ⟨allowAny, h⟩
    exact ⟨_, h, rfl⟩

theorem has_ns_iff : has t (.ns nqn name) = true ↔ ∃ path enable, Node.ns nqn name path enable ∈ t := by
  rw [has_iff]
  constructor
  · rintro ⟨x, hx, hp⟩
    cases x <;> cases hp
    exact ⟨_, _, hx⟩
  · rintro ⟨path, enable, h⟩
    exact ⟨_, h, rfl⟩

theorem has_port_iff : has t (.port name) = true ↔ ∃ attrs, Node.port name attrs ∈ t := by
  rw [has_iff]
  constructor
  · rintro ⟨x, hx, hp⟩
    cases x <;> cases hp
    exact ⟨_, hx⟩
  · rintro ⟨attrs, h⟩
    exact ⟨_, h, rfl⟩

/-- Of a subsystem it is known whether it allows any host. -/
theorem Wf.subsys_unique (h : Wf t) {a b : Bool} (ha : .subsys nqn a ∈ t) (hb : Node.subsys nqn b ∈ t) : a = b := by
  have := h.eq_of_place ha hb rfl
  simpa using this

/-! ## Taking away -/

theorem mem_remove : x ∈ remove t p ↔ x ∈ t ∧ x.place ≠ p := by simp [remove]

theorem has_remove : has (remove t p) q = true ↔ has t q = true ∧ q ≠ p := by
  simp only [has_iff, mem_remove]
  constructor
  · rintro ⟨x, ⟨hx, hne⟩, rfl⟩
    exact ⟨⟨x, hx, rfl⟩, hne⟩
  · rintro ⟨⟨x, hx, rfl⟩, hne⟩
    exact ⟨x, ⟨hx, hne⟩, rfl⟩

theorem remove_of_not_has (h : has t p = false) : remove t p = t := by
  refine List.filter_eq_self.mpr (fun x hx => ?_)
  simpa using has_eq_false_iff.mp h x hx

theorem foldl_remove (places : List Place) (t : Tree) :
    places.foldl remove t = t.filter (fun node => decide (node.place ∉ places)) := by
  induction places generalizing t with
  | nil => simp
  | cons p places ih =>
    rw [List.foldl_cons, ih, remove, List.filter_filter]
    refine List.filter_congr (fun x _ => ?_)
    by_cases hx : x.place = p <;> simp [hx]

theorem mem_foldl_remove {places : List Place} : x ∈ places.foldl remove t ↔ x ∈ t ∧ x.place ∉ places := by
  simp [foldl_remove]

theorem unlink_snd (t : Tree) (p : Place) : (unlink t p).2 = remove t p := by
  unfold unlink
  by_cases h : has t p = true
  · rw [if_pos h]
  · rw [if_neg h, remove_of_not_has (Bool.eq_false_iff.mpr h)]

theorem foldl_unlink (place : String → Place) (names : List String) (t : Tree) :
    names.foldl (fun t name => (unlink t (place name)).2) t = (names.map place).foldl remove t := by
  rw [List.foldl_map]
  exact congrArg (fun f => names.foldl f t) (funext fun t => funext fun name => unlink_snd t (place name))

/-- A directory with nothing in it and no link to it goes. -/
theorem rmdir_of_free (h : ∀ node ∈ t, node.place.holds p = false) : (rmdir t p).2 = remove t p := by
  unfold rmdir
  by_cases hhas : has t p = true
  · have hany : t.any (fun node => node.place.holds p) = false := by simpa using h
    rw [if_neg (by rw [hhas]; simp), hany]
    rfl
  · have hfalse := Bool.eq_false_iff.mpr hhas
    rw [hfalse, remove_of_not_has hfalse]
    rfl

theorem holds_ns (p : Place) : p.holds (.ns nqn name) = false := by cases p <;> rfl

/-- Links are not held by anything. -/
theorem Place.holds_link {p : Place} (q : Place) (hp : p.target ≠ none) : q.holds p = false := by
  cases p <;> simp_all [Place.target] <;> cases q <;> rfl

/-! ## Changing what is at a place -/

theorem mem_update {f : Node → Node} : x ∈ update t p f ↔ (∃ y ∈ t, y.place = p ∧ f y = x) ∨ (x ∈ t ∧ x.place ≠ p) := by
  unfold update
  rw [List.mem_map]
  constructor
  · rintro ⟨y, hy, he⟩
    by_cases hp : y.place = p
    · rw [if_pos hp] at he
      exact Or.inl ⟨y, hy, hp, he⟩
    · rw [if_neg hp] at he
      subst he
      exact Or.inr ⟨hy, hp⟩
  · rintro (⟨y, hy, hp, he⟩ | ⟨hx, hp⟩)
    · exact ⟨y, hy, by rw [if_pos hp]; exact he⟩
    · exact ⟨x, hx, by rw [if_neg hp]⟩

section

variable {f : Node → Node} (hf : ∀ y : Node, y.place = p → (f y).place = p)

include hf

theorem map_place_update : (update t p f).map Node.place = t.map Node.place := by
  unfold update
  rw [List.map_map]
  refine List.map_congr_left (fun y _ => ?_)
  show Node.place (if y.place = p then f y else y) = y.place
  by_cases hp : y.place = p
  · rw [if_pos hp, hf y hp, hp]
  · rw [if_neg hp]

theorem has_update (q : Place) : has (update t p f) q = has t q := by
  have hany : ∀ t : Tree, has t q = (t.map Node.place).contains q := by
    intro t
    rw [Bool.eq_iff_iff, has_iff, List.contains_iff_mem, List.mem_map]
  rw [hany, hany, map_place_update hf]

theorem update_update (g : Node → Node) : update (update t p f) p g = update t p (fun y => g (f y)) := by
  unfold update
  rw [List.map_map]
  refine List.map_congr_left (fun y _ => ?_)
  show (if (if y.place = p then f y else y).place = p then g (if y.place = p then f y else y) else if y.place = p then f y else y) = _
  by_cases hp : y.place = p
  · rw [if_pos hp, if_pos (hf y hp), if_pos hp]
  · rw [if_neg hp, if_neg hp, if_neg hp]

theorem remove_update : remove (update t p f) p = remove t p := by
  unfold remove update
  induction t with
  | nil => rfl
  | cons y t ih =>
    rw [List.map_cons]
    by_cases hp : y.place = p
    · rw [if_pos hp, List.filter_cons_of_neg (by simp [hf y hp]), List.filter_cons_of_neg (by simp [hp]), ih]
    · rw [if_neg hp, List.filter_cons_of_pos (by simpa using hp), List.filter_cons_of_pos (by simpa using hp), ih]

end

theorem place_writePath (path : String) (y : Node) : (y.writePath k path).place = y.place := by
  cases y with
  | ns _ _ _ enable => cases enable <;> rfl
  | _ => rfl

theorem place_writeEnable (enable : Bool) (y : Node) : (y.writeEnable k enable).place = y.place := by cases y <;> rfl

theorem place_writePort (attr : PortAttr) (value : String) (y : Node) : (y.writePort attr value).place = y.place := by
  cases y <;> rfl

/-- A namespace that was put out of use goes. -/
theorem rmdir_writeEnable (enable : Bool) :
    (rmdir (writeEnable k t nqn name enable) (.ns nqn name)).2 = remove t (.ns nqn name) := by
  rw [rmdir_of_free (fun node _ => holds_ns node.place)]
  exact remove_update (fun y hy => (place_writeEnable enable y).trans hy)

/-! ## Every call keeps the directories in order -/

theorem Wf.remove (h : Wf t) (hfree : ∀ node ∈ t, node.place.holds p = false) : Wf (remove t p) where
  nodup := h.nodup.sublist (List.filter_sublist.map _)
  parent := by
    intro node hm q hq
    have hin := (mem_remove.mp hm).1
    refine has_remove.mpr ⟨h.parent node hin q hq, ?_⟩
    rintro rfl
    simpa [Place.holds, hq] using hfree node hin
  target := by
    intro node hm q hq
    have hin := (mem_remove.mp hm).1
    refine has_remove.mpr ⟨h.target node hin q hq, ?_⟩
    rintro rfl
    simpa [Place.holds, hq] using hfree node hin
  closed := fun nqn host hm hl => h.closed nqn host (mem_remove.mp hm).1 (mem_remove.mp hl).1

theorem Wf.rmdir (h : Wf t) (p : Place) : Wf (rmdir t p).2 := by
  unfold Nvmet.rmdir
  split
  · exact h
  · split
    · exact h
    · rename_i hfree
      exact h.remove (by simpa using hfree)

theorem Wf.unlink (h : Wf t) (hp : p.target ≠ none) : Wf (unlink t p).2 := by
  rw [unlink_snd]
  exact h.remove (fun node _ => Place.holds_link node.place hp)

theorem Wf.append (h : Wf t) (hnew : has t node.place = false) (hparent : ∀ q, node.place.parent = some q → has t q = true)
    (htarget : ∀ q, node.place.target = some q → has t q = true) (hopen : ∀ nqn, node ≠ .subsys nqn true)
    (hclosed : ∀ nqn host, node = .allowed nqn host → Node.subsys nqn true ∉ t) : Wf (t ++ [node]) := by
  have hhas : ∀ q, has t q = true → has (t ++ [node]) q = true := by
    intro q hq
    obtain ⟨x, hx, hp⟩ := has_iff.mp hq
    exact has_iff.mpr ⟨x, List.mem_append_left _ hx, hp⟩
  refine ⟨?_, ?_, ?_, ?_⟩
  · rw [List.map_append, List.nodup_append]
    refine ⟨h.nodup, by simp, fun a ha b hb => ?_⟩
    obtain ⟨x, hx, rfl⟩ := List.mem_map.mp ha
    obtain rfl := List.mem_singleton.mp hb
    exact has_eq_false_iff.mp hnew x hx
  · intro x hx q hq
    rcases List.mem_append.mp hx with hx | hx
    · exact hhas q (h.parent x hx q hq)
    · obtain rfl := List.mem_singleton.mp hx
      exact hhas q (hparent q hq)
  · intro x hx q hq
    rcases List.mem_append.mp hx with hx | hx
    · exact hhas q (h.target x hx q hq)
    · obtain rfl := List.mem_singleton.mp hx
      exact hhas q (htarget q hq)
  · intro nqn host hm hl
    have hm : Node.subsys nqn true ∈ t := by
      rcases List.mem_append.mp hm with hm | hm
      · exact hm
      · exact absurd (List.mem_singleton.mp hm).symm (hopen nqn)
    rcases List.mem_append.mp hl with hl | hl
    · exact h.closed nqn host hm hl
    · exact hclosed nqn host (List.mem_singleton.mp hl).symm hm

/-- A new directory has no link in it yet, and allows no host that it does not name. -/
theorem Wf.mkdir (h : Wf t) (hdir : node.place.target = none) (hopen : ∀ nqn, node ≠ .subsys nqn true) :
    Wf (mkdir k t node).2 := by
  unfold Nvmet.mkdir
  split
  · exact h
  · rename_i hparent
    split
    · exact h
    · rename_i hnew
      split
      · refine h.append (by simpa using hnew) (fun q hq => ?_) (fun q hq => ?_) hopen (fun nqn host he => ?_)
        · simpa [hq] using hparent
        · rw [hdir] at hq
          cases hq
        · subst he
          cases hdir
      · exact h

theorem Wf.symlink (h : Wf t) (hlink : node.place.target ≠ none) : Wf (symlink k t node).2 := by
  unfold Nvmet.symlink
  split
  · exact h
  · rename_i hparent
    split
    · exact h
    · rename_i hnew
      split
      · exact h
      · rename_i htarget
        split
        · exact h
        · rename_i hclosed
          refine h.append (by simpa using hnew) (fun q hq => ?_) (fun q hq => ?_) (fun nqn he => ?_) (fun nqn host he => ?_)
          · simpa [hq] using hparent
          · simpa [hq] using htarget
          · subst he
            exact hlink rfl
          · subst he
            intro hm
            refine hclosed ?_
            simp [allowsAny, Node.place, hm]

/-- What is at a place may change as long as no subsystem with links comes to allow any host. -/
theorem Wf.update (h : Wf t) {f : Node → Node} (hf : ∀ y : Node, y.place = p → (f y).place = p)
    (hclosed : ∀ nqn host, p = .subsys nqn → Node.allowed nqn host ∈ t → ∀ y ∈ t, f y ≠ .subsys nqn true) : Wf (update t p f) := by
  have hplace : ∀ x ∈ Nvmet.update t p f, ∃ y ∈ t, y.place = x.place := by
    intro x hx
    rcases mem_update.mp hx with ⟨y, hy, hp, rfl⟩ | ⟨hx, -⟩
    · exact ⟨y, hy, hp.trans (hf y hp).symm⟩
    · exact ⟨x, hx, rfl⟩
  refine ⟨?_, ?_, ?_, ?_⟩
  · rw [map_place_update hf]
    exact h.nodup
  · intro x hx q hq
    obtain ⟨y, hy, he⟩ := hplace x hx
    rw [has_update hf]
    exact h.parent y hy q (by rw [he, hq])
  · intro x hx q hq
    obtain ⟨y, hy, he⟩ := hplace x hx
    rw [has_update hf]
    exact h.target y hy q (by rw [he, hq])
  · intro nqn host hm hl
    have hl : Node.allowed nqn host ∈ t := by
      obtain ⟨y, hy, he⟩ := hplace _ hl
      exact has_allowed_iff.mp (has_iff.mpr ⟨y, hy, he⟩)
    rcases mem_update.mp hm with ⟨y, hy, hp, he⟩ | ⟨hm, -⟩
    · have hpl := hf y hp
      rw [he] at hpl
      exact hclosed nqn host hpl.symm hl y hy he
    · exact h.closed nqn host hm hl

theorem Wf.writeAllowAny (h : Wf t) (nqn : String) (allowAny : Bool) : Wf (writeAllowAny t nqn allowAny) := by
  unfold Nvmet.writeAllowAny
  split
  · exact h
  · rename_i hno
    refine h.update (fun _ _ => rfl) (fun nqn' host hp hl y _ he => hno ?_)
    cases hp
    cases he
    simp only [Bool.true_and, List.any_eq_true]
    exact ⟨_, hl, by simp [Node.allowedOf]⟩

theorem Wf.writePath (h : Wf t) (nqn name path : String) : Wf (writePath k t nqn name path) :=
  h.update (fun y hy => (place_writePath path y).trans hy) (fun _ _ hp => by cases hp)

theorem Wf.writeEnable (h : Wf t) (nqn name : String) (enable : Bool) : Wf (writeEnable k t nqn name enable) :=
  h.update (fun y hy => (place_writeEnable enable y).trans hy) (fun _ _ hp => by cases hp)

theorem Wf.writePort (h : Wf t) (name : String) (attr : PortAttr) (value : String) : Wf (writePort k t name attr value) := by
  unfold Nvmet.writePort
  split
  · exact h.update (fun y hy => (place_writePort attr value y).trans hy) (fun _ _ hp => by cases hp)
  · exact h

theorem Wf.foldl {α : Type} {f : Tree → α → Tree} (h : Wf t) (hf : ∀ t a, Wf t → Wf (f t a)) (as : List α) : Wf (as.foldl f t) :=
  List.foldlRecOn as f h (fun t ht a _ => hf t a ht)

end NvmeDem.Nvmet
