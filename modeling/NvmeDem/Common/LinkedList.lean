import NvmeDem.Lib.Rings

/-!
# Linked lists

The lists of the daemons are rings of nodes, which are members of the records that are linked. Here a node stands for its record. An assignment
to a link changes that link only, and the functions are sequences of assignments, in the order of the source.

The loops over a list are followed for some turns. The body of the safe one may do anything to memory.
-/

namespace NvmeDem.LinkedList

open Rings

variable {α : Type} [DecidableEq α]

def setNext (m : Heap α) (a b : α) : Heap α := { m with next := Function.update m.next a b }
def setPrev (m : Heap α) (a b : α) : Heap α := { m with prev := Function.update m.prev a b }

/-- `INIT_LINKED_LIST` -/
def initLinkedList (m : Heap α) (ptr : α) : Heap α := setPrev (setNext m ptr ptr) ptr ptr

/-- `__list_add`: the entry comes between two nodes. -/
def listAddBetween (m : Heap α) (entry prev next : α) : Heap α :=
  let m := setPrev m next entry
  let m := setNext m entry next
  let m := setPrev m entry prev
  setNext m prev entry

def listAdd (m : Heap α) (entry list : α) : Heap α := listAddBetween m entry list (m.next list)

def listAddTail (m : Heap α) (entry list : α) : Heap α := listAddBetween m entry (m.prev list) list

def listDel (m : Heap α) (entry : α) : Heap α :=
  let m := setPrev m (m.next entry) (m.prev entry)
  setNext m (m.prev entry) (m.next entry)

def listEmpty (m : Heap α) (list : α) : Bool := m.next list = list

/-- `list_for_each_entry` with a body that changes no link: the entries that are visited. -/
def listForEachEntry (m : Heap α) (list : α) : Nat → α → Option (List α)
  | 0, _ => none
  | turns + 1, entry =>
    if entry = list then some [] else (listForEachEntry m list turns (m.next entry)).map (fun visited => entry :: visited)

/-- The turns of `list_for_each_entry_safe`: the entries that are visited, and memory at the end. -/
def safeTurns (body : α → Heap α → Heap α) (list : α) : Nat → α → α → Heap α → Option (List α × Heap α)
  | 0, _, _, _ => none
  | turns + 1, entry, tmp, m =>
    if entry = list then some ([], m)
    else
      let m := body entry m
      (safeTurns body list turns tmp (m.next tmp) m).map (fun r => (entry :: r.1, r.2))

def listForEachEntrySafe (body : α → Heap α → Heap α) (list : α) (turns : Nat) (m : Heap α) : Option (List α × Heap α) :=
  safeTurns body list turns (m.next list) (m.next (m.next list)) m

/-! ## What the functions do to the links -/

variable {m : Heap α} {e p n : α}

theorem inserted_listAddBetween (hp : e ≠ p) (hn : e ≠ n) : Inserted m (listAddBetween m e p n) p e n where
  front := by simp [Heap.Linked, listAddBetween, setNext, setPrev]
  behind := by simp [Heap.Linked, listAddBetween, setNext, setPrev, hp, hn.symm]
  next a hap hae := by simp [listAddBetween, setNext, setPrev, hap, hae]
  prev a han hae := by simp [listAddBetween, setNext, setPrev, han, hae]

theorem removed_listDel (hp : m.Linked p e) (hn : m.Linked e n) (hne : n ≠ e) : Removed m (listDel m e) p e n := by
  obtain ⟨-, hprev⟩ := hp
  obtain ⟨hnext, -⟩ := hn
  have hdel : listDel m e = setNext (setPrev m n p) p n := by
    simp [listDel, setNext, setPrev, hprev, hnext, hne.symm]
  rw [hdel]
  constructor
  · simp [Heap.Linked, setNext, setPrev]
  · intro a hap _
    simp [setNext, setPrev, hap]
  · intro a han _
    simp [setNext, setPrev, han]

end NvmeDem.LinkedList
