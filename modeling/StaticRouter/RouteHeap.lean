import StaticRouter.Lib.Heap
import StaticRouter.LinkedList
import StaticRouter.RoutingTable

/-!
# The routing table in its blocks

`rtable.c` over the pointers of `include/list.h`: an entry is a block of the heap with a list node in it, and
`rtable` is the head that they hang on. Every access to a node goes through its block, so it faults once the
block has been freed. Against it stand the entries that the table is meant to hold.
-/

namespace StaticRouter

open CMem Rings

/-- A `struct list_head *`: the head, or the node in the block with an address. -/
abbrev NodePtr := Option Nat

/-- An entry with the node that it is linked by. -/
structure RtNode where
  next : NodePtr
  prev : NodePtr
  entry : RtEntry

/-- The blocks of the entries, and the pointers of the head. -/
structure RtStore where
  heap : Heap RtNode
  next : NodePtr
  prev : NodePtr

namespace RtStore

/-- `p->next` -/
def getNext (p : NodePtr) (s : RtStore) : Except Fault NodePtr :=
  match p with
  | none => .ok s.next
  | some a => do
    let n ← s.heap.load a
    return n.next

/-- `p->prev` -/
def getPrev (p : NodePtr) (s : RtStore) : Except Fault NodePtr :=
  match p with
  | none => .ok s.prev
  | some a => do
    let n ← s.heap.load a
    return n.prev

/-- `p->next = q` -/
def setNext (p q : NodePtr) (s : RtStore) : Except Fault RtStore :=
  match p with
  | none => .ok { s with next := q }
  | some a => do
    let n ← s.heap.load a
    let heap ← s.heap.store a { n with next := q }
    return { s with heap := heap }

/-- `p->prev = q` -/
def setPrev (p q : NodePtr) (s : RtStore) : Except Fault RtStore :=
  match p with
  | none => .ok { s with prev := q }
  | some a => do
    let n ← s.heap.load a
    let heap ← s.heap.store a { n with prev := q }
    return { s with heap := heap }

/-- `init_list_head`: the pointer on the left is written last. -/
def initListHead (list : NodePtr) (s : RtStore) : Except Fault RtStore := do
  let s ← setPrev list list s
  setNext list list s

/-- `list_insert` -/
def listInsert (new prev next : NodePtr) (s : RtStore) : Except Fault RtStore := do
  let s ← setPrev next new s
  let s ← setNext prev new s
  let s ← setNext new next s
  setPrev new prev s

/-- `list_add_tail` -/
def listAddTail (new head : NodePtr) (s : RtStore) : Except Fault RtStore := do
  let prev ← getPrev head s
  listInsert new prev head s

/-- `list_delete_entry` -/
def listDeleteEntry (entry : NodePtr) (s : RtStore) : Except Fault RtStore := do
  let next ← getNext entry s
  let prev ← getPrev entry s
  let s ← setPrev next prev s
  -- both pointers are read again
  let prev ← getPrev entry s
  let next ← getNext entry s
  setNext prev next s

/-- `free` of the block with the entry. -/
def freeEntry (entry : Nat) (s : RtStore) : Except Fault RtStore := do
  let heap ← s.heap.free entry
  return { s with heap := heap }

/-! ## The operations of the table -/

/-- `init_rtable`, run when no entry has been made. It overwrites what the head holds before, for which null
pointers stand here. -/
def initRtable : Except Fault RtStore := initListHead none ⟨.empty, none, none⟩

/-- `new_rt_entry`: a block for the entry, with a node that points at itself. -/
def newRtEntry (dest mask gw : UInt32) (iface : Iface) (s : RtStore) : Except Fault (Nat × RtStore) := do
  let entry := s.heap.malloc ⟨some s.heap.next, some s.heap.next, StaticRouter.newRtEntry dest mask gw iface⟩
  let s ← initListHead (some entry.1) { s with heap := entry.2 }
  return (entry.1, s)

/-- `add_rt_entry` -/
def addRtEntry (entry : Nat) (s : RtStore) : Except Fault RtStore := listAddTail (some entry) none s

/-- `remove_rt_entry` -/
def removeRtEntry (entry : Nat) (s : RtStore) : Except Fault RtStore := do
  let s ← listDeleteEntry (some entry) s
  freeEntry entry s

/-- `clear_rtable` -/
def clearRtable : Nat → RtStore → Except Fault RtStore
  | 0, s => if s.next = none then .ok s else .error .outOfFuel
  | fuel + 1, s =>
    match s.next with
    | none => .ok s
    | some tmp => do
      let s ← listDeleteEntry (some tmp) s
      let s ← freeEntry tmp s
      clearRtable fuel s

/-- The loop of `delete_list` from `p` on: the next pointer is saved, the block freed, and then the node in
it taken out of the list. -/
def deleteListFrom : Nat → NodePtr → RtStore → Except Fault RtStore
  | _, none, s => .ok s
  | 0, some _, _ => .error .outOfFuel
  | fuel + 1, some t, s => do
    let p ← getNext (some t) s
    let s ← freeEntry t s
    let s ← listDeleteEntry (some t) s
    deleteListFrom fuel p s

/-- `delete_list(&rtable, rt_entry_t, list)` -/
def deleteList (fuel : Nat) (s : RtStore) : Except Fault RtStore := deleteListFrom fuel s.next s

section ForEach

variable {γ : Type} (body : Nat → RtEntry → γ → γ) (s : RtStore)

/-- `list_for_each_entry` over the table from the node `pos` on, with a body that reads the entry. -/
def forEachEntryFrom : Nat → NodePtr → γ → Except Fault γ
  | _, none, r => .ok r
  | 0, some _, _ => .error .outOfFuel
  | fuel + 1, some ele, r => do
    let n ← s.heap.load ele
    forEachEntryFrom fuel n.next (body ele n.entry r)

/-- `list_for_each_entry(ele, &rtable, list)` -/
def forEachEntry (fuel : Nat) (r : γ) : Except Fault γ := forEachEntryFrom body s fuel s.next r

end ForEach

/-- The body of `longest_prefix_match`: the running maximum, and the entry that it is from. -/
def matchEntry (dst : UInt32) (ele : Nat) (e : RtEntry) (r : Int32 × Option Nat) : Int32 × Option Nat :=
  if e.dest &&& e.mask = dst &&& e.mask then
    if r.1.toUInt32 ≤ e.mask then (e.mask.toInt32, some ele) else r
  else r

/-- `longest_prefix_match`: the address of an entry. -/
def longestPrefixMatch (fuel : Nat) (dst : UInt32) (s : RtStore) : Except Fault (Option Nat) := do
  let r ← forEachEntry (matchEntry dst) s fuel (0, none)
  return r.2

/-- `print_rtable`: the entries whose lines it prints, in their order. -/
def printRtable (fuel : Nat) (s : RtStore) : Except Fault (List RtEntry) :=
  forEachEntry (fun _ e lines => lines ++ [e]) s fuel []

/-- What the block of an entry holds. -/
def entryAt (s : RtStore) (a : Nat) : Option RtEntry := (s.heap.get a).map (·.entry)

/-- The pointers of all nodes; a block that is not live is taken for a node that points at itself. -/
def links (s : RtStore) : Links NodePtr where
  next
    | none => s.next
    | some a => ((s.heap.get a).map (·.next)).getD (some a)
  prev
    | none => s.prev
    | some a => ((s.heap.get a).map (·.prev)).getD (some a)

end RtStore

/-! ## The entries that the table holds -/

/-- The entries on the table in their order, and those that have been made and not added, each with the
address that it is known by. -/
structure RtTable where
  linked : List (Nat × RtEntry)
  loose : List (Nat × RtEntry)
  made : Nat

inductive RtOp where
  | new (dest mask gw : UInt32) (iface : Iface)
  | add (entry : Nat)
  | remove (entry : Nat)
  | clear

namespace RtTable

/-- No entry has been made. -/
def init : RtTable := ⟨[], [], 0⟩

/-- The entries that exist. -/
def entries (T : RtTable) : List (Nat × RtEntry) := T.linked ++ T.loose

/-- What the operation means for the table. -/
def apply : RtOp → RtTable → RtTable
  | .new dest mask gw iface, T =>
    { T with loose := T.loose ++ [(T.made, StaticRouter.newRtEntry dest mask gw iface)], made := T.made + 1 }
  | .add entry, T =>
    { T with
      linked := T.linked ++ T.loose.filter (·.1 = entry)
      loose := T.loose.filter (·.1 ≠ entry) }
  | .remove entry, T =>
    { T with
      linked := T.linked.filter (·.1 ≠ entry)
      loose := T.loose.filter (·.1 ≠ entry) }
  | .clear, T => { T with linked := [] }

/-- The uses that the table allows: an entry is added once, and is not used after it was removed. -/
def Legal : RtOp → RtTable → Prop
  | .new .., _ => True
  | .add entry, T => entry ∈ T.loose.map (·.1)
  | .remove entry, T => entry ∈ T.entries.map (·.1)
  | .clear, _ => True

instance (op : RtOp) (T : RtTable) : Decidable (Legal op T) :=
  match op with
  | .new .. => isTrue trivial
  | .add entry => inferInstanceAs (Decidable (entry ∈ T.loose.map (·.1)))
  | .remove entry => inferInstanceAs (Decidable (entry ∈ T.entries.map (·.1)))
  | .clear => isTrue trivial

end RtTable

/-- What the operation does to the blocks. -/
def RtOp.exec (fuel : Nat) : RtOp → RtStore → Except Fault RtStore
  | .new dest mask gw iface, s => do
    let r ← s.newRtEntry dest mask gw iface
    return r.2
  | .add entry, s => s.addRtEntry entry
  | .remove entry, s => s.removeRtEntry entry
  | .clear, s => s.clearRtable fuel

/-- An operation, on the blocks and on the table. -/
def RtOp.Step (op : RtOp) (s s' : RtStore × RtTable) : Prop :=
  (∃ fuel, op.exec fuel s.1 = .ok s'.1) ∧ s'.2 = RtTable.apply op s.2

/-- The blocks and the table after `init_rtable` and operations as the table allows them. -/
abbrev RtRun : RtStore × RtTable → Prop :=
  Runs.RunOf (fun s => RtStore.initRtable = .ok s.1 ∧ s.2 = .init) RtOp.Step fun op s => RtTable.Legal op s.2

end StaticRouter
