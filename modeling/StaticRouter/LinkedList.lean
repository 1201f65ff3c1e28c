import Mathlib.Data.Fintype.Basic
import StaticRouter.Lib.Buffer
import StaticRouter.Lib.Rings
import StaticRouter.Lib.Runs

/-!
# Intrusive lists

The lists of `include/list.h`: a node is a pair of pointers inside the entry that it links, and a head is a
node of its own. Against them stand the sequences that they are meant to hold, one for each head.
-/

namespace StaticRouter

open CMem Rings

section Heap

variable {α : Type} [DecidableEq α]

/-- `p->next = q` -/
def setNext (p q : α) (h : Links α) : Links α := { h with next := Function.update h.next p q }

/-- `p->prev = q` -/
def setPrev (p q : α) (h : Links α) : Links α := { h with prev := Function.update h.prev p q }

/-- `init_list_head` -/
def initListHead (list : α) (h : Links α) : Links α := setNext list list (setPrev list list h)

/-- `list_insert`: the four writes in the order of the source. -/
def listInsert (new prev next : α) (h : Links α) : Links α :=
  let h := setPrev next new h
  let h := setNext prev new h
  let h := setNext new next h
  setPrev new prev h

/-- `list_add_head` -/
def listAddHead (new head : α) (h : Links α) : Links α := listInsert new head (h.next head) h

/-- `list_add_tail` -/
def listAddTail (new head : α) (h : Links α) : Links α := listInsert new (h.prev head) head h

/-- `list_delete_entry`: the second statement reads what the first has written. -/
def listDeleteEntry (entry : α) (h : Links α) : Links α :=
  let h := setPrev (h.next entry) (h.prev entry) h
  setNext (h.prev entry) (h.next entry) h

/-! ## Loops over a list -/

/-- `list_for_each_entry` from the node `pos` on: the nodes that the body is run for. -/
def listForEachFrom (head : α) (h : Links α) : Nat → α → Except Fault (List α)
  | 0, pos => if pos = head then .ok [] else .error .outOfFuel
  | fuel + 1, pos =>
    if pos = head then .ok [] else do
      let rest ← listForEachFrom head h fuel (h.next pos)
      return pos :: rest

/-- `list_for_each_entry` -/
def listForEach (fuel : Nat) (head : α) (h : Links α) : Except Fault (List α) :=
  listForEachFrom head h fuel (h.next head)

section Safe

variable {σ : Type} (links : σ → Links α) (body : α → σ → Except Fault σ)

/-- `list_for_each_entry_safe` from the node `pos` on, with `q` saved before the body runs for `pos`. -/
def listForEachSafeFrom (head : α) : Nat → α → α → σ → Except Fault σ
  | 0, pos, _, s => if pos = head then .ok s else .error .outOfFuel
  | fuel + 1, pos, q, s =>
    if pos = head then .ok s else do
      let s ← body pos s
      listForEachSafeFrom head fuel q ((links s).next q) s

/-- `list_for_each_entry_safe` -/
def listForEachSafe (fuel : Nat) (head : α) (s : σ) : Except Fault σ :=
  let pos := (links s).next head
  listForEachSafeFrom links body head fuel pos ((links s).next pos) s

end Safe

/-- The pointers together with the nodes that a body has been run for. -/
structure Walk (α : Type) where
  links : Links α
  visited : List α

/-- A loop body that works on the pointers. -/
def Walk.visit (body : α → Links α → Links α) (pos : α) (s : Walk α) : Except Fault (Walk α) :=
  .ok ⟨body pos s.links, s.visited ++ [pos]⟩

/-- A body that deletes the current node. What it leaves in that node, which it may also free, is open. -/
def DeletesCurrent (body : α → Links α → Links α) : Prop :=
  ∀ pos h x, x ≠ pos → (body pos h).next x = (listDeleteEntry pos h).next x ∧
    (body pos h).prev x = (listDeleteEntry pos h).prev x

end Heap

/-! ## The sequences -/

section Sequences

variable {α : Type} [DecidableEq α]

/-- What each list holds; a node that is no list head has no list. -/
abbrev Lists (α : Type) : Type := α → Option (List α)

/-- No list holds the node. -/
def Lists.Free (S : Lists α) (x : α) : Prop := ∀ b xs, S b = some xs → x ∉ xs

instance [Fintype α] (S : Lists α) (x : α) : Decidable (S.Free x) :=
  inferInstanceAs (Decidable (∀ b, ∀ xs ∈ S b, x ∉ xs))

inductive ListOp (α : Type) where
  | init (list : α)
  | addHead (new head : α)
  | addTail (new head : α)
  | delete (entry : α)

namespace ListOp

/-- What the operation does to the pointers. -/
def exec : ListOp α → Links α → Links α
  | .init list => initListHead list
  | .addHead new head => listAddHead new head
  | .addTail new head => listAddTail new head
  | .delete entry => listDeleteEntry entry

/-- What the operation means for the sequences. A node that is added stops being a list head. -/
def apply : ListOp α → Lists α → Lists α
  | .init list, S => Function.update S list (some [])
  | .addHead new head, S => Function.update (Function.update S new none) head ((S head).map (new :: ·))
  | .addTail new head, S => Function.update (Function.update S new none) head ((S head).map (· ++ [new]))
  | .delete entry, S => fun b => (S b).map (·.erase entry)

/-- A node can be added to the list of `head`: it is on no list, nor the head of one that holds a node. -/
def CanAdd (S : Lists α) (new head : α) : Prop :=
  new ≠ head ∧ (∃ xs, S head = some xs) ∧ S.Free new ∧ (S new = none ∨ S new = some [])

instance [Fintype α] (S : Lists α) (new head : α) : Decidable (CanAdd S new head) :=
  have : Decidable (∃ xs, S head = some xs) := decidable_of_iff _ Option.isSome_iff_exists
  inferInstanceAs (Decidable (_ ∧ _ ∧ _ ∧ _))

/-- The uses that the lists allow. -/
def Legal : ListOp α → Lists α → Prop
  | .init list, S => S.Free list
  | .addHead new head, S => CanAdd S new head
  | .addTail new head, S => CanAdd S new head
  | .delete entry, S => ∃ b xs, S b = some xs ∧ entry ∈ xs

instance [Fintype α] (op : ListOp α) (S : Lists α) : Decidable (op.Legal S) :=
  match op with
  | .init list => inferInstanceAs (Decidable (S.Free list))
  | .addHead new head => inferInstanceAs (Decidable (CanAdd S new head))
  | .addTail new head => inferInstanceAs (Decidable (CanAdd S new head))
  | .delete entry => inferInstanceAs (Decidable (∃ b, ∃ xs ∈ S b, entry ∈ xs))

/-- The operation is one on the list of `b`. -/
def On : ListOp α → Lists α → α → Prop
  | .init list, _, b => b = list
  | .addHead new head, _, b => b = head ∨ b = new
  | .addTail new head, _, b => b = head ∨ b = new
  | .delete entry, S, b => ∃ xs, S b = some xs ∧ entry ∈ xs

/-- An operation, on the pointers and on the sequences. -/
def Step (op : ListOp α) (s s' : Links α × Lists α) : Prop :=
  s' = (op.exec s.1, op.apply s.2)

end ListOp

/-- The pointers and the sequences after a sequence of operations as the lists allow them. There are no lists
at first, and the pointers are as they happen to be. -/
abbrev ListRun : Links α × Lists α → Prop :=
  Runs.RunOf (fun s => s.2 = fun _ => none) ListOp.Step fun op s => op.Legal s.2

/-- The pointers hold the sequences: every list is a ring through its head, and no two of them meet. -/
structure Represents (h : Links α) (S : Lists α) : Prop where
  ring : ∀ b xs, S b = some xs → Ring h b xs
  apart : ∀ b xs b' xs', S b = some xs → S b' = some xs' → b ≠ b' → ∀ x ∈ b :: xs, x ∉ b' :: xs'

/-- The pointers of the node are the same in both. -/
def SameAt (h h' : Links α) (x : α) : Prop := h'.next x = h.next x ∧ h'.prev x = h.prev x

end Sequences

end StaticRouter
