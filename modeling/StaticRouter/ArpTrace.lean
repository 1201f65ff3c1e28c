import StaticRouter.ArpTable

/-!
# Histories of the ARP table

Runs of insertions and sweeps from the zeroed table, each at one clock reading, and the words in which
a history says what the table holds.
-/

namespace StaticRouter

/-- An operation on the table. -/
inductive TableOp where
  | insert (ip4 : UInt32) (mac : Mac) (t : Int)
  | sweep (s : Int)
  deriving DecidableEq, Repr

variable (before : ArpCacheEntry)

/-- What an operation does with the table. -/
def TableOp.apply : TableOp → ArpTable → ArpTable
  | .insert ip4 mac t, table => (tableInsert before ip4 mac table fun _ => t).1
  | .sweep s, table => (tableExpire table fun _ => s).1

/-- The table after the run `ops`, oldest operation first. -/
def tableAfter (ops : List TableOp) : ArpTable :=
  ops.foldl (fun table op => op.apply before table) ArpTable.zero

/-- After the run `pre` no slot carries `ip4`, valid or not. -/
def FreshAt (pre : List TableOp) (ip4 : UInt32) : Prop :=
  ∀ e ∈ (tableAfter before pre).entries, e.ip4 ≠ ip4

instance (pre : List TableOp) (ip4 : UInt32) : Decidable (FreshAt before pre ip4) :=
  inferInstanceAs (Decidable (∀ _ ∈ _, _))

/-- The operation `op`, made after the run `pre`, inserts an address that no slot carries. -/
def FreshInsert (pre : List TableOp) : TableOp → Prop
  | .insert ip4 _ _ => FreshAt before pre ip4
  | .sweep _ => False

instance (pre : List TableOp) (op : TableOp) : Decidable (FreshInsert before pre op) :=
  match op with
  | .insert _ _ _ => inferInstanceAs (Decidable (FreshAt _ _ _))
  | .sweep _ => inferInstanceAs (Decidable False)

/-- The number of fresh insertions in `post`, which is made after the run `pre`. -/
def freshInserts (pre : List TableOp) : List TableOp → Nat
  | [] => 0
  | op :: post => (if FreshInsert before pre op then 1 else 0) + freshInserts (pre ++ [op]) post

/-- The run `ops` contains an insertion of `ip4`, the last of which recorded `mac` at clock `t` and was
followed by the operations `post`. -/
def LastInsert (ops : List TableOp) (ip4 : UInt32) (mac : Mac) (t : Int) (post : List TableOp) : Prop :=
  (∃ pre, ops = pre ++ .insert ip4 mac t :: post) ∧ ∀ m t', .insert ip4 m t' ∉ post

/-- The run `ops` contains a fresh insertion of `ip4`, and `n` fresh insertions were made after the
latest one. -/
def FreshAge (ops : List TableOp) (ip4 : UInt32) (n : Nat) : Prop :=
  ∃ pre mac t post, ops = pre ++ .insert ip4 mac t :: post ∧ FreshAt before pre ip4 ∧
    (∀ post₁ mac' t' post₂, post = post₁ ++ .insert ip4 mac' t' :: post₂ →
      ¬ FreshAt before (pre ++ .insert ip4 mac t :: post₁) ip4) ∧
    freshInserts before (pre ++ [.insert ip4 mac t]) post = n

end StaticRouter
