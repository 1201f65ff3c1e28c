import StaticRouter.Sweep

/-!
# The slots of the ARP table

The table part of `arpcache_insert` with checked accesses: a read or a write outside the array faults. And
how many slots an address takes.
-/

namespace StaticRouter

open CMem

/-! ## Checked accesses -/

/-- `entries[i]`. -/
def readSlot (es : List ArpCacheEntry) (i : Int) : Except Fault ArpCacheEntry :=
  if 0 ≤ i then
    match es[i.toNat]? with
    | some e => .ok e
    | none => .error .outOfBounds
  else .error .outOfBounds

/-- `entries[i] = e`. -/
def writeSlot (es : List ArpCacheEntry) (i : Int) (e : ArpCacheEntry) : Except Fault (List ArpCacheEntry) :=
  if 0 ≤ i ∧ i < es.length then .ok (es.set i.toNat e) else .error .outOfBounds

/-- The first loop of `arpcache_insert` from index `i` on, for `n` rounds. Returns the flag, the array and
the remaining clock readings. -/
def checkedRefresh (ip4 : UInt32) (mac : Mac) : Nat → Int → Bool → List ArpCacheEntry → Clock →
    Except Fault (Bool × List ArpCacheEntry × Clock)
  | 0, _, flag, es, c => .ok (flag, es, c)
  | n + 1, i, flag, es, c => do
    let e ← readSlot es i
    if e.ip4 = ip4 then
      let es ← writeSlot es i { e with mac := mac, valid := true, added := c 0 }
      checkedRefresh ip4 mac n (i + 1) true es c.tail
    else checkedRefresh ip4 mac n (i + 1) flag es c

/-- The copy loop of `arpcache_insert`, for the indices below `n`, the largest one first. -/
def checkedShift : Nat → List ArpCacheEntry → Except Fault (List ArpCacheEntry)
  | 0, es => .ok es
  | n + 1, es => do
    let e ← readSlot es ((n : Int) - 1)
    let es ← writeSlot es n e
    checkedShift n es

/-- The table part of `arpcache_insert`. Returns the array and the remaining clock readings. -/
def checkedInsert (ip4 : UInt32) (mac : Mac) (es : List ArpCacheEntry) (c : Clock) :
    Except Fault (List ArpCacheEntry × Clock) := do
  let (flag, es, c) ← checkedRefresh ip4 mac maxArpSize 0 false es c
  if flag then .ok (es, c)
  else
    let es ← checkedShift maxArpSize es
    let es ← writeSlot es 0 ⟨ip4, mac, c 0, true⟩
    .ok (es, c.tail)

/-! ## The slots of an address -/

/-- Inserting `ip4` drops the mapping of `ip4'`: no slot carries `ip4`, and no slot but the last one holds a
valid mapping of `ip4'`. -/
def ArpTable.Drops (t : ArpTable) (ip4 ip4' : UInt32) : Prop :=
  (∀ e ∈ t.entries, e.ip4 ≠ ip4) ∧
    ∀ e ∈ t.entries.take (maxArpSize - 1), ¬ (e.ip4 = ip4' ∧ e.valid = true)

instance (t : ArpTable) (ip4 ip4' : UInt32) : Decidable (t.Drops ip4 ip4') :=
  inferInstanceAs (Decidable ((∀ _ ∈ _, _) ∧ ∀ _ ∈ _, _))

/-- The number of slots that carry `ip4`, valid or not. -/
def ArpTable.carrying (t : ArpTable) (ip4 : UInt32) : Nat := t.entries.countP (·.ip4 = ip4)

/-- The number of valid slots that carry `ip4`. -/
def ArpTable.answering (t : ArpTable) (ip4 : UInt32) : Nat :=
  t.entries.countP fun e => e.ip4 = ip4 ∧ e.valid = true

/-- An ARP packet from the address 0.0.0.0 finds one slot with that address at most. -/
def ProbesOneSlot : Input → Router → Prop
  | .frame _ packet _, s => packet.readU16 etherType = .ok ethPArp → packet.readU32 arpSpa = .ok 0 →
      s.table.carrying 0 ≤ 1
  | .sweep _, _ => True

instance (i : Input) (s : Router) : Decidable (ProbesOneSlot i s) :=
  match i with
  | .frame _ _ _ => inferInstanceAs (Decidable (_ → _ → _))
  | .sweep _ => inferInstanceAs (Decidable True)

end StaticRouter
