import StaticRouter.Base

/-!
# The table of the ARP cache

The array `entries` of `arpcache_t` and what `arpcache_lookup`, `arpcache_insert` and the first loop of
`arpcache_sweep` do with it. `time` is called once for every slot that records or compares a time, so
the loops consume a sequence of clock readings.
-/

namespace StaticRouter

open CMem

/-- `MAX_ARP_SIZE`. -/
abbrev maxArpSize : Nat := 32

/-- An entry of the ARP table (`struct arp_cache_entry`). -/
structure ArpCacheEntry where
  ip4 : UInt32
  mac : Mac
  added : Int
  valid : Bool
  deriving DecidableEq, Repr

/-- The readings that `time` returns, in the order of the calls. -/
abbrev Clock := Nat → Int

/-- The readings after the first one. -/
def Clock.tail (c : Clock) : Clock := fun n => c (n + 1)

/-- An entry of zero bytes. -/
def zeroEntry : ArpCacheEntry := ⟨0, zeroMac, 0, false⟩

/-- The array `entries`; its length never changes. -/
structure ArpTable where
  entries : List ArpCacheEntry
  size : entries.length = maxArpSize
  deriving DecidableEq, Repr

/-- The zeroed table of `arpcache_init`. -/
def ArpTable.zero : ArpTable := ⟨List.replicate maxArpSize zeroEntry, rfl⟩

/-- `arpcache_lookup`: every slot is visited, so the last valid match gives the address. -/
def arpcacheLookup (t : ArpTable) (ip4 : UInt32) : Option Mac :=
  t.entries.foldl (fun found e => if e.ip4 = ip4 ∧ e.valid = true then some e.mac else found) none

/-! ## The table part of `arpcache_insert` -/

/-- The first loop of `arpcache_insert`: overwrite every slot that carries `ip4`, valid or not. -/
def refreshLoop (ip4 : UInt32) (mac : Mac) : List ArpCacheEntry → Clock → List ArpCacheEntry × Clock
  | [], c => ([], c)
  | e :: rest, c =>
    if e.ip4 = ip4 then
      let r := refreshLoop ip4 mac rest c.tail
      ({ e with mac := mac, valid := true, added := c 0 } :: r.1, r.2)
    else
      let r := refreshLoop ip4 mac rest c
      (e :: r.1, r.2)

/-- The copy loop `for (i = MAX_ARP_SIZE - 1; i >= 0; i -= 1) entries[i] = entries[i - 1]`, from index
`i` down. The last round reads the slot in front of the array; `before` is what lies there. -/
def shiftLoop (before : ArpCacheEntry) : Nat → List ArpCacheEntry → List ArpCacheEntry
  | 0, es => es.set 0 before
  | i + 1, es => shiftLoop before i (es.set (i + 1) (es.getD i before))

theorem length_refreshLoop (ip4 : UInt32) (mac : Mac) (es : List ArpCacheEntry) (c : Clock) :
    (refreshLoop ip4 mac es c).1.length = es.length := by
  induction es generalizing c with
  | nil => rfl
  | cons e rest ih => simp only [refreshLoop]; split_ifs <;> simp [ih]

theorem length_shiftLoop (before : ArpCacheEntry) (i : Nat) (es : List ArpCacheEntry) :
    (shiftLoop before i es).length = es.length := by
  induction i generalizing es with
  | zero => simp [shiftLoop]
  | succ i ih => simp [shiftLoop, ih]

/-- The table part of `arpcache_insert`: refresh the slots that carry `ip4`, or put a new entry in front
of the others, which drops the last one. Returns the table and the remaining clock readings. -/
def tableInsert (before : ArpCacheEntry) (ip4 : UInt32) (mac : Mac) (t : ArpTable) (c : Clock) :
    ArpTable × Clock :=
  if t.entries.any (·.ip4 = ip4) then
    let r := refreshLoop ip4 mac t.entries c
    (⟨r.1, by rw [length_refreshLoop]; exact t.size⟩, r.2)
  else
    (⟨(shiftLoop before (maxArpSize - 1) t.entries).set 0 ⟨ip4, mac, c 0, true⟩,
      by rw [List.length_set, length_shiftLoop]; exact t.size⟩, c.tail)

/-! ## The table part of `arpcache_sweep` -/

/-- The first loop of `arpcache_sweep`: a slot that was filled more than 15 seconds ago becomes
invalid. The clock is read for every slot. -/
def expireLoop : List ArpCacheEntry → Clock → List ArpCacheEntry × Clock
  | [], c => ([], c)
  | e :: rest, c =>
    let r := expireLoop rest c.tail
    ((if c 0 - e.added > 15 then { e with valid := false } else e) :: r.1, r.2)

theorem length_expireLoop (es : List ArpCacheEntry) (c : Clock) :
    (expireLoop es c).1.length = es.length := by
  induction es generalizing c with
  | nil => rfl
  | cons e rest ih => simp [expireLoop, ih]

/-- The table after the first loop of `arpcache_sweep`, and the remaining clock readings. -/
def tableExpire (t : ArpTable) (c : Clock) : ArpTable × Clock :=
  let r := expireLoop t.entries c
  (⟨r.1, by rw [length_expireLoop]; exact t.size⟩, r.2)

end StaticRouter
