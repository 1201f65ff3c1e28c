import StaticRouter.ArpTrace
import StaticRouter.Proofs.ArpTableProofs

/-!
# Proofs: what a history says about the ARP table

For a non-zero address the table and the history are related by two numbers: the number of fresh
insertions since the address entered the table is the index of its slot, and the last insertion and the
sweeps after it decide what the slot holds.
-/

namespace StaticRouter

open CMem

/-! ## The operations at one clock reading -/

/-- A slot after an insertion of `ip4` that some slot carries. -/
def refreshEntry (ip4 : UInt32) (mac : Mac) (t : Int) (e : ArpCacheEntry) : ArpCacheEntry :=
  if e.ip4 = ip4 then { e with mac := mac, valid := true, added := t } else e

/-- A slot after a sweep. -/
def expireEntry (s : Int) (e : ArpCacheEntry) : ArpCacheEntry :=
  if s - e.added > 15 then { e with valid := false } else e

@[simp] theorem refreshEntry_ip4 (ip4 : UInt32) (mac : Mac) (t : Int) (e : ArpCacheEntry) :
    (refreshEntry ip4 mac t e).ip4 = e.ip4 := by
  unfold refreshEntry; split_ifs <;> rfl

@[simp] theorem expireEntry_ip4 (s : Int) (e : ArpCacheEntry) : (expireEntry s e).ip4 = e.ip4 := by
  unfold expireEntry; split_ifs <;> rfl

theorem refreshLoop_const (ip4 : UInt32) (mac : Mac) (t : Int) (es : List ArpCacheEntry) :
    (refreshLoop ip4 mac es fun _ => t).1 = es.map (refreshEntry ip4 mac t) := by
  induction es with
  | nil => rfl
  | cons e es ih =>
    have htail : Clock.tail (fun _ => t) = fun _ => t := rfl
    simp only [refreshLoop, htail, List.map_cons, refreshEntry]
    split_ifs with h
    · rw [ih]
    · rw [ih]

theorem expireLoop_const (s : Int) (es : List ArpCacheEntry) :
    (expireLoop es fun _ => s).1 = es.map (expireEntry s) := by
  induction es with
  | nil => rfl
  | cons e es ih =>
    have htail : Clock.tail (fun _ => s) = fun _ => s := rfl
    simp only [expireLoop, htail, List.map_cons, expireEntry, ih]

variable {before : ArpCacheEntry}

theorem tableAfter_snoc (ops : List TableOp) (op : TableOp) :
    tableAfter before (ops ++ [op]) = op.apply before (tableAfter before ops) := by
  simp [tableAfter]

variable (before) in
theorem entries_insert_refresh {table : ArpTable} {ip4 : UInt32} (mac : Mac) (t : Int)
    (h : ¬ ∀ e ∈ table.entries, e.ip4 ≠ ip4) :
    ((TableOp.insert ip4 mac t).apply before table).entries =
      table.entries.map (refreshEntry ip4 mac t) := by
  push Not at h
  rw [TableOp.apply, tableInsert_refresh h, refreshLoop_const]

variable (before) in
theorem entries_insert_fresh {table : ArpTable} {ip4 : UInt32} (mac : Mac) (t : Int)
    (h : ∀ e ∈ table.entries, e.ip4 ≠ ip4) :
    ((TableOp.insert ip4 mac t).apply before table).entries =
      ⟨ip4, mac, t, true⟩ :: table.entries.take (maxArpSize - 1) := by
  rw [TableOp.apply, tableInsert_fresh h]

variable (before) in
theorem entries_sweep (table : ArpTable) (s : Int) :
    ((TableOp.sweep s).apply before table).entries = table.entries.map (expireEntry s) := by
  exact expireLoop_const s table.entries

/-! ## Slots -/

/-- The slot `a`, and no other, carries the address of `e`, and it holds `e`. -/
def InSlot (table : ArpTable) (a : Nat) (e : ArpCacheEntry) : Prop :=
  table.entries[a]? = some e ∧ ∀ i e', table.entries[i]? = some e' → e'.ip4 = e.ip4 → i = a

/-- A change of the slots that keeps their addresses keeps every address in its slot. -/
theorem InSlot.map {table table' : ArpTable} {a : Nat} {e : ArpCacheEntry}
    {f : ArpCacheEntry → ArpCacheEntry} (hf : ∀ e, (f e).ip4 = e.ip4)
    (he : table'.entries = table.entries.map f) (h : InSlot table a e) : InSlot table' a (f e) := by
  constructor
  · rw [he, List.getElem?_map, h.1, Option.map_some]
  · intro i e' hi hip
    rw [he, List.getElem?_map, Option.map_eq_some_iff] at hi
    obtain ⟨x, hx, rfl⟩ := hi
    exact h.2 i x hx (by rwa [hf, hf] at hip)

/-- A fresh insertion moves the other addresses up by one slot. -/
theorem InSlot.shift {table table' : ArpTable} {a : Nat} {e new : ArpCacheEntry}
    (he : table'.entries = new :: table.entries.take (maxArpSize - 1)) (hne : new.ip4 ≠ e.ip4)
    (ha : a + 1 < maxArpSize) (h : InSlot table a e) : InSlot table' (a + 1) e := by
  have ha' : a < maxArpSize - 1 := by omega
  constructor
  · rw [he, List.getElem?_cons_succ, List.getElem?_take, if_pos ha', h.1]
  · intro i e' hi hip
    rw [he] at hi
    cases i with
    | zero =>
      rw [List.getElem?_cons_zero] at hi
      exact absurd (by rw [Option.some.inj hi]; exact hip) hne
    | succ i =>
      rw [List.getElem?_cons_succ, List.getElem?_take] at hi
      split_ifs at hi
      rw [h.2 i e' hi hip]

/-- A lookup of an address that has one slot returns what that slot holds, if it is valid. -/
theorem InSlot.lookup {table : ArpTable} {a : Nat} {e : ArpCacheEntry} (h : InSlot table a e) :
    arpcacheLookup table e.ip4 = if e.valid = true then some e.mac else none := by
  have hsame : ∀ e' ∈ table.entries, e'.ip4 = e.ip4 → e' = e := by
    intro e' he' hip
    obtain ⟨i, hi⟩ := List.mem_iff_getElem?.mp he'
    rw [h.2 i e' hi hip, h.1] at hi
    exact (Option.some.inj hi).symm
  split_ifs with hv
  · refine arpcacheLookup_eq_some (List.mem_iff_getElem?.mpr ⟨a, h.1⟩) ⟨rfl, hv⟩ ?_
    intro e' he' ha
    rw [hsame e' he' ha.1]
  · rw [arpcacheLookup_eq_none]
    intro e' he' ha
    rw [hsame e' he' ha.1] at ha
    exact hv ha.2

/-! ## Histories, newest operation first -/

section History

variable (before)

/-- What the last insertion of `ip4` and the sweeps after it leave: the hardware address, the time and
the validity. -/
def lastMapping (ip4 : UInt32) : List TableOp → Option (Mac × Int × Bool)
  | [] => none
  | .insert ip4' mac t :: older => if ip4' = ip4 then some (mac, t, true) else lastMapping ip4 older
  | .sweep s :: older =>
    (lastMapping ip4 older).map fun m => (m.1, m.2.1, m.2.2 && decide (¬ s - m.2.1 > 15))

/-- The number of fresh insertions since the latest fresh insertion of `ip4`. -/
def freshAge (ip4 : UInt32) : List TableOp → Option Nat
  | [] => none
  | .insert ip4' _ _ :: older =>
    if FreshAt before older.reverse ip4' then
      if ip4' = ip4 then some 0 else (freshAge ip4 older).map (· + 1)
    else freshAge ip4 older
  | .sweep _ :: older => freshAge ip4 older

/-- Where the table keeps `ip4` after the history: nowhere, or in the slot that its age names. -/
def Placed (ip4 : UInt32) (newest : List TableOp) : Prop :=
  (∃ a m, freshAge before ip4 newest = some a ∧ a < maxArpSize ∧ lastMapping ip4 newest = some m ∧
    InSlot (tableAfter before newest.reverse) a ⟨ip4, m.1, m.2.1, m.2.2⟩) ∨
  ((∀ a, freshAge before ip4 newest = some a → maxArpSize ≤ a) ∧
    FreshAt before newest.reverse ip4)

end History

theorem freshAt_snoc_of_map {ops : List TableOp} {op : TableOp} {f : ArpCacheEntry → ArpCacheEntry}
    {ip4 : UInt32} (hf : ∀ e, (f e).ip4 = e.ip4)
    (he : (op.apply before (tableAfter before ops)).entries = (tableAfter before ops).entries.map f)
    (h : FreshAt before ops ip4) : FreshAt before (ops ++ [op]) ip4 := by
  intro e hm
  rw [tableAfter_snoc, he] at hm
  obtain ⟨x, hx, rfl⟩ := List.mem_map.mp hm
  rw [hf]; exact h x hx

/-- A refreshing insertion keeps every address in its place. -/
theorem placed_refresh {older : List TableOp} {ip4 ip4' : UInt32} (mac : Mac) (t : Int)
    (hf : ¬ FreshAt before older.reverse ip4') (h : Placed before ip4 older) :
    Placed before ip4 (.insert ip4' mac t :: older) := by
  have he := entries_insert_refresh before mac t hf
  have hage : freshAge before ip4 (.insert ip4' mac t :: older) = freshAge before ip4 older := by
    rw [freshAge, if_neg hf]
  rw [Placed, hage, List.reverse_cons]
  rcases h with ⟨a, m, ha, hlt, hm, hs⟩ | ⟨ha, hfr⟩
  · left
    have hs' := hs.map (refreshEntry_ip4 ip4' mac t) (he.trans rfl)
    rw [← tableAfter_snoc] at hs'
    by_cases hip : ip4' = ip4
    · refine ⟨a, (mac, t, true), ha, hlt, by rw [lastMapping, if_pos hip], ?_⟩
      simpa [refreshEntry, hip] using hs'
    · refine ⟨a, m, ha, hlt, by rw [lastMapping, if_neg hip, hm], ?_⟩
      simpa [refreshEntry, Ne.symm hip] using hs'
  · exact Or.inr ⟨ha, freshAt_snoc_of_map (refreshEntry_ip4 ip4' mac t) he hfr⟩

/-- A sweep keeps every address in its place. -/
theorem placed_sweep {older : List TableOp} {ip4 : UInt32} (s : Int) (h : Placed before ip4 older) :
    Placed before ip4 (.sweep s :: older) := by
  have he := entries_sweep before (tableAfter before older.reverse) s
  rw [Placed, freshAge, List.reverse_cons]
  rcases h with ⟨a, m, ha, hlt, hm, hs⟩ | ⟨ha, hfr⟩
  · left
    have hs' := hs.map (expireEntry_ip4 s) (he.trans rfl)
    rw [← tableAfter_snoc] at hs'
    refine ⟨a, _, ha, hlt, by rw [lastMapping, hm, Option.map_some], ?_⟩
    by_cases hx : s - m.2.1 > 15
    · simpa [expireEntry, hx] using hs'
    · simpa [expireEntry, hx] using hs'
  · exact Or.inr ⟨ha, freshAt_snoc_of_map (expireEntry_ip4 s) he hfr⟩

/-- A fresh insertion puts its address into the first slot, moves the others up, and drops the last. -/
theorem placed_fresh {older : List TableOp} {ip4 ip4' : UInt32} (mac : Mac) (t : Int)
    (hf : FreshAt before older.reverse ip4') (h : Placed before ip4 older) :
    Placed before ip4 (.insert ip4' mac t :: older) := by
  have he := entries_insert_fresh before mac t hf
  rw [Placed, freshAge, if_pos hf, List.reverse_cons, tableAfter_snoc]
  by_cases hip : ip4' = ip4
  · left
    subst hip
    refine ⟨0, (mac, t, true), if_pos rfl, by decide, by rw [lastMapping, if_pos rfl], ?_, ?_⟩
    · rw [he]; rfl
    · intro i e hi hip
      cases i with
      | zero => rfl
      | succ i =>
        rw [he, List.getElem?_cons_succ] at hi
        exact absurd hip (hf e (List.mem_of_mem_take (List.mem_iff_getElem?.mpr ⟨i, hi⟩)))
  · rw [if_neg hip]
    rcases h with ⟨a, m, ha, hlt, hm, hs⟩ | ⟨ha, hfr⟩
    · by_cases ha1 : a + 1 < maxArpSize
      · exact Or.inl ⟨a + 1, m, by rw [ha, Option.map_some], ha1, by rw [lastMapping, if_neg hip, hm],
          hs.shift he hip ha1⟩
      · refine Or.inr ⟨fun b hb => ?_, fun e hm => ?_⟩
        · rw [ha, Option.map_some, Option.some.injEq] at hb; omega
        · rw [tableAfter_snoc, he] at hm
          rcases List.mem_cons.mp hm with rfl | hm
          · exact hip
          · obtain ⟨i, hi⟩ := List.mem_iff_getElem?.mp hm
            rw [List.getElem?_take] at hi
            split_ifs at hi with hi1
            intro heq
            have := hs.2 i e hi heq
            omega
    · refine Or.inr ⟨fun b hb => ?_, fun e hm => ?_⟩
      · rw [Option.map_eq_some_iff] at hb
        obtain ⟨a, ha', rfl⟩ := hb
        exact Nat.le_succ_of_le (ha a ha')
      · rw [tableAfter_snoc, he] at hm
        rcases List.mem_cons.mp hm with rfl | hm
        · exact hip
        · exact hfr e (List.mem_of_mem_take hm)

/-- Every history places every non-zero address. -/
theorem placed (newest : List TableOp) {ip4 : UInt32} (h0 : ip4 ≠ 0) : Placed before ip4 newest := by
  induction newest with
  | nil =>
    refine Or.inr ⟨fun a ha => (by cases ha), fun e he => ?_⟩
    have : e = zeroEntry := List.eq_of_mem_replicate he
    rw [this]; exact h0.symm
  | cons op older ih =>
    cases op with
    | insert ip4' mac t =>
      by_cases hf : FreshAt before older.reverse ip4'
      · exact placed_fresh mac t hf ih
      · exact placed_refresh mac t hf ih
    | sweep s => exact placed_sweep s ih

/-! ## Reading the history in the order of the run -/

/-- The last insertion of an address and the sweeps after it decide what its slot holds. -/
theorem lastMapping_append {ip4 : UInt32} {newer : List TableOp} (older : List TableOp) (mac : Mac)
    (t : Int) (h : ∀ m t', .insert ip4 m t' ∉ newer) :
    ∃ v, lastMapping ip4 (newer ++ .insert ip4 mac t :: older) = some (mac, t, v) ∧
      (v = true ↔ ∀ s, .sweep s ∈ newer → ¬ s - t > 15) := by
  induction newer with
  | nil => exact ⟨true, by simp [lastMapping], by simp⟩
  | cons op newer ih =>
    obtain ⟨v, hv, hiff⟩ := ih fun m t' hm => h m t' (List.mem_cons_of_mem op hm)
    cases op with
    | insert ip4' m t' =>
      have hne : ip4' ≠ ip4 := fun he => h m t' (by rw [he]; exact List.mem_cons_self)
      refine ⟨v, by rw [List.cons_append, lastMapping, if_neg hne, hv], ?_⟩
      rw [hiff]
      simp
    | sweep s =>
      refine ⟨v && decide (¬ s - t > 15), by rw [List.cons_append, lastMapping, hv]; rfl, ?_⟩
      rw [Bool.and_eq_true, hiff, decide_eq_true_iff]
      simp only [List.mem_cons, TableOp.sweep.injEq, forall_eq_or_imp]
      exact and_comm

theorem exists_of_lastMapping {ip4 : UInt32} {newest : List TableOp} {mac : Mac} {t : Int} {v : Bool}
    (h : lastMapping ip4 newest = some (mac, t, v)) :
    ∃ newer older, newest = newer ++ .insert ip4 mac t :: older ∧
      ∀ m t', .insert ip4 m t' ∉ newer := by
  induction newest generalizing v with
  | nil => cases h
  | cons op newest ih =>
    cases op with
    | insert ip4' m t' =>
      rw [lastMapping] at h
      split_ifs at h with hip
      · obtain ⟨rfl, rfl, -⟩ : m = mac ∧ t' = t ∧ _ := by simpa using h
        exact ⟨[], newest, by rw [hip]; rfl, by simp⟩
      · obtain ⟨newer, older, rfl, hn⟩ := ih h
        refine ⟨.insert ip4' m t' :: newer, older, rfl, fun m' t'' hm => ?_⟩
        rcases List.mem_cons.mp hm with he | hm
        · exact hip (TableOp.insert.inj he).1.symm
        · exact hn m' t'' hm
    | sweep s =>
      rw [lastMapping, Option.map_eq_some_iff] at h
      obtain ⟨⟨m, t', v'⟩, hm, he⟩ := h
      obtain ⟨rfl, rfl, -⟩ : m = mac ∧ t' = t ∧ _ := by simpa using he
      obtain ⟨newer, older, rfl, hn⟩ := ih hm
      refine ⟨.sweep s :: newer, older, rfl, fun m' t'' hm' => ?_⟩
      rcases List.mem_cons.mp hm' with he' | hm'
      · cases he'
      · exact hn m' t'' hm'

theorem freshInserts_snoc (pre post : List TableOp) (op : TableOp) :
    freshInserts before pre (post ++ [op]) =
      freshInserts before pre post + if FreshInsert before (pre ++ post) op then 1 else 0 := by
  induction post generalizing pre with
  | nil => simp [freshInserts]
  | cons x post ih =>
    rw [List.cons_append, freshInserts, freshInserts, ih]
    rw [List.append_assoc, List.singleton_append]
    omega

/-- `newer`, which follows `older`, contains no fresh insertion of `ip4`. -/
def NoFresh (before : ArpCacheEntry) (ip4 : UInt32) (older newer : List TableOp) : Prop :=
  ∀ a m t b, newer = a ++ .insert ip4 m t :: b → ¬ FreshAt before (b ++ older).reverse ip4

theorem NoFresh.tail {ip4 : UInt32} {older newer : List TableOp} {op : TableOp}
    (h : NoFresh before ip4 older (op :: newer)) : NoFresh before ip4 older newer :=
  fun a m t b he => h (op :: a) m t b (by rw [he]; rfl)

theorem freshAge_append {ip4 : UInt32} {newer older : List TableOp} {mac : Mac} {t : Int}
    (hf : FreshAt before older.reverse ip4)
    (h : NoFresh before ip4 (.insert ip4 mac t :: older) newer) :
    freshAge before ip4 (newer ++ .insert ip4 mac t :: older) =
      some (freshInserts before (older.reverse ++ [.insert ip4 mac t]) newer.reverse) := by
  induction newer with
  | nil => simp [freshAge, hf, freshInserts]
  | cons op newer ih =>
    have hrev : (newer ++ .insert ip4 mac t :: older).reverse =
        older.reverse ++ [.insert ip4 mac t] ++ newer.reverse := by simp
    rw [List.cons_append, List.reverse_cons, freshInserts_snoc]
    cases op with
    | insert ip4' m t' =>
      rw [freshAge, ih h.tail, hrev]
      by_cases hfr : FreshAt before (older.reverse ++ [.insert ip4 mac t] ++ newer.reverse) ip4'
      · have hne : ip4' ≠ ip4 := by
          rintro rfl
          exact h [] m t' newer rfl (by rw [hrev]; exact hfr)
        simp only [FreshInsert, hfr, if_true, if_neg hne, Option.map_some]
      · simp only [FreshInsert, hfr, if_false, Nat.add_zero]
    | sweep s =>
      rw [freshAge, ih h.tail]
      simp [FreshInsert]

theorem exists_of_freshAge {ip4 : UInt32} {newest : List TableOp} {n : Nat}
    (h : freshAge before ip4 newest = some n) :
    ∃ newer older mac t, newest = newer ++ .insert ip4 mac t :: older ∧
      FreshAt before older.reverse ip4 ∧ NoFresh before ip4 (.insert ip4 mac t :: older) newer := by
  induction newest generalizing n with
  | nil => cases h
  | cons op newest ih =>
    have hcons : ∀ {k : Nat}, freshAge before ip4 newest = some k →
        (∀ m t, op = .insert ip4 m t → ¬ FreshAt before newest.reverse ip4) →
        ∃ newer older mac t, op :: newest = newer ++ .insert ip4 mac t :: older ∧
          FreshAt before older.reverse ip4 ∧
          NoFresh before ip4 (.insert ip4 mac t :: older) newer := by
      intro k hk hop
      obtain ⟨newer, older, mac, t, rfl, hf, hn⟩ := ih hk
      refine ⟨op :: newer, older, mac, t, rfl, hf, fun a m t' b he => ?_⟩
      cases a with
      | nil =>
        obtain ⟨hop', rfl⟩ := List.cons.inj he
        exact hop m t' hop'
      | cons x a => exact hn a m t' b (List.cons.inj he).2
    cases op with
    | insert ip4' m t' =>
      rw [freshAge] at h
      split_ifs at h with hf hip
      · subst hip
        refine ⟨[], newest, m, t', rfl, hf, fun a m t b he => ?_⟩
        simp at he
      · obtain ⟨k, hk, -⟩ := Option.map_eq_some_iff.mp h
        exact hcons hk fun m'' t'' he => absurd (TableOp.insert.inj he).1 hip
      · exact hcons h fun m'' t'' he => by rw [← (TableOp.insert.inj he).1]; exact hf
    | sweep s => exact hcons h fun m t he => by cases he

/-- The last insertion, in the order of the run. -/
theorem lastMapping_reverse {ops : List TableOp} {ip4 : UInt32} {mac : Mac} {t : Int} :
    lastMapping ip4 ops.reverse = some (mac, t, true) ↔
      ∃ post, LastInsert ops ip4 mac t post ∧ ∀ s, .sweep s ∈ post → ¬ s - t > 15 := by
  constructor
  · intro h
    obtain ⟨newer, older, he, hn⟩ := exists_of_lastMapping h
    obtain ⟨v, hv, hiff⟩ := lastMapping_append older mac t hn
    rw [he, hv] at h
    obtain rfl : v = true := by simpa using h
    refine ⟨newer.reverse, ⟨⟨older.reverse, ?_⟩, by simpa using hn⟩, ?_⟩
    · rw [← List.reverse_reverse ops, he]; simp
    · simpa using hiff.mp rfl
  · rintro ⟨post, ⟨⟨pre, rfl⟩, hn⟩, hs⟩
    have he : (pre ++ .insert ip4 mac t :: post).reverse =
        post.reverse ++ .insert ip4 mac t :: pre.reverse := by simp
    have hn' : ∀ m t', .insert ip4 m t' ∉ post.reverse := by simpa using hn
    obtain ⟨v, hv, hiff⟩ := lastMapping_append pre.reverse mac t hn'
    rw [he, hv, hiff.mpr (by simpa using hs)]

/-- The age of an address, in the order of the run. -/
theorem freshAge_reverse {ops : List TableOp} {ip4 : UInt32} {n : Nat} :
    freshAge before ip4 ops.reverse = some n ↔ FreshAge before ops ip4 n := by
  constructor
  · intro h
    obtain ⟨newer, older, mac, t, he, hf, hn⟩ := exists_of_freshAge h
    rw [he, freshAge_append hf hn] at h
    refine ⟨older.reverse, mac, t, newer.reverse, ?_, hf, ?_, Option.some.inj h⟩
    · rw [← List.reverse_reverse ops, he]; simp
    · intro a m t' b hab
      have := hn b.reverse m t' a.reverse (by rw [← List.reverse_reverse newer, hab]; simp)
      simpa using this
  · rintro ⟨pre, mac, t, post, rfl, hf, hn, rfl⟩
    have he : (pre ++ .insert ip4 mac t :: post).reverse =
        post.reverse ++ .insert ip4 mac t :: pre.reverse := by simp
    rw [he, freshAge_append (by simpa using hf)]
    · simp
    · intro a m t' b hab
      have := hn b.reverse m t' a.reverse (by rw [← List.reverse_reverse post, hab]; simp)
      simpa using this

/-- **The trace specification of the ARP cache.** A lookup of a non-zero address succeeds exactly when
the address was inserted, at most 31 fresh insertions followed its latest fresh insertion, and no sweep
after the last insertion found it more than 15 seconds old; it then returns what the last insertion
recorded. -/
theorem arpcacheLookup_iff_history (before : ArpCacheEntry) (ops : List TableOp) {ip4 : UInt32}
    (h0 : ip4 ≠ 0) (mac : Mac) :
    arpcacheLookup (tableAfter before ops) ip4 = some mac ↔
      (∃ t post, LastInsert ops ip4 mac t post ∧ ∀ s, .sweep s ∈ post → ¬ s - t > 15) ∧
        ∃ n ≤ 31, FreshAge before ops ip4 n := by
  have hp : Placed before ip4 ops.reverse := placed ops.reverse h0
  simp only [← lastMapping_reverse, ← freshAge_reverse]
  rw [Placed, List.reverse_reverse] at hp
  rcases hp with ⟨a, ⟨m, t, v⟩, ha, hlt, hm, hs⟩ | ⟨ha, hf⟩
  · have hl := hs.lookup
    simp only at hl
    rw [hl, hm, ha]
    constructor
    · intro h
      split_ifs at h with hv
      exact ⟨⟨t, by rw [hv, Option.some.inj h]⟩, a, Nat.le_of_lt_succ hlt, rfl⟩
    · rintro ⟨⟨t', h⟩, -⟩
      obtain ⟨rfl, rfl, rfl⟩ : m = mac ∧ t = t' ∧ v = true := by simpa using h
      rfl
  · have hnone : arpcacheLookup (tableAfter before ops) ip4 = none :=
      arpcacheLookup_eq_none.mpr fun e he hans => hf e he hans.1
    rw [hnone]
    constructor
    · intro h; cases h
    · rintro ⟨-, n, hn, hage⟩
      exact absurd (ha n hage) (Nat.not_le.mpr (Nat.lt_succ_of_le hn))

/-- An entry of 15 seconds is still there. -/
theorem arpcacheLookup_iff_history_at_15 :
    (∃ t post, LastInsert [.insert 1 ⟨[2, 0, 0, 0, 0, 1], rfl⟩ 0, .sweep 15] 1 ⟨[2, 0, 0, 0, 0, 1], rfl⟩ t
        post ∧ ∀ s, .sweep s ∈ post → ¬ s - t > 15) ∧
      ∃ n ≤ 31, FreshAge zeroEntry [.insert 1 ⟨[2, 0, 0, 0, 0, 1], rfl⟩ 0, .sweep 15] 1 n :=
  (arpcacheLookup_iff_history zeroEntry _ (by decide) _).mp (by decide +kernel)

end StaticRouter
