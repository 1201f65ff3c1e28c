import StaticRouter.Proofs.VisitProofs
import StaticRouter.Slots

/-!
# Proofs: the slots of the ARP table

The copy loop reads the slot in front of the array whenever it runs. An entry is lost when it is in the last
slot and another one is put in front. An address takes one slot, unless 0.0.0.0 is learned while several
slots are unused.
-/

namespace StaticRouter

open CMem

variable {rtable : List RtEntry}

/-! ## Checked accesses -/

theorem readSlot_append (pre post : List ArpCacheEntry) (e : ArpCacheEntry) :
    readSlot (pre ++ e :: post) pre.length = .ok e := by
  simp [readSlot]

theorem writeSlot_append (pre post : List ArpCacheEntry) (e e' : ArpCacheEntry) :
    writeSlot (pre ++ e :: post) pre.length e' = .ok (pre ++ e' :: post) := by
  have hin : 0 ≤ (pre.length : Int) ∧ (pre.length : Int) < (pre ++ e :: post).length := by
    rw [List.length_append, List.length_cons]
    omega
  rw [writeSlot, if_pos hin]
  simp

/-- The first loop stays in the array. -/
theorem checkedRefresh_eq (ip4 : UInt32) (mac : Mac) (pre rest : List ArpCacheEntry) (flag : Bool)
    (c : Clock) : checkedRefresh ip4 mac rest.length pre.length flag (pre ++ rest) c =
      .ok (flag || rest.any (·.ip4 = ip4), pre ++ (refreshLoop ip4 mac rest c).1,
        (refreshLoop ip4 mac rest c).2) := by
  induction rest generalizing pre flag c with
  | nil => simp [checkedRefresh, refreshLoop]
  | cons e rest ih =>
    have hnext : ∀ x : ArpCacheEntry, (pre.length : Int) + 1 = ((pre ++ [x]).length : Int) := by simp
    rw [List.length_cons, checkedRefresh, readSlot_append, ok_bind, refreshLoop]
    by_cases hip : e.ip4 = ip4
    · rw [if_pos hip, if_pos hip, writeSlot_append, ok_bind,
        hnext { e with mac := mac, valid := true, added := c 0 },
        List.append_cons pre { e with mac := mac, valid := true, added := c 0 } rest, ih]
      simp [hip]
    · rw [if_neg hip, if_neg hip, hnext e, List.append_cons pre e rest, ih]
      simp [hip]

/-- The copy loop ends with a read in front of the array. -/
theorem checkedShift_error {n : Nat} {es : List ArpCacheEntry} (h : n < es.length) :
    checkedShift (n + 1) es = .error .outOfBounds := by
  induction n generalizing es with
  | zero => rfl
  | succ n ih =>
    obtain ⟨pre, e, post, rfl, hpre⟩ : ∃ pre e post, es = pre ++ e :: post ∧ pre.length = n + 1 :=
      ⟨es.take (n + 1), es[n + 1], es.drop (n + 1 + 1), by simp, by rw [List.length_take]; omega⟩
    have hread : ∃ x, readSlot (pre ++ e :: post) (((n + 1 : Nat) : Int) - 1) = .ok x := by
      have hlt : n < (pre ++ e :: post).length := by omega
      exact ⟨(pre ++ e :: post)[n], by simp [readSlot, List.getElem?_eq_getElem hlt]⟩
    obtain ⟨x, hx⟩ := hread
    rw [checkedShift, hx, ok_bind, ← hpre, writeSlot_append, ok_bind, hpre]
    refine ih ?_
    rw [List.length_append, List.length_cons] at h ⊢
    omega

theorem refreshLoop_of_fresh {ip4 : UInt32} {es : List ArpCacheEntry} (h : ∀ e ∈ es, e.ip4 ≠ ip4) (mac : Mac)
    (c : Clock) : refreshLoop ip4 mac es c = (es, c) := by
  induction es generalizing c with
  | nil => rfl
  | cons e es ih =>
    rw [refreshLoop, if_neg (h e List.mem_cons_self), ih fun e he => h e (List.mem_cons_of_mem _ he)]

/-- With checked accesses `arpcache_insert` does what it does without them, or faults. -/
theorem checkedInsert_eq (before : ArpCacheEntry) (ip4 : UInt32) (mac : Mac) (t : ArpTable) (c : Clock) :
    checkedInsert ip4 mac t.entries c = if ∃ e ∈ t.entries, e.ip4 = ip4 then
      .ok ((tableInsert before ip4 mac t c).1.entries, (tableInsert before ip4 mac t c).2)
    else .error .outOfBounds := by
  have hrefresh := checkedRefresh_eq ip4 mac [] t.entries false c
  rw [t.size, List.nil_append, List.nil_append, Bool.false_or, List.length_nil] at hrefresh
  rw [checkedInsert, show (0 : Int) = ((0 : Nat) : Int) from rfl, hrefresh, ok_bind]
  by_cases h : ∃ e ∈ t.entries, e.ip4 = ip4
  · have hany : t.entries.any (·.ip4 = ip4) = true := by simpa using h
    rw [if_pos h, tableInsert, if_pos hany]
    simp only [hany, if_true]
  · have hany : t.entries.any (·.ip4 = ip4) = false := by simpa using h
    have hlen : maxArpSize - 1 < t.entries.length := by rw [t.size]; decide
    have hfresh : ∀ e ∈ t.entries, e.ip4 ≠ ip4 := fun e he hip => h ⟨e, he, hip⟩
    rw [if_neg h, refreshLoop_of_fresh hfresh]
    simp only [hany, Bool.false_eq_true, if_false]
    rw [show maxArpSize = maxArpSize - 1 + 1 from rfl, checkedShift_error hlen, error_bind]

/-- An insertion of an address that no slot carries reads in front of the array. What it reads there it overwrites
at last: whatever `before` is, the address comes in front of the old slots, the last of which is dropped. -/
theorem tableInsert_shifts (before : ArpCacheEntry) {ip4 : UInt32} (mac : Mac) {t : ArpTable} (c : Clock)
    (h : ∀ e ∈ t.entries, e.ip4 ≠ ip4) :
    checkedInsert ip4 mac t.entries c = .error .outOfBounds ∧
      (tableInsert before ip4 mac t c).1.entries =
        ⟨ip4, mac, c 0, true⟩ :: t.entries.take (maxArpSize - 1) := by
  have hnone : ¬ ∃ e ∈ t.entries, e.ip4 = ip4 := fun ⟨e, he, hip⟩ => h e he hip
  exact ⟨by rw [checkedInsert_eq before, if_neg hnone], tableInsert_fresh h⟩

/-- **The table shift reads in front of the array.** `arpcache_insert` makes no access outside the table, and
puts an address that no slot carries in front of the others, if and only if some slot carries the address,
valid or not. -/
theorem checkedInsert_inRange_iff (ip4 : UInt32) (mac : Mac) (t : ArpTable) (c : Clock) :
    (∃ es c', checkedInsert ip4 mac t.entries c = .ok (es, c') ∧ ((∀ e ∈ t.entries, e.ip4 ≠ ip4) →
        es = ⟨ip4, mac, c 0, true⟩ :: t.entries.take (maxArpSize - 1))) ↔
      ∃ e ∈ t.entries, e.ip4 = ip4 := by
  rw [checkedInsert_eq zeroEntry]
  constructor
  · rintro ⟨es, c', hok, -⟩
    by_contra h
    rw [if_neg h] at hok
    cases hok
  · intro h
    rw [if_pos h]
    obtain ⟨e, he, hip⟩ := h
    exact ⟨_, _, rfl, fun hfresh => absurd hip (hfresh e he)⟩

/-- The first mapping that a router learns. -/
theorem checkedInsert_firstMapping :
    checkedInsert 0x0a000102 zeroMac ArpTable.zero.entries (fun _ => 0) = .error .outOfBounds ∧
      ¬ ∃ es c', checkedInsert 0x0a000102 zeroMac ArpTable.zero.entries (fun _ => 0) = .ok (es, c') := by
  have herr : checkedInsert 0x0a000102 zeroMac ArpTable.zero.entries (fun _ => 0) = .error .outOfBounds :=
    (tableInsert_shifts zeroEntry zeroMac (fun _ => 0) (by decide)).1
  refine ⟨herr, ?_⟩
  rintro ⟨es, c', hok⟩
  rw [herr] at hok
  cases hok

/-! ## Mappings that are lost -/

/-- Valid slots of one address hold one hardware address. -/
def ArpTable.Agrees (t : ArpTable) : Prop :=
  ∀ e ∈ t.entries, ∀ e' ∈ t.entries, e.valid = true → e'.valid = true → e.ip4 = e'.ip4 → e.mac = e'.mac

theorem TableStep.agrees {i : Input} {t t' : ArpTable} (ha : t.Agrees) (h : TableStep i t t') : t'.Agrees := by
  cases h with
  | keep => exact ha
  | learn mac t harp hspa =>
    intro e he e' he' hv hv' hip
    rcases mem_tableInsert he with ⟨hold, hne⟩ | ⟨heq, hmac, -⟩
    · rcases mem_tableInsert he' with ⟨hold', -⟩ | ⟨heq', -, -⟩
      · exact ha e hold e' hold' hv hv' hip
      · exact absurd (hip.trans heq') hne
    · rcases mem_tableInsert he' with ⟨-, hne'⟩ | ⟨-, hmac', -⟩
      · exact absurd (hip.symm.trans heq) hne'
      · rw [hmac, hmac']
  | expire env t =>
    intro e he e' he' hv hv' hip
    obtain ⟨x, hx, hxip, hxmac, hxv⟩ := mem_expireLoop he
    obtain ⟨y, hy, hyip, hymac, hyv⟩ := mem_expireLoop he'
    rw [hxmac, hymac]
    exact ha x hx y hy (hxv hv) (hyv hv') (hxip.symm.trans (hip.trans hyip))

theorem RunOf.agrees {C : Input → Router → Prop} {s : Router} (h : RunOf rtable C s) : s.table.Agrees := by
  refine Runs.RunOf.invariant (I := fun s => s.table.Agrees) ?_ ?_ h
  · rintro s ⟨env, rfl⟩ e he e' he' hv
    have hzero : e = zeroEntry := List.eq_of_mem_replicate he
    rw [hzero] at hv
    cases hv
  · exact fun i s s' hs _ ha h => (h.table (RunOf.wf hs)).agrees ha

/-- The slots of other addresses are where they were after the refresh loop. -/
theorem mem_refreshLoop_of_ne {ip4 : UInt32} {es : List ArpCacheEntry} {e : ArpCacheEntry} (he : e ∈ es)
    (hne : e.ip4 ≠ ip4) (mac : Mac) (c : Clock) : e ∈ (refreshLoop ip4 mac es c).1 := by
  induction es generalizing c with
  | nil => cases he
  | cons x es ih =>
    rw [refreshLoop]
    rcases List.mem_cons.mp he with rfl | he
    · rw [if_neg hne]
      exact List.mem_cons_self
    · split_ifs
      · exact List.mem_cons_of_mem _ (ih he c.tail)
      · exact List.mem_cons_of_mem _ (ih he c)

/-- **What an insertion drops.** A mapping of another address is found afterwards as it was before, unless no
slot carries the inserted address and the mapping is in the last slot only: then it is lost, whatever the
other slots hold. -/
theorem arpcacheInsert_keeps {s s' : Router} (hs : Reachable rtable s) (env : Env) {ip4 ip4' : UInt32}
    {mac m : Mac} (h : arpcacheInsert ip4 mac { s with env := env } = .ok s') (hne : ip4' ≠ ip4)
    (hl : arpcacheLookup s.table ip4' = some m) :
    arpcacheLookup s'.table ip4' = if s.table.Drops ip4 ip4' then none else some m := by
  obtain ⟨-, rfl⟩ := arpcacheInsert_ok h
  show arpcacheLookup (tableInsert env.before ip4 mac s.table env.clock).1 ip4' = _
  -- a slot that still answers gives the same hardware address
  have hkeep : ∀ e ∈ s.table.entries, Answers ip4' e →
      e ∈ (tableInsert env.before ip4 mac s.table env.clock).1.entries →
      arpcacheLookup (tableInsert env.before ip4 mac s.table env.clock).1 ip4' = some m := by
    intro e he ha hmem
    obtain ⟨e₀, he₀, ha₀, rfl⟩ := exists_of_arpcacheLookup hl
    have hmac : ∀ e' ∈ s.table.entries, Answers ip4' e' → e'.mac = e₀.mac := fun e' he' ha' =>
      hs.agrees e' he' e₀ he₀ ha'.2 ha₀.2 (ha'.1.trans ha₀.1.symm)
    rw [arpcacheLookup_eq_some hmem ha, hmac e he ha]
    intro e' he' ha'
    rcases mem_tableInsert he' with ⟨hold, -⟩ | ⟨heq, -⟩
    · rw [hmac e' hold ha', hmac e he ha]
    · exact absurd (ha'.1.symm.trans heq) hne
  by_cases hfresh : ∀ e ∈ s.table.entries, e.ip4 ≠ ip4
  · by_cases hlast : ∀ e ∈ s.table.entries.take (maxArpSize - 1), ¬ Answers ip4' e
    · rw [if_pos (show s.table.Drops ip4 ip4' from ⟨hfresh, hlast⟩), arpcacheLookup_eq_none, tableInsert_fresh hfresh]
      intro e he ha
      rcases List.mem_cons.mp he with rfl | he
      · exact hne ha.1.symm
      · exact hlast e he ha
    · rw [if_neg fun h : s.table.Drops ip4 ip4' => hlast h.2]
      push Not at hlast
      obtain ⟨e, he, ha⟩ := hlast
      refine hkeep e (List.mem_of_mem_take he) ha ?_
      rw [tableInsert_fresh hfresh]
      exact List.mem_cons_of_mem _ he
  · rw [if_neg fun h : s.table.Drops ip4 ip4' => hfresh h.1]
    push Not at hfresh
    obtain ⟨e, he, ha, -⟩ := exists_of_arpcacheLookup hl
    refine hkeep e he ha ?_
    rw [tableInsert_refresh hfresh]
    exact mem_refreshLoop_of_ne he (fun hip => hne (ha.1.symm.trans hip)) mac env.clock

/-- Two stations, one after the other. -/
theorem arpcacheInsert_keeps_second : ∃ s s' : Router,
    arpcacheInsert 0x0a000203 (Sample.station 8) s = .ok s' ∧
      arpcacheLookup s'.table 0x0a000202 = some (Sample.station 9) := by
  obtain ⟨s, hs, hl, hnot, hok⟩ := RunOf.of_replay Sample.connected (fun _ _ => True) 8
    [.frame Sample.eth1 (Sample.arpReply 0x0a000202 (Sample.station 9)) (Sample.clockAt 0)] (Sample.clockAt 0)
    (fun s => arpcacheLookup s.table 0x0a000202 = some (Sample.station 9) ∧
      ¬ s.table.Drops 0x0a000203 0x0a000202 ∧
      (arpcacheInsert 0x0a000203 (Sample.station 8) s).toOption.isSome = true) (by decide +kernel)
  obtain ⟨s', hs'⟩ := Option.isSome_iff_exists.mp hok
  have hins : arpcacheInsert 0x0a000203 (Sample.station 8) { s with env := s.env } = .ok s' :=
    toOption_eq_some.mp hs'
  refine ⟨s, s', hins, ?_⟩
  rw [arpcacheInsert_keeps hs s.env hins (by decide) hl, if_neg hnot]

/-- Thirty-two stations, the first of which is heard again ten seconds later; a sweep at the time 16. -/
def Sample.fullTable : List Input :=
  ((List.range 32).map fun n : Nat => .frame Sample.eth1
    (Sample.arpReply (0x0a000202 + .ofNat n) (Sample.station 9)) (Sample.clockAt 0)) ++
  [.frame Sample.eth1 (Sample.arpReply 0x0a000202 (Sample.station 9)) (Sample.clockAt 10),
    .sweep (Sample.clockAt 16)]

/-- The one live mapping is dropped although thirty-one slots are free. -/
theorem arpcacheInsert_dropsLive : ∃ s s' : Router, Reachable Sample.connected s ∧
    arpcacheInsert 0x0a000301 (Sample.station 8) s = .ok s' ∧
    arpcacheLookup s.table 0x0a000202 = some (Sample.station 9) ∧
    (¬ ∀ e ∈ s.table.entries, e.valid = true) ∧ arpcacheLookup s'.table 0x0a000202 = none := by
  obtain ⟨s, hs, hl, hfree, hlost⟩ := RunOf.of_replay Sample.connected (fun _ _ => True) 8
    Sample.fullTable (Sample.clockAt 0)
    (fun s => arpcacheLookup s.table 0x0a000202 = some (Sample.station 9) ∧
      s.table.entries.countP (fun e => e.valid = false) = 31 ∧
      (arpcacheInsert 0x0a000301 (Sample.station 8) s).toOption.map
        (fun s' => arpcacheLookup s'.table 0x0a000202) = some none) (by decide +kernel)
  obtain ⟨s', hs', hnone⟩ := Option.map_eq_some_iff.mp hlost
  refine ⟨s, s', hs, toOption_eq_some.mp hs', hl, fun hall => ?_, hnone⟩
  have hzero : s.table.entries.countP (fun e => e.valid = false) = 0 :=
    List.countP_eq_zero.mpr fun e he => by simp [hall e he]
  omega

/-! ## The slots of an address -/

theorem refreshLoop_map_ip4 (ip4 : UInt32) (mac : Mac) (es : List ArpCacheEntry) (c : Clock) :
    (refreshLoop ip4 mac es c).1.map (·.ip4) = es.map (·.ip4) := by
  induction es generalizing c with
  | nil => rfl
  | cons e es ih =>
    rw [refreshLoop]
    split_ifs <;> simp only [List.map_cons, ih]

theorem expireLoop_map_ip4 (es : List ArpCacheEntry) (c : Clock) :
    (expireLoop es c).1.map (·.ip4) = es.map (·.ip4) := by
  induction es generalizing c with
  | nil => rfl
  | cons e es ih =>
    simp only [expireLoop, List.map_cons, ih]
    split_ifs <;> rfl

/-- The number of slots that carry an address depends on the addresses alone. -/
theorem carrying_eq_count (t : ArpTable) (ip4 : UInt32) :
    t.carrying ip4 = (t.entries.map (·.ip4)).count ip4 := by
  rw [ArpTable.carrying, List.count, List.countP_map]
  exact List.countP_congr fun e _ => by simp

theorem answering_le_carrying (t : ArpTable) (ip4 : UInt32) : t.answering ip4 ≤ t.carrying ip4 := by
  refine List.countP_mono_left fun e _ h => ?_
  have h' : e.ip4 = ip4 ∧ e.valid = true := by simpa using h
  simpa using h'.1

/-- No two slots carry the same address, but for unused ones. -/
def ArpTable.OneEach (t : ArpTable) : Prop :=
  ∀ ip4, t.carrying ip4 ≤ 1 ∨ ip4 = 0 ∧ ∀ e ∈ t.entries, e.ip4 = 0 → e.valid = false

theorem ArpTable.OneEach.answering_le {t : ArpTable} (h : t.OneEach) (ip4 : UInt32) :
    t.answering ip4 ≤ 1 := by
  rcases h ip4 with hone | ⟨rfl, hunused⟩
  · exact Nat.le_trans (answering_le_carrying t ip4) hone
  · have hzero : t.answering 0 = 0 := by
      rw [ArpTable.answering, List.countP_eq_zero]
      intro e he
      by_cases hip : e.ip4 = 0
      · simp [hunused e he hip]
      · simp [hip]
    omega

/-- An insertion keeps it, unless it is one of 0.0.0.0 that finds several slots. -/
theorem ArpTable.OneEach.insert {t : ArpTable} (h : t.OneEach) (before : ArpCacheEntry) {ip4 : UInt32}
    (mac : Mac) (c : Clock) (h0 : ip4 = 0 → t.carrying 0 ≤ 1) : (tableInsert before ip4 mac t c).1.OneEach := by
  intro a
  by_cases hfresh : ∀ e ∈ t.entries, e.ip4 ≠ ip4
  · have hcount : (tableInsert before ip4 mac t c).1.carrying a =
        (t.entries.take (maxArpSize - 1)).countP (·.ip4 = a) + if ip4 = a then 1 else 0 := by
      rw [ArpTable.carrying, tableInsert_fresh hfresh, List.countP_cons]
      simp
    have htake : (t.entries.take (maxArpSize - 1)).countP (·.ip4 = a) ≤ t.carrying a :=
      (List.take_sublist _ _).countP_le
    by_cases ha : ip4 = a
    · subst ha
      have hnone : t.carrying ip4 = 0 := List.countP_eq_zero.mpr fun e he => by simpa using hfresh e he
      left
      rw [hcount, if_pos rfl]
      omega
    · rcases h a with hone | ⟨rfl, hunused⟩
      · left
        rw [hcount, if_neg ha]
        omega
      · right
        refine ⟨rfl, fun e he hip => ?_⟩
        rcases mem_tableInsert he with ⟨hold, -⟩ | ⟨heq, -⟩
        · exact hunused e hold hip
        · exact absurd (heq.symm.trans hip) ha
  · push Not at hfresh
    have hcount : (tableInsert before ip4 mac t c).1.carrying a = t.carrying a := by
      rw [carrying_eq_count, carrying_eq_count, tableInsert_refresh hfresh, refreshLoop_map_ip4]
    rcases h a with hone | ⟨rfl, hunused⟩
    · exact Or.inl (hcount ▸ hone)
    · by_cases hz : ip4 = 0
      · exact Or.inl (hcount ▸ h0 hz)
      · right
        refine ⟨rfl, fun e he hip => ?_⟩
        rcases mem_tableInsert he with ⟨hold, -⟩ | ⟨heq, -⟩
        · exact hunused e hold hip
        · exact absurd (heq.symm.trans hip) hz

/-- A sweep keeps it. -/
theorem ArpTable.OneEach.expire {t : ArpTable} (h : t.OneEach) (c : Clock) : (tableExpire t c).1.OneEach := by
  intro a
  have hcount : (tableExpire t c).1.carrying a = t.carrying a := by
    rw [carrying_eq_count, carrying_eq_count]
    exact congrArg (List.count a) (expireLoop_map_ip4 t.entries c)
  rcases h a with hone | ⟨rfl, hunused⟩
  · exact Or.inl (hcount ▸ hone)
  · right
    refine ⟨rfl, fun e he hip => ?_⟩
    obtain ⟨e₀, he₀, hip₀, -, hv⟩ := mem_expireLoop he
    have hinvalid := hunused e₀ he₀ (hip₀.symm.trans hip)
    cases hev : e.valid with
    | false => rfl
    | true => rw [hv hev] at hinvalid; cases hinvalid

/-- Learning 0.0.0.0 makes every slot that carries it valid. -/
theorem answering_refreshLoop (ip4 : UInt32) (mac : Mac) (es : List ArpCacheEntry) (c : Clock) :
    (refreshLoop ip4 mac es c).1.countP (fun e => e.ip4 = ip4 ∧ e.valid = true) = es.countP (·.ip4 = ip4) := by
  induction es generalizing c with
  | nil => rfl
  | cons e es ih =>
    rw [refreshLoop]
    by_cases hip : e.ip4 = ip4
    · rw [if_pos hip, List.countP_cons, List.countP_cons, ih]
      simp [hip]
    · rw [if_neg hip, List.countP_cons, List.countP_cons, ih]
      simp [hip]

/-- **One slot per address.** In a run in which 0.0.0.0 is learned only while one slot carries it at most, no
address has more than one valid slot. A step that learns it while several do makes these all valid. -/
theorem arpTable_oneSlot :
    (∀ s, RunOf rtable ProbesOneSlot s → ∀ ip4, s.table.answering ip4 ≤ 1) ∧
    ∀ i s s', Reachable rtable s → Step rtable i s s' → ¬ ProbesOneSlot i s →
      ¬ ∀ ip4, s'.table.answering ip4 ≤ 1 := by
  constructor
  · intro s h
    have hone : s.table.OneEach := by
      refine Runs.RunOf.invariant (I := fun s => s.table.OneEach) ?_ ?_ h
      · rintro s ⟨env, rfl⟩ a
        by_cases ha : a = 0
        · right
          refine ⟨ha, fun e he _ => ?_⟩
          rw [show e = zeroEntry from List.eq_of_mem_replicate he]
          rfl
        · left
          have hzero : (ArpTable.zero).carrying a = 0 := by
            rw [ArpTable.carrying, List.countP_eq_zero]
            intro e he
            rw [show e = zeroEntry from List.eq_of_mem_replicate he]
            simp [zeroEntry, Ne.symm ha]
          exact Nat.le_trans (Nat.le_of_eq hzero) (Nat.zero_le 1)
      · intro i s s' hs hc hi h
        have ht := h.table (RunOf.wf hs)
        generalize s'.table = t' at ht
        cases ht with
        | keep => exact hi
        | learn mac t harp hspa => exact hi.insert _ mac _ fun h0 => hc harp (h0 ▸ hspa)
        | expire => exact hi.expire _
    exact hone.answering_le
  · intro i s s' hs h hc hall
    cases h with
    | @frame iface packet env _ _ h =>
      simp only [ProbesOneSlot] at hc
      push Not at hc
      obtain ⟨harp, hspa, htwo⟩ := hc
      have harpPacket : handleArpPacket iface packet { s with env := env } = .ok s' := by
        simp only [handlePacket, harp, ok_bind] at h
        exact h
      obtain ⟨ea, hea, ht⟩ := handleArpPacket_table harpPacket
      have hzero : ea.spa = 0 := Except.ok.inj ((readEtherArp_ok.mp hea).2.2.1.symm.trans hspa)
      have hslot : ∃ e ∈ s.table.entries, e.ip4 = 0 := by
        obtain ⟨e, he, hip⟩ := List.countP_pos_iff.mp (show 0 < s.table.carrying 0 by omega)
        exact ⟨e, he, by simpa using hip⟩
      have hcount : s'.table.answering 0 = s.table.carrying 0 := by
        rw [ht, hzero, ArpTable.answering, tableInsert_refresh hslot, answering_refreshLoop]
        rfl
      have hle := hall 0
      omega
    | sweep => exact hc trivial

/-- One station that is heard twice. -/
theorem arpTable_oneSlot_heardTwice : ∃ s : Router, s.table.answering 0x0a000202 = 1 ∧
    ∀ ip4, s.table.answering ip4 ≤ 1 := by
  obtain ⟨s, hs, hone⟩ := RunOf.of_replay Sample.connected ProbesOneSlot 8
    [.frame Sample.eth1 (Sample.arpReply 0x0a000202 (Sample.station 9)) (Sample.clockAt 0),
      .frame Sample.eth1 (Sample.arpReply 0x0a000202 (Sample.station 8)) (Sample.clockAt 5)] (Sample.clockAt 0)
    (fun s => s.table.answering 0x0a000202 = 1) (by decide +kernel)
  exact ⟨s, hone, arpTable_oneSlot.1 s hs⟩

/-- An ARP probe, whose sender address is 0.0.0.0, fills the whole table. -/
theorem arpTable_probeFillsTable : ∃ s, Reachable Sample.connected s ∧ s.table.answering 0 = 32 ∧
    ¬ ∀ ip4, s.table.answering ip4 ≤ 1 := by
  obtain ⟨s, hs, hfull⟩ := RunOf.of_replay Sample.connected (fun _ _ => True) 8
    [.frame Sample.eth1 (arpFrame broadcastMac (Sample.station 9) arpopRequest (Sample.station 9) 0 zeroMac
      0x0a000202) (Sample.clockAt 0)] (Sample.clockAt 0)
    (fun s => s.table.answering 0 = 32) (by decide +kernel)
  refine ⟨s, hs, hfull, fun hall => ?_⟩
  have hle := hall 0
  omega

end StaticRouter
