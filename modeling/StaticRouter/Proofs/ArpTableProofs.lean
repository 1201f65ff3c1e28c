import Mathlib.Data.List.TakeDrop
import StaticRouter.ArpTable

/-!
# Proofs: the table of the ARP cache

What `arpcache_lookup` finds, and what inserting and expiring do to the slots.
-/

namespace StaticRouter

open CMem

/-! ## `arpcache_lookup` -/

/-- The slot `e` answers a lookup of `ip4`. -/
def Answers (ip4 : UInt32) (e : ArpCacheEntry) : Prop := e.ip4 = ip4 ∧ e.valid = true

instance (ip4 : UInt32) (e : ArpCacheEntry) : Decidable (Answers ip4 e) :=
  inferInstanceAs (Decidable (_ ∧ _))

/-- The loop of `arpcache_lookup` over the slots `es`. -/
def lookupLoop (ip4 : UInt32) (es : List ArpCacheEntry) (found : Option Mac) : Option Mac :=
  es.foldl (fun found e => if Answers ip4 e then some e.mac else found) found

theorem arpcacheLookup_eq (t : ArpTable) (ip4 : UInt32) :
    arpcacheLookup t ip4 = lookupLoop ip4 t.entries none := rfl

theorem lookupLoop_cons (ip4 : UInt32) (e : ArpCacheEntry) (es : List ArpCacheEntry)
    (found : Option Mac) : lookupLoop ip4 (e :: es) found =
      lookupLoop ip4 es (if Answers ip4 e then some e.mac else found) := rfl

theorem lookupLoop_none {ip4 : UInt32} {es : List ArpCacheEntry} (found : Option Mac)
    (h : ∀ e ∈ es, ¬ Answers ip4 e) : lookupLoop ip4 es found = found := by
  induction es generalizing found with
  | nil => rfl
  | cons e es ih =>
    rw [lookupLoop_cons, if_neg (h e List.mem_cons_self)]
    exact ih found fun x hx => h x (List.mem_cons_of_mem e hx)

/-- The loop returns what it started with, or the address in a slot that answers. -/
theorem lookupLoop_eq (ip4 : UInt32) (es : List ArpCacheEntry) (found : Option Mac) :
    lookupLoop ip4 es found = found ∨
      ∃ e ∈ es, Answers ip4 e ∧ lookupLoop ip4 es found = some e.mac := by
  induction es generalizing found with
  | nil => exact Or.inl rfl
  | cons e es ih =>
    rw [lookupLoop_cons]
    rcases ih (if Answers ip4 e then some e.mac else found) with h | ⟨x, hx, ha, h⟩
    · by_cases hans : Answers ip4 e
      · exact Or.inr ⟨e, List.mem_cons_self, hans, by rw [h, if_pos hans]⟩
      · exact Or.inl (by rw [h, if_neg hans])
    · exact Or.inr ⟨x, List.mem_cons_of_mem e hx, ha, h⟩

theorem lookupLoop_isSome {ip4 : UInt32} {es : List ArpCacheEntry} {e : ArpCacheEntry}
    (he : e ∈ es) (ha : Answers ip4 e) (found : Option Mac) : lookupLoop ip4 es found ≠ none := by
  have hsome : ∀ (es : List ArpCacheEntry) (m : Mac), lookupLoop ip4 es (some m) ≠ none := by
    intro es m
    rcases lookupLoop_eq ip4 es (some m) with h | ⟨x, _, _, h⟩ <;> simp [h]
  induction es generalizing found with
  | nil => exact absurd he List.not_mem_nil
  | cons x es ih =>
    rw [lookupLoop_cons]
    rcases List.mem_cons.mp he with rfl | he
    · rw [if_pos ha]; exact hsome es _
    · exact ih he _

/-- A lookup fails exactly when no slot answers. -/
theorem arpcacheLookup_eq_none {t : ArpTable} {ip4 : UInt32} :
    arpcacheLookup t ip4 = none ↔ ∀ e ∈ t.entries, ¬ Answers ip4 e := by
  rw [arpcacheLookup_eq]
  exact ⟨fun h e he ha => lookupLoop_isSome he ha none h, fun h => lookupLoop_none none h⟩

/-- A lookup returns the address in some slot that answers. -/
theorem exists_of_arpcacheLookup {t : ArpTable} {ip4 : UInt32} {m : Mac}
    (h : arpcacheLookup t ip4 = some m) : ∃ e ∈ t.entries, Answers ip4 e ∧ e.mac = m := by
  rw [arpcacheLookup_eq] at h
  rcases lookupLoop_eq ip4 t.entries none with h' | ⟨e, he, ha, h'⟩
  · rw [h'] at h; cases h
  · rw [h'] at h; exact ⟨e, he, ha, Option.some.inj h⟩

/-- If all slots that answer agree, a lookup returns what they hold. -/
theorem arpcacheLookup_eq_some {t : ArpTable} {ip4 : UInt32} {e : ArpCacheEntry} (he : e ∈ t.entries)
    (ha : Answers ip4 e) (hu : ∀ e' ∈ t.entries, Answers ip4 e' → e'.mac = e.mac) :
    arpcacheLookup t ip4 = some e.mac := by
  cases h : arpcacheLookup t ip4 with
  | none => exact absurd ha (arpcacheLookup_eq_none.mp h e he)
  | some m =>
    obtain ⟨e', he', ha', rfl⟩ := exists_of_arpcacheLookup h
    rw [hu e' he' ha']

/-! ## `arpcache_insert` -/

/-- The copy loop from index `i` down moves the slots below `i` up by one. -/
theorem shiftLoop_eq (before : ArpCacheEntry) {i : Nat} {es : List ArpCacheEntry} (hi : i < es.length) :
    shiftLoop before i es = before :: (es.take i ++ es.drop (i + 1)) := by
  induction i generalizing es with
  | zero =>
    cases es with
    | nil => simp at hi
    | cons e es => simp [shiftLoop]
  | succ i ih =>
    have hi' : i < es.length := by omega
    rw [shiftLoop, ih (by simpa using hi')]
    have hget : es.getD i before = es[i] := by simp [List.getD, hi']
    have htake : (es.set (i + 1) es[i]).take i = es.take i := by
      rw [List.take_set_of_le (by omega)]
    have hdrop : (es.set (i + 1) es[i]).drop (i + 1) = es[i] :: es.drop (i + 1 + 1) := by
      rw [List.drop_eq_getElem_cons (by simpa using hi)]
      rw [List.drop_set_of_lt (by omega)]
      simp
    rw [hget, htake, hdrop, List.take_succ_eq_append_getElem hi', List.append_assoc]
    rfl

/-- The refresh loop keeps the slots of other addresses and fills in those of `ip4`. -/
theorem mem_refreshLoop {ip4 : UInt32} {mac : Mac} {es : List ArpCacheEntry} {c : Clock}
    {e : ArpCacheEntry} (he : e ∈ (refreshLoop ip4 mac es c).1) :
    e ∈ es ∧ e.ip4 ≠ ip4 ∨ e.ip4 = ip4 ∧ e.mac = mac ∧ e.valid = true := by
  induction es generalizing c with
  | nil => simp [refreshLoop] at he
  | cons x es ih =>
    simp only [refreshLoop] at he
    split_ifs at he with hx
    · rcases List.mem_cons.mp he with rfl | he
      · exact Or.inr ⟨hx, rfl, rfl⟩
      · rcases ih he with ⟨h1, h2⟩ | h
        · exact Or.inl ⟨List.mem_cons_of_mem x h1, h2⟩
        · exact Or.inr h
    · rcases List.mem_cons.mp he with rfl | he
      · exact Or.inl ⟨List.mem_cons_self, hx⟩
      · rcases ih he with ⟨h1, h2⟩ | h
        · exact Or.inl ⟨List.mem_cons_of_mem x h1, h2⟩
        · exact Or.inr h

theorem tableInsert_refresh {before : ArpCacheEntry} {ip4 : UInt32} {mac : Mac} {t : ArpTable}
    {c : Clock} (h : ∃ e ∈ t.entries, e.ip4 = ip4) :
    (tableInsert before ip4 mac t c).1.entries = (refreshLoop ip4 mac t.entries c).1 := by
  have hany : t.entries.any (·.ip4 = ip4) = true := by simpa using h
  rw [tableInsert, if_pos hany]

/-- A fresh insertion puts the new entry in front and drops the last one. -/
theorem tableInsert_fresh {before : ArpCacheEntry} {ip4 : UInt32} {mac : Mac} {t : ArpTable}
    {c : Clock} (h : ∀ e ∈ t.entries, e.ip4 ≠ ip4) :
    (tableInsert before ip4 mac t c).1.entries =
      ⟨ip4, mac, c 0, true⟩ :: t.entries.take (maxArpSize - 1) := by
  have hany : ¬ t.entries.any (·.ip4 = ip4) = true := by simpa using h
  have hlen : maxArpSize - 1 < t.entries.length := by rw [t.size]; decide
  have hdrop : t.entries.drop (maxArpSize - 1 + 1) = [] :=
    List.drop_eq_nil_of_le (by rw [t.size]; decide)
  have hset : ((shiftLoop before (maxArpSize - 1) t.entries).set 0 ⟨ip4, mac, c 0, true⟩) =
      ⟨ip4, mac, c 0, true⟩ :: t.entries.take (maxArpSize - 1) := by
    rw [shiftLoop_eq before hlen, hdrop, List.append_nil, List.set_cons_zero]
  rw [tableInsert, if_neg hany, ← hset]

/-- After an insertion every slot holds the inserted mapping or is an old slot of another address. -/
theorem mem_tableInsert {before : ArpCacheEntry} {ip4 : UInt32} {mac : Mac} {t : ArpTable} {c : Clock}
    {e : ArpCacheEntry} (he : e ∈ (tableInsert before ip4 mac t c).1.entries) :
    e ∈ t.entries ∧ e.ip4 ≠ ip4 ∨ e.ip4 = ip4 ∧ e.mac = mac ∧ e.valid = true := by
  by_cases h : ∃ e ∈ t.entries, e.ip4 = ip4
  · rw [tableInsert_refresh h] at he
    exact mem_refreshLoop he
  · push Not at h
    rw [tableInsert_fresh h] at he
    rcases List.mem_cons.mp he with rfl | he
    · exact Or.inr ⟨rfl, rfl, rfl⟩
    · have hmem := List.mem_of_mem_take he
      exact Or.inl ⟨hmem, h e hmem⟩

/-- After an insertion some slot holds the inserted mapping. -/
theorem exists_mem_tableInsert (before : ArpCacheEntry) (ip4 : UInt32) (mac : Mac) (t : ArpTable)
    (c : Clock) : ∃ e ∈ (tableInsert before ip4 mac t c).1.entries, e.ip4 = ip4 := by
  by_cases h : ∃ e ∈ t.entries, e.ip4 = ip4
  · rw [tableInsert_refresh h]
    obtain ⟨e, he, heq⟩ := h
    generalize t.entries = es at he
    induction es generalizing c with
    | nil => simp at he
    | cons x es ih =>
      simp only [refreshLoop]
      split_ifs with hx
      · exact ⟨_, List.mem_cons_self, hx⟩
      · rcases List.mem_cons.mp he with rfl | he
        · exact absurd heq hx
        · obtain ⟨y, hy, hy'⟩ := ih c he
          exact ⟨y, List.mem_cons_of_mem x hy, hy'⟩
  · push Not at h
    rw [tableInsert_fresh h]
    exact ⟨_, List.mem_cons_self, rfl⟩

/-- A lookup of the inserted address succeeds. -/
theorem arpcacheLookup_tableInsert_self (before : ArpCacheEntry) (ip4 : UInt32) (mac : Mac)
    (t : ArpTable) (c : Clock) :
    arpcacheLookup (tableInsert before ip4 mac t c).1 ip4 = some mac := by
  obtain ⟨e, he, heq⟩ := exists_mem_tableInsert before ip4 mac t c
  have hnew : ∀ e ∈ (tableInsert before ip4 mac t c).1.entries, e.ip4 = ip4 →
      e.mac = mac ∧ e.valid = true := by
    intro e he heq
    rcases mem_tableInsert he with ⟨_, hne⟩ | ⟨_, h⟩
    · exact absurd heq hne
    · exact h
  obtain ⟨hm, hv⟩ := hnew e he heq
  have hfound := arpcacheLookup_eq_some he ⟨heq, hv⟩ fun e' he' ha =>
    (hnew e' he' ha.1).1.trans hm.symm
  rw [hfound, hm]

/-- An insertion brings back no other address. -/
theorem arpcacheLookup_tableInsert_none {before : ArpCacheEntry} {ip4 ip4' : UInt32} {mac : Mac}
    {t : ArpTable} {c : Clock} (hne : ip4' ≠ ip4) (h : arpcacheLookup t ip4' = none) :
    arpcacheLookup (tableInsert before ip4 mac t c).1 ip4' = none := by
  rw [arpcacheLookup_eq_none] at h ⊢
  intro e he ha
  rcases mem_tableInsert he with ⟨hmem, _⟩ | ⟨heq, _⟩
  · exact h e hmem ha
  · exact hne (ha.1.symm.trans heq)

/-! ## `arpcache_sweep` -/

/-- Expiring changes nothing in a slot but its validity, and makes no slot valid. -/
theorem mem_expireLoop {es : List ArpCacheEntry} {c : Clock} {e : ArpCacheEntry}
    (he : e ∈ (expireLoop es c).1) :
    ∃ e' ∈ es, e.ip4 = e'.ip4 ∧ e.mac = e'.mac ∧ (e.valid = true → e'.valid = true) := by
  induction es generalizing c with
  | nil => simp [expireLoop] at he
  | cons x es ih =>
    simp only [expireLoop] at he
    rcases List.mem_cons.mp he with rfl | he
    · refine ⟨x, List.mem_cons_self, ?_⟩
      split_ifs <;> simp
    · obtain ⟨e', he', h⟩ := ih he
      exact ⟨e', List.mem_cons_of_mem x he', h⟩

/-- Expiring makes no lookup succeed. -/
theorem arpcacheLookup_tableExpire_none {t : ArpTable} {c : Clock} {ip4 : UInt32}
    (h : arpcacheLookup t ip4 = none) : arpcacheLookup (tableExpire t c).1 ip4 = none := by
  rw [arpcacheLookup_eq_none] at h ⊢
  intro e he ha
  obtain ⟨e', he', hip, _, hv⟩ := mem_expireLoop he
  exact h e' he' ⟨hip.symm.trans ha.1, hv ha.2⟩

end StaticRouter
