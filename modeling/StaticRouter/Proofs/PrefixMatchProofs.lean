import Mathlib.Data.List.Induction
import Mathlib.Data.List.Perm.Basic
import StaticRouter.Replay
import StaticRouter.RoutingTable

/-!
# Proofs: the longest prefix

`longest_prefix_match` compares masks as unsigned numbers, although it keeps the largest one so far in a
signed `int`. Among prefix masks the larger number is the longer prefix.
-/

namespace StaticRouter

/-! ## Prefix masks -/

theorem prefixMask_toNat (n : Nat) : (prefixMask n).toNat = 2 ^ 32 - 2 ^ (32 - n) := by
  have hpos : 0 < 2 ^ (32 - n) := Nat.two_pow_pos _
  rw [prefixMask, UInt32.toNat_ofNat']
  exact Nat.mod_eq_of_lt (by omega)

theorem prefixLength_prefixMask : ∀ n ≤ 32, prefixLength (prefixMask n) = n := by decide

/-- The numeric order of prefix masks is the order of their lengths. -/
theorem prefixMask_le_iff {m n : Nat} (hm : m ≤ 32) (hn : n ≤ 32) : prefixMask m ≤ prefixMask n ↔ m ≤ n := by
  have hpow : 2 ^ (32 - n) ≤ 2 ^ (32 - m) ↔ 32 - n ≤ 32 - m := Nat.pow_le_pow_iff_right (by decide)
  have hle : ∀ k, 2 ^ (32 - k) ≤ 2 ^ 32 := fun k => Nat.pow_le_pow_right (by decide) (Nat.sub_le 32 k)
  have hm' := hle m
  have hn' := hle n
  rw [UInt32.le_iff_toNat_le, prefixMask_toNat, prefixMask_toNat]
  omega

theorem IsPrefixMask.le_iff {a b : UInt32} (ha : IsPrefixMask a) (hb : IsPrefixMask b) :
    a ≤ b ↔ prefixLength a ≤ prefixLength b := by
  obtain ⟨m, hm, rfl⟩ := ha
  obtain ⟨n, hn, rfl⟩ := hb
  rw [prefixLength_prefixMask m hm, prefixLength_prefixMask n hn, prefixMask_le_iff hm hn]

/-! ## One more entry -/

/-- The running maximum for a result: its mask as a signed `int`, or 0. -/
def maxMaskOf (result : Option RtEntry) : Int32 := (result.map (·.mask.toInt32)).getD 0

/-- The comparison with the running maximum: the mask of the result, if there is one, is no larger. -/
theorem maxMaskOf_le (result : Option RtEntry) (mask : UInt32) :
    (maxMaskOf result).toUInt32 ≤ mask ↔ ∀ r ∈ result, r.mask ≤ mask := by
  cases result with
  | none =>
    have hzero : (maxMaskOf none).toUInt32 = 0 := rfl
    rw [hzero]
    exact iff_of_true (UInt32.zero_le) (by simp)
  | some r =>
    have hmask : (maxMaskOf (some r)).toUInt32 = r.mask := UInt32.toUInt32_toInt32 r.mask
    rw [hmask]
    simp

/-- The loop carries the running maximum of the result so far. -/
theorem longestPrefixMatchLoop_append (dst : UInt32) (l l' : List RtEntry) (result : Option RtEntry) :
    longestPrefixMatchLoop dst (l ++ l') (maxMaskOf result) result =
      let r := longestPrefixMatchLoop dst l (maxMaskOf result) result
      longestPrefixMatchLoop dst l' (maxMaskOf r) r := by
  induction l generalizing result with
  | nil => rfl
  | cons e l ih =>
    simp only [List.cons_append, longestPrefixMatchLoop]
    split_ifs
    · exact ih (some e)
    · exact ih result
    · exact ih result

/-- A route added last is the result if it matches and no shorter than the result without it. -/
theorem longestPrefixMatch_addRtEntry (dst : UInt32) (e : RtEntry) (rtable : List RtEntry) :
    longestPrefixMatch (addRtEntry e rtable) dst =
      if e.Matches dst ∧ ∀ r ∈ longestPrefixMatch rtable dst, r.mask ≤ e.mask then some e
      else longestPrefixMatch rtable dst := by
  unfold longestPrefixMatch addRtEntry
  rw [show (0 : Int32) = maxMaskOf none from rfl, longestPrefixMatchLoop_append]
  simp only [longestPrefixMatchLoop, maxMaskOf_le]
  by_cases hm : e.Matches dst
  · rw [if_pos (show e.dest &&& e.mask = dst &&& e.mask from hm)]
    by_cases hr : ∀ r ∈ longestPrefixMatchLoop dst rtable (maxMaskOf none) none, r.mask ≤ e.mask
    · rw [if_pos hr, if_pos ⟨hm, hr⟩]
    · rw [if_neg hr, if_neg (fun h => hr h.2)]
  · rw [if_neg (show ¬ e.dest &&& e.mask = dst &&& e.mask from hm), if_neg (fun h => hm h.1)]

/-! ## The whole table -/

/-- The entry `e` matches, no entry before it has a longer prefix, and each one behind it that matches has a
shorter one. -/
def LongestIn (dst : UInt32) (rtable : List RtEntry) (e : RtEntry) : Prop :=
  ∃ pre post, rtable = pre ++ e :: post ∧ e.Matches dst ∧
    (∀ e' ∈ pre, e'.Matches dst → prefixLength e'.mask ≤ prefixLength e.mask) ∧
    ∀ e' ∈ post, e'.Matches dst → prefixLength e'.mask < prefixLength e.mask

theorem longestPrefixMatch_eq_none {dst : UInt32} {rtable : List RtEntry} :
    longestPrefixMatch rtable dst = none ↔ ∀ e ∈ rtable, ¬ e.Matches dst := by
  induction rtable using List.reverseRecOn with
  | nil => exact iff_of_true rfl (by simp)
  | append_singleton rtable e ih =>
    rw [show rtable ++ [e] = addRtEntry e rtable from rfl, longestPrefixMatch_addRtEntry]
    constructor
    · intro h
      split_ifs at h with hc
      have hold := ih.mp h
      intro e' he'
      rcases List.mem_append.mp he' with he' | he'
      · exact hold e' he'
      · rw [List.mem_singleton.mp he']
        exact fun hm => hc ⟨hm, by simp [h]⟩
    · intro h
      rw [if_neg (fun hc => h e (by simp [addRtEntry]) hc.1)]
      exact ih.mpr fun e' he' => h e' (List.mem_append_left _ he')

theorem longestPrefixMatch_eq_some {dst : UInt32} {rtable : List RtEntry} {e : RtEntry}
    (hmask : ∀ e ∈ rtable, IsPrefixMask e.mask) (h : longestPrefixMatch rtable dst = some e) :
    LongestIn dst rtable e := by
  induction rtable using List.reverseRecOn generalizing e with
  | nil => cases h
  | append_singleton rtable a ih =>
    have hold : ∀ e ∈ rtable, IsPrefixMask e.mask := fun e he => hmask e (List.mem_append_left _ he)
    have ha : IsPrefixMask a.mask := hmask a (by simp)
    rw [show rtable ++ [a] = addRtEntry a rtable from rfl, longestPrefixMatch_addRtEntry] at h
    split_ifs at h with hc
    · obtain rfl := Option.some.inj h
      refine ⟨rtable, [], rfl, hc.1, fun e' he' hm' => ?_, by simp⟩
      -- the result without `a` is at least as long as every other match, and `a` is as long as that
      cases hr : longestPrefixMatch rtable dst with
      | none => exact absurd hm' (longestPrefixMatch_eq_none.mp hr e' he')
      | some r =>
        obtain ⟨pre, post, rfl, -, hpre, hpost⟩ := ih hold hr
        have hra : prefixLength r.mask ≤ prefixLength a.mask :=
          ((hold r (by simp)).le_iff ha).mp (hc.2 r hr)
        have her : prefixLength e'.mask ≤ prefixLength r.mask := by
          rcases List.mem_append.mp he' with he' | he'
          · exact hpre e' he' hm'
          · rcases List.mem_cons.mp he' with rfl | he'
            · exact Nat.le_refl _
            · exact Nat.le_of_lt (hpost e' he' hm')
        exact Nat.le_trans her hra
    · obtain ⟨pre, post, rfl, hm, hpre, hpost⟩ := ih hold h
      refine ⟨pre, post ++ [a], by simp, hm, hpre, fun e' he' hm' => ?_⟩
      rcases List.mem_append.mp he' with he' | he'
      · exact hpost e' he' hm'
      · rw [List.mem_singleton.mp he'] at hm' ⊢
        have hlt : ¬ e.mask ≤ a.mask := fun hle => hc ⟨hm', by simpa [h] using hle⟩
        rw [(hold e (by simp)).le_iff ha] at hlt
        exact Nat.lt_of_not_le hlt

/-- No match is longer. -/
theorem LongestIn.maximal {dst : UInt32} {rtable : List RtEntry} {e e' : RtEntry}
    (h : LongestIn dst rtable e) (he' : e' ∈ rtable) (hm' : e'.Matches dst) :
    prefixLength e'.mask ≤ prefixLength e.mask := by
  obtain ⟨pre, post, rfl, -, hpre, hpost⟩ := h
  rcases List.mem_append.mp he' with he' | he'
  · exact hpre e' he' hm'
  · rcases List.mem_cons.mp he' with rfl | he'
    · exact Nat.le_refl _
    · exact Nat.le_of_lt (hpost e' he' hm')

theorem LongestIn.mem {dst : UInt32} {rtable : List RtEntry} {e : RtEntry} (h : LongestIn dst rtable e) :
    e ∈ rtable ∧ e.Matches dst := by
  obtain ⟨pre, post, rfl, hm, -, -⟩ := h
  exact ⟨by simp, hm⟩

/-- Prefix masks of the same length are the same. -/
theorem IsPrefixMask.eq_of_length {a b : UInt32} (ha : IsPrefixMask a) (hb : IsPrefixMask b)
    (h : prefixLength a = prefixLength b) : a = b :=
  UInt32.le_antisymm ((ha.le_iff hb).mpr (Nat.le_of_eq h)) ((hb.le_iff ha).mpr (Nat.le_of_eq h.symm))

/-- The order of the table decides between matches with the same mask only. -/
theorem longestPrefixMatch_perm {dst : UInt32} {rtable rtable' : List RtEntry}
    (hmask : ∀ e ∈ rtable, IsPrefixMask e.mask) (hp : rtable'.Perm rtable) :
    (longestPrefixMatch rtable' dst).map (·.mask) = (longestPrefixMatch rtable dst).map (·.mask) := by
  have hmask' : ∀ e ∈ rtable', IsPrefixMask e.mask := fun e he => hmask e (hp.mem_iff.mp he)
  have hnone : longestPrefixMatch rtable' dst = none ↔ longestPrefixMatch rtable dst = none := by
    rw [longestPrefixMatch_eq_none, longestPrefixMatch_eq_none]
    exact forall_congr' fun e => by rw [hp.mem_iff]
  cases hr : longestPrefixMatch rtable dst with
  | none => rw [hnone.mpr hr]
  | some e =>
    cases hr' : longestPrefixMatch rtable' dst with
    | none => rw [hnone.mp hr'] at hr; cases hr
    | some e' =>
      have hlong := longestPrefixMatch_eq_some hmask hr
      have hlong' := longestPrefixMatch_eq_some hmask' hr'
      have hle := hlong'.maximal (hp.mem_iff.mpr hlong.mem.1) hlong.mem.2
      have hge := hlong.maximal (hp.mem_iff.mp hlong'.mem.1) hlong'.mem.2
      exact congrArg some ((hmask' e' hlong'.mem.1).eq_of_length (hmask e hlong.mem.1)
        (Nat.le_antisymm hge hle))

/-- **Longest prefix match.** In a table of contiguous masks the lookup finds nothing if and only if no
entry matches; what it finds matches, no match has a longer prefix, and those added later have a shorter
one. A reordering of the table changes the result among the matches with that mask only. -/
theorem longestPrefixMatch_correct (rtable : List RtEntry) (hmask : ∀ e ∈ rtable, IsPrefixMask e.mask)
    (dst : UInt32) :
    (longestPrefixMatch rtable dst = none ↔ ∀ e ∈ rtable, ¬ e.Matches dst) ∧
    (∀ e, longestPrefixMatch rtable dst = some e →
      (∀ e' ∈ rtable, e'.Matches dst → prefixLength e'.mask ≤ prefixLength e.mask) ∧
      ∃ pre post, rtable = pre ++ e :: post ∧ e.Matches dst ∧
        ∀ e' ∈ post, e'.Matches dst → prefixLength e'.mask < prefixLength e.mask) ∧
    ∀ rtable', rtable'.Perm rtable →
      (longestPrefixMatch rtable' dst).map (·.mask) = (longestPrefixMatch rtable dst).map (·.mask) ∧
      ∀ e ∈ longestPrefixMatch rtable' dst, e ∈ rtable ∧ e.Matches dst := by
  refine ⟨longestPrefixMatch_eq_none, fun e he => ?_, fun rtable' hp => ⟨longestPrefixMatch_perm hmask hp, ?_⟩⟩
  · have h := longestPrefixMatch_eq_some hmask he
    refine ⟨fun e' => h.maximal, ?_⟩
    obtain ⟨pre, post, heq, hm, -, hpost⟩ := h
    exact ⟨pre, post, heq, hm, hpost⟩
  · intro e he
    have h := (longestPrefixMatch_eq_some (fun e he => hmask e (hp.mem_iff.mp he)) he).mem
    exact ⟨hp.mem_iff.mp h.1, h.2⟩

/-- Two default routes around a route whose destination has host bits. -/
def Sample.overlapping : List RtEntry :=
  [newRtEntry 0 0 0x0a000201 Sample.eth1, newRtEntry 0x0a00014d 0xffffff00 0 Sample.eth0,
    newRtEntry 0 0 0x0a000202 Sample.eth1]

/-- The network's own addresses take its route, the others the default route that was added last. -/
theorem longestPrefixMatch_correct_overlapping :
    longestPrefixMatch Sample.overlapping 0x0a000105 = some (newRtEntry 0x0a00014d 0xffffff00 0 Sample.eth0) ∧
    (∀ e ∈ Sample.overlapping, e.Matches 0x0a000105 → prefixLength e.mask ≤ 24) ∧
    longestPrefixMatch Sample.overlapping 0x0a000305 = some (newRtEntry 0 0 0x0a000202 Sample.eth1) := by
  have hmask : ∀ e ∈ Sample.overlapping, IsPrefixMask e.mask := by
    intro e he
    simp only [Sample.overlapping, List.mem_cons, List.not_mem_nil, or_false] at he
    rcases he with rfl | rfl | rfl
    · exact ⟨0, by decide, by decide⟩
    · exact ⟨24, by decide, by decide⟩
    · exact ⟨0, by decide, by decide⟩
  have hnet : longestPrefixMatch Sample.overlapping 0x0a000105 =
      some (newRtEntry 0x0a00014d 0xffffff00 0 Sample.eth0) := by decide
  exact ⟨hnet, ((longestPrefixMatch_correct _ hmask 0x0a000105).2.1 _ hnet).1, by decide⟩

end StaticRouter
