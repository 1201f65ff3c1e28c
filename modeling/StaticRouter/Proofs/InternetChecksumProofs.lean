import StaticRouter.Endian
import StaticRouter.Proofs.ChecksumProofs

/-!
# Proofs: the Internet checksum

`checksum` is the complement of the ones'-complement sum of the words, and the bytes that a host stores do
not depend on its byte order.
-/

namespace StaticRouter

open CMem OnesComplement

/-! ## The folding steps -/

theorem foldStep_toNat {s : UInt32} : (foldStep s).toNat = s.toNat / 65536 + s.toNat % 65536 := by
  have hand : (s &&& 0xffff).toNat = s.toNat % 65536 := by
    rw [UInt32.toNat_and]
    exact Nat.and_two_pow_sub_one_eq_mod s.toNat 16
  have hshift : (s >>> 16).toNat = s.toNat / 65536 := by
    rw [UInt32.toNat_shiftRight]
    exact Nat.shiftRight_eq_div_pow s.toNat 16
  have hs := s.toNat_lt
  rw [foldStep, UInt32.toNat_add, hshift, hand]
  omega

/-- The second step loses no carry: one more step would not change its low half. -/
theorem foldStep_foldStep_lt (s : UInt32) : (foldStep (foldStep s)).toNat < 65536 := by
  have hs := s.toNat_lt
  rw [foldStep_toNat, foldStep_toNat]
  omega

/-! ## Byte order -/

/-- A big-endian host reads the words that a little-endian host reads in the byte-swapped buffer. -/
theorem checksumLoopBig_eq (bytes : List UInt8) (sum : UInt32) :
    checksumLoopBig bytes sum = checksumLoop (swapWords bytes) sum := by
  induction bytes, sum using checksumLoopBig.induct with
  | case1 hi lo rest sum ih =>
    rw [checksumLoopBig, swapWords, checksumLoop, ih, Nat.add_comm]
  | case2 bytes sum hne =>
    have hs : swapWords bytes = bytes := by
      unfold swapWords
      split
      · exact absurd rfl (hne _ _ _)
      · rfl
    rw [hs, checksumLoopBig, checksumLoop]
    · exact fun lo hi rest he => hne lo hi rest he
    · exact fun hi lo rest he => hne hi lo rest he

theorem checksumBig_eq (bytes : List UInt8) (sum : UInt32) :
    checksumBig bytes sum = checksum (swapWords bytes) sum := by
  unfold checksumBig checksum
  rw [length_swapWords, checksumLoopBig_eq]

theorem swap16_toNat (x : UInt16) : (swap16 x).toNat = swap x.toNat := by
  obtain ⟨hlt, -, -⟩ := swap_spec x.toNat_lt
  rw [swap16, UInt16.toNat_ofNat']
  exact Nat.mod_eq_of_lt hlt

/-- The byte-swapped word has its bytes in the other order. -/
theorem be16_swap16 (x : UInt16) : Buffer.be16 (swap16 x) = Buffer.le16 x := by
  have hx := x.toNat_lt
  have hdiv : (256 * (x.toNat % 256) + x.toNat / 256) / 256 = x.toNat % 256 := by
    rw [Nat.mul_add_div (by decide), Nat.div_eq_of_lt (by omega), Nat.add_zero]
  simp only [Buffer.be16, Buffer.le16, swap16_toNat, swap, hdiv, List.cons.injEq, and_true]
  constructor <;> apply UInt8.toNat_inj.mp <;> rw [UInt8.toNat_ofNat', UInt8.toNat_ofNat'] <;> omega

/-- Computing on byte-swapped words yields the byte-swapped checksum. -/
theorem checksum_swapWords {bytes : List UInt8} (he : bytes.length % 2 = 0) (hl : bytes.length ≤ 65534)
    {c : UInt16} (hc : checksum bytes 0 = .ok c) : checksum (swapWords bytes) 0 = .ok (swap16 c) := by
  have hle := wordSum_le bytes
  have hle' := wordSum_le (swapWords bytes)
  have hlen := length_swapWords bytes
  rw [checksum_eq he (by omega), Except.ok.injEq] at hc
  rw [checksum_eq (by omega) (by omega), fold_swapWords (by omega) (by omega)]
  refine congrArg Except.ok (UInt16.toNat_inj.mp ?_)
  have hlt := fold_lt (wordSum bytes)
  have hcn : c.toNat = 65535 - fold (wordSum bytes) := by
    rw [← hc, UInt16.toNat_ofNat']
    exact Nat.mod_eq_of_lt (by omega)
  rw [swap_complement hlt, swap16_toNat, hcn, UInt16.toNat_ofNat']
  exact Nat.mod_eq_of_lt (swap_spec (by omega)).1

/-! ## The checksum in its field -/

/-- **The Internet checksum.** Over an even number of bytes, 65534 at most, the accumulator does not
overflow, the folding steps lose no carry, and the result is the complement of the ones'-complement sum of
the words. Stored in an aligned field of zeros it makes the checksum of the whole zero, and a big-endian
host, which computes on byte-swapped words and gets the byte-swapped checksum, stores the same bytes. -/
theorem checksum_internet {bytes : List UInt8} (he : bytes.length % 2 = 0) (hl : bytes.length ≤ 65534) :
    (checksumLoop bytes 0).toNat = (words bytes).sum ∧
    (foldStep (foldStep (checksumLoop bytes 0))).toNat < 65536 ∧
    ∃ c, checksum bytes 0 = .ok c ∧
      c.toNat = 65535 - (foldStep (foldStep (checksumLoop bytes 0))).toNat ∧
      c.toNat = 65535 - onesSum (words bytes) ∧
      (∀ pre post, bytes = pre ++ ([0, 0] ++ post) → pre.length % 2 = 0 →
        checksum (pre ++ (Buffer.le16 c ++ post)) 0 = .ok 0) ∧
      checksum (swapWords bytes) 0 = .ok (swap16 c) ∧
      ∃ cBig, checksumBig bytes 0 = .ok cBig ∧ Buffer.be16 cBig = Buffer.le16 c := by
  have hle := wordSum_le bytes
  have hsum : (checksumLoop bytes 0).toNat = wordSum bytes := by
    rw [checksumLoop_toNat, UInt32.toNat_zero, Nat.zero_add, Nat.mod_eq_of_lt (by omega)]
  have hfold : (foldStep (foldStep (checksumLoop bytes 0))).toNat = fold (wordSum bytes) := by
    rw [foldStep_toNat, foldStep_toNat, hsum]
    have ht : wordSum bytes / 65536 + wordSum bytes % 65536 ≤ 131070 := by omega
    unfold fold
    generalize wordSum bytes / 65536 + wordSum bytes % 65536 = t at ht ⊢
    show t / 65536 + t % 65536 = (t + t / 65536) % 65536
    omega
  have hlt := fold_lt (wordSum bytes)
  have hc := checksum_eq he (show wordSum bytes < 2 ^ 32 by omega)
  have hcn : (UInt16.ofNat (65535 - fold (wordSum bytes))).toNat = 65535 - fold (wordSum bytes) := by
    rw [UInt16.toNat_ofNat']
    exact Nat.mod_eq_of_lt (by omega)
  have hswap := checksum_swapWords he hl hc
  refine ⟨by rw [hsum, sum_words], foldStep_foldStep_lt _, _, hc, ?_, ?_, ?_, hswap, _,
    (checksumBig_eq bytes 0).trans hswap, be16_swap16 _⟩
  · rw [hcn, hfold]
  · rw [hcn, fold_wordSum (by omega)]
  · intro pre post hb hpre
    have hlen : bytes.length = pre.length + (2 + post.length) := by simp [hb]; omega
    have hv : Verifies (pre ++ (Buffer.le16 (.ofNat (65535 - fold (wordSum bytes))) ++ post)) :=
      Checked.verifies ⟨_, hb ▸ hc, rfl⟩ hpre (by omega)
    refine checksum_eq_zero ?_ ?_ hv <;>
      rw [List.length_append, List.length_append, Buffer.length_le16] <;> omega

/-- The header of an IPv4 packet of 28 bytes from 10.0.1.2 to 10.0.2.2. -/
theorem checksum_internet_header :
    ∃ c, checksum [0x45, 0, 0, 28, 0, 0, 0, 0, 64, 17, 0, 0, 10, 0, 1, 2, 10, 0, 2, 2] 0 = .ok c ∧
      Buffer.le16 c = [0x63, 0xce] ∧
      checksum ([0x45, 0, 0, 28, 0, 0, 0, 0, 64, 17] ++ (Buffer.le16 c ++ [10, 0, 1, 2, 10, 0, 2, 2])) 0 =
        .ok 0 := by
  obtain ⟨-, -, c, hc, -, -, hzero, -⟩ := checksum_internet
    (show [0x45, 0, 0, 28, 0, 0, 0, 0, 64, 17, 0, 0, 10, 0, 1, 2, 10, 0, 2, 2].length % 2 = 0 from rfl) (by decide)
  have hval : checksum [0x45, 0, 0, 28, 0, 0, 0, 0, 64, 17, 0, 0, 10, 0, 1, 2, 10, 0, 2, 2] 0 =
      .ok 0xce63 := by decide
  obtain rfl := Except.ok.inj (hval.symm.trans hc)
  exact ⟨_, hc, by decide, hzero _ _ rfl rfl⟩

end StaticRouter
