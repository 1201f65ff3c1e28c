import StaticRouter.Ip
import StaticRouter.Lib.OnesComplement

/-!
# Proofs: checksums

`checksum` computes the complement of the ones'-complement sum, so a header or a message with its
checksum in place sums up to all ones: `checksum` over it returns zero.
-/

namespace StaticRouter

open CMem OnesComplement

theorem checksumLoop_toNat (bytes : List UInt8) (acc : UInt32) :
    (checksumLoop bytes acc).toNat = (acc.toNat + wordSum bytes) % 2 ^ 32 := by
  induction bytes, acc using checksumLoop.induct with
  | case1 lo hi rest acc ih =>
    have h₁ := lo.toNat_lt
    have h₂ := hi.toNat_lt
    have hw : (UInt32.ofNat (lo.toNat + 256 * hi.toNat)).toNat = lo.toNat + 256 * hi.toNat :=
      UInt32.toNat_ofNat_of_lt (Nat.lt_of_lt_of_le (by omega : _ < 65536) (by decide))
    rw [checksumLoop, ih, UInt32.toNat_add, hw, wordSum]
    omega
  | case2 bytes acc hne =>
    have := acc.toNat_lt
    rw [checksumLoop, wordSum]
    · omega
    · exact fun lo hi rest he => hne lo hi rest he
    · exact fun lo hi rest he => hne lo hi rest he

/-- The result of `checksum` over some whole words. -/
theorem checksum_eq {bytes : List UInt8} (he : bytes.length % 2 = 0) (hs : wordSum bytes < 2 ^ 32) :
    checksum bytes 0 = .ok (.ofNat (65535 - fold (wordSum bytes))) := by
  have hsum : (checksumLoop bytes 0).toNat = wordSum bytes := by
    rw [checksumLoop_toNat, UInt32.toNat_zero, Nat.zero_add, Nat.mod_eq_of_lt hs]
  have hand : ∀ x : UInt32, (x &&& 0xffff).toNat = x.toNat % 65536 := fun x => by
    rw [UInt32.toNat_and]
    exact Nat.and_two_pow_sub_one_eq_mod x.toNat 16
  have hshift : ∀ x : UInt32, (x >>> 16).toNat = x.toNat / 65536 := fun x => by
    rw [UInt32.toNat_shiftRight]
    exact Nat.shiftRight_eq_div_pow x.toNat 16
  have ht : ((checksumLoop bytes 0 >>> 16) + (checksumLoop bytes 0 &&& 0xffff)).toNat =
      wordSum bytes / 65536 + wordSum bytes % 65536 := by
    rw [UInt32.toNat_add, hshift, hand, hsum]
    omega
  have hlt := fold_lt (wordSum bytes)
  rw [checksum, if_pos he]
  refine congrArg Except.ok (UInt16.toNat_inj.mp ?_)
  have hfold : fold (wordSum bytes) = (wordSum bytes / 65536 + wordSum bytes % 65536 +
      (wordSum bytes / 65536 + wordSum bytes % 65536) / 65536) % 65536 := rfl
  rw [UInt32.toNat_toUInt16, UInt32.toNat_not, UInt32.toNat_add, hshift, ht, UInt16.toNat_ofNat']
  simp only [UInt32.size]
  omega

/-- `checksum` refuses an odd number of bytes. -/
theorem checksum_even {bytes : List UInt8} {sum : UInt32} {c : UInt16} (h : checksum bytes sum = .ok c) :
    bytes.length % 2 = 0 := by
  unfold checksum at h
  split_ifs at h with he
  exact he

/-- The bytes are `pre` and `post` around their checksum. -/
def Checked (pre post bytes : List UInt8) : Prop :=
  ∃ c, checksum (pre ++ ([0, 0] ++ post)) 0 = .ok c ∧ bytes = pre ++ (Buffer.le16 c ++ post)

namespace Checked

variable {pre post bytes : List UInt8}

/-- Bytes around the same pieces are the same. -/
theorem unique {bytes' : List UInt8} (h : Checked pre post bytes) (h' : Checked pre post bytes') :
    bytes = bytes' := by
  obtain ⟨c, hc, rfl⟩ := h
  obtain ⟨c', hc', rfl⟩ := h'
  rw [Except.ok.inj (hc.symm.trans hc')]

/-- Whole words with their checksum in place sum up to all ones. -/
theorem verifies (h : Checked pre post bytes) (hpre : pre.length % 2 = 0)
    (hlen : pre.length + post.length ≤ 131068) : Verifies bytes := by
  obtain ⟨c, hc, rfl⟩ := h
  have heven := checksum_even hc
  have hzero : wordSum (pre ++ ([0, 0] ++ post)) = wordSum pre + wordSum post := by
    rw [wordSum_append hpre, wordSum_append rfl]
    simp [wordSum]
  have hsum : wordSum (pre ++ (Buffer.le16 c ++ post)) = wordSum pre + wordSum post + c.toNat := by
    have := c.toNat_lt
    rw [wordSum_append hpre, wordSum_append (by simp)]
    simp only [Buffer.le16, wordSum, UInt8.toNat_ofNat']
    omega
  have hle₁ := wordSum_le pre
  have hle₂ := wordSum_le post
  have hfold := fold_lt (wordSum pre + wordSum post)
  rw [checksum_eq heven (by rw [hzero]; omega), hzero, Except.ok.injEq] at hc
  have hcn : c.toNat = 65535 - fold (wordSum pre + wordSum post) := by
    rw [← hc, UInt16.toNat_ofNat']
    omega
  rw [Verifies, hsum, hcn]
  exact fold_add_complement (by omega)

/-- A checksum over some bytes of a packet is computed with its field zeroed, and stored there. -/
theorem of_write {p zeroed q : Frame} {off n field : Nat} {c : UInt16}
    (hz : p.write field [0, 0] = .ok zeroed) (hr : zeroed.read off n = .ok bytes)
    (hc : checksum bytes 0 = .ok c) (hq : p.write field (Buffer.le16 c) = .ok q) (hoff : off ≤ field)
    (hn : field + 2 ≤ off + n) :
    Checked (p.slice off (field - off)) (p.slice (field + 2) (off + n - (field + 2))) (q.slice off n) := by
  obtain ⟨-, rfl⟩ := Buffer.read_ok.mp hr
  rw [Buffer.slice_write_around hz hoff hn] at hc
  exact ⟨c, hc, Buffer.slice_write_around hq hoff hn⟩

end Checked

/-- `checksum` over words that sum up to all ones returns zero. -/
theorem checksum_eq_zero {bytes : List UInt8} (he : bytes.length % 2 = 0) (hs : bytes.length ≤ 131070)
    (hv : Verifies bytes) : checksum bytes 0 = .ok 0 := by
  have hle := wordSum_le bytes
  rw [checksum_eq he (by omega), hv]
  rfl

end StaticRouter
