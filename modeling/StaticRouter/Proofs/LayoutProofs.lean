import StaticRouter.Proofs.OutcomeProofs

/-!
# Proofs: the bytes of the messages

What every byte of a message holds, from its IP header on: the two regions with a checksum, and the
bytes of the fresh buffer that are left in them.
-/

namespace StaticRouter

open CMem OnesComplement

/-! ## The IP header -/

/-- What `ip_init_hdr` writes in front of the checksum. -/
def headerStart (len id : UInt16) (proto : UInt8) : List UInt8 :=
  [0x45, 0] ++ Buffer.be16 len ++ Buffer.le16 id ++ Buffer.be16 ipDf ++ [defaultTtl, proto]

theorem length_headerStart (len id : UInt16) (proto : UInt8) :
    (headerStart len id proto).length = 10 := rfl

/-- `ip_init_hdr` fills in the header and leaves alone what is behind it. -/
theorem ipInitHdr_layout {packet q : Frame} {src dst : UInt32} {len id : UInt16} {proto : UInt8}
    (h : ipInitHdr packet src dst len proto id = .ok q) :
    Checked (headerStart len id proto) (Buffer.be32 src ++ Buffer.be32 dst)
        (q.slice etherHdrSize iphdrSize) ∧
      ∀ o n, icmpHdr ≤ o → q.slice o n = packet.slice o n := by
  simp only [ipInitHdr, bind_ok] at h
  obtain ⟨p₁, h₁, p₂, h₂, sum, hs, h₃⟩ := h
  have hstart : p₂.slice etherHdrSize 10 = headerStart len id proto := by
    rw [Buffer.slice_write h₂ (Or.inl (by decide))]
    exact Buffer.slice_write_self h₁
  have haddr : p₂.slice ipSaddr 8 = Buffer.be32 src ++ Buffer.be32 dst := Buffer.slice_write_self h₂
  have hihl : readIhl p₂ = .ok 5 := by
    refine readIhl_ok.mpr ⟨0x45, Buffer.readU8_ok.mpr ⟨?_, ?_⟩, rfl⟩
    · rw [Buffer.length_write h₂]
      exact Nat.le_trans (Nat.le_of_ble_eq_true rfl) (Buffer.write_ok.mp h₂).1
    · have hver : p₂.slice ipIhl 1 = [0x45] := Buffer.slice_of_slice hstart 0 (by decide)
      rw [hver]
      rfl
  simp only [ipChecksum, hihl, ok_bind, bind_ok] at hs
  obtain ⟨zeroed, hz, bytes, hb, hc⟩ := hs
  refine ⟨?_, fun o n ho => ?_⟩
  · have hchecked := Checked.of_write hz hb hc h₃ (by decide) (by decide)
    have hpost : p₂.slice (ipCheck + 2) (etherHdrSize + 5 * 4 - (ipCheck + 2)) =
        Buffer.be32 src ++ Buffer.be32 dst := haddr
    rwa [show ipCheck - etherHdrSize = 10 from rfl, hstart, hpost] at hchecked
  · rw [Buffer.slice_write h₃ (Or.inr ?_), Buffer.slice_write h₂ (Or.inr ?_),
      Buffer.slice_write h₁ (Or.inr ?_)]
    all_goals exact Nat.le_trans (Nat.le_of_ble_eq_true rfl) ho

/-! ## The messages -/

/-- The message of an error: its unused field is that of the fresh buffer. -/
theorem icmpError_layout {packet inPkt q : Frame} {src dst : UInt32} {type code : UInt8} {id : UInt16}
    (h : icmpError packet inPkt src dst type code id = .ok q) :
    Checked (headerStart (.ofNat (icmpErrorLen - etherHdrSize)) id 1) (Buffer.be32 src ++ Buffer.be32 dst)
        (q.slice etherHdrSize iphdrSize) ∧
      Checked [type, code] (packet.slice (icmpHdr + 4) 4 ++ inPkt.slice etherHdrSize (iphdrSize + 8))
        (q.slice icmpHdr (icmpErrorLen - icmpHdr)) := by
  simp only [icmpError, icmpChecksum, bind_ok] at h
  obtain ⟨p₁, h₁, p₂, h₂, quoted, hr, p₃, h₃, sum, ⟨zeroed, hz, bytes, hb, hc⟩, h₄⟩ := h
  obtain ⟨hhead, hrest⟩ := ipInitHdr_layout h₁
  obtain ⟨hle, rfl⟩ := Buffer.read_ok.mp hr
  have hlen : (inPkt.slice etherHdrSize (iphdrSize + 8)).length = 28 := Buffer.length_slice hle
  have hself := Buffer.slice_write_self h₃
  rw [hlen] at hself
  refine ⟨?_, ?_⟩
  · rw [Buffer.slice_write h₄ (Or.inl (by decide)), Buffer.slice_write h₃ (Or.inl (by decide)),
      Buffer.slice_write h₂ (Or.inl (by decide))]
    exact hhead
  · have hchecked := Checked.of_write hz hb hc h₄ (by decide) (by decide)
    have hpre : p₃.slice icmpHdr (icmpHdr + 2 - icmpHdr) = [type, code] := by
      rw [Buffer.slice_write h₃ (Or.inl (by decide))]
      exact Buffer.slice_write_self h₂
    have hpost : p₃.slice (icmpHdr + 2 + 2) (icmpHdr + (icmpErrorLen - icmpHdr) - (icmpHdr + 2 + 2)) =
        packet.slice (icmpHdr + 4) 4 ++ inPkt.slice etherHdrSize (iphdrSize + 8) := by
      rw [show icmpHdr + (icmpErrorLen - icmpHdr) - (icmpHdr + 2 + 2) = 4 + 28 from rfl, Buffer.slice_add,
        Buffer.slice_write h₃ (Or.inl (by decide)), Buffer.slice_write h₂ (Or.inr (by simp)),
        hrest _ _ (by decide)]
      exact congrArg _ hself
    rwa [hpre, hpost] at hchecked

/-- The message of an echo reply: its last bytes are those of the fresh buffer, if the request has IP
options. -/
theorem icmpEchoReply_layout {packet inPkt q : Frame} {ihl n : Nat} {src dst : UInt32} {code : UInt8}
    {id : UInt16} (h : icmpEchoReply packet inPkt ihl src dst code id = .ok q)
    (hlen : inPkt.length = etherHdrSize + ihl * 4 + icmphdrSize + n) (h5 : 5 ≤ ihl)
    (hshort : inPkt.length < 2 ^ 64) :
    Checked (headerStart (.ofNat (inPkt.length - etherHdrSize)) id 1) (Buffer.be32 src ++ Buffer.be32 dst)
        (q.slice etherHdrSize iphdrSize) ∧
      Checked [0, code] (inPkt.slice (etherHdrSize + ihl * 4 + 4) 4 ++
          (inPkt.slice (etherHdrSize + ihl * 4 + icmphdrSize) n ++
            packet.slice (icmpHdr + icmphdrSize + n) (ihl * 4 - iphdrSize)))
        (q.slice icmpHdr (inPkt.length - icmpHdr)) := by
  have hle : etherHdrSize + ihl * 4 + icmphdrSize ≤ inPkt.length := by rw [hlen]; exact Nat.le_add_right _ _
  have hsub₁ : sizeSub inPkt.length etherHdrSize = inPkt.length - etherHdrSize :=
    sizeSub_of_le (by simp only [etherHdrSize, icmphdrSize] at *; omega) hshort
  have hsub₂ : sizeSub inPkt.length (etherHdrSize + ihl * 4 + icmphdrSize) = n := by
    rw [sizeSub_of_le hle hshort, hlen, Nat.add_sub_cancel_left]
  have hsub₃ : sizeSub inPkt.length icmpHdr = inPkt.length - icmpHdr :=
    sizeSub_of_le (by simp only [icmpHdr, etherHdrSize, iphdrSize, icmphdrSize] at *; omega) hshort
  simp only [icmpEchoReply, icmpChecksum, bind_ok, hsub₁, hsub₂, hsub₃] at h
  obtain ⟨p₁, h₁, p₂, h₂, idSeq, hi, p₃, h₃, data, hd, p₄, h₄, sum, ⟨zeroed, hz, bytes, hb, hc⟩, h₅⟩ := h
  obtain ⟨hhead, hrest⟩ := ipInitHdr_layout h₁
  obtain ⟨hli, rfl⟩ := Buffer.read_ok.mp hi
  obtain ⟨hld, rfl⟩ := Buffer.read_ok.mp hd
  have hlen₄ := Buffer.length_slice hli
  have hlenₙ := Buffer.length_slice hld
  have hself₃ := Buffer.slice_write_self h₃
  have hself₄ := Buffer.slice_write_self h₄
  rw [hlen₄] at hself₃
  rw [hlenₙ] at hself₄
  refine ⟨?_, ?_⟩
  · rw [Buffer.slice_write h₅ (Or.inl (by decide)), Buffer.slice_write h₄ (Or.inl (by decide)),
      Buffer.slice_write h₃ (Or.inl (by decide)), Buffer.slice_write h₂ (Or.inl (by decide))]
    exact hhead
  · have hsize : icmpHdr + (inPkt.length - icmpHdr) - (icmpHdr + 2 + 2) = 4 + (n + (ihl * 4 - iphdrSize)) := by
      rw [hlen]
      simp only [icmpHdr, etherHdrSize, iphdrSize, icmphdrSize]
      omega
    have hchecked := Checked.of_write hz hb hc h₅ (by decide)
      (by simp only [icmpHdr, etherHdrSize, iphdrSize, icmphdrSize] at *; omega)
    have hpre : p₄.slice icmpHdr (icmpHdr + 2 - icmpHdr) = [0, code] := by
      rw [Buffer.slice_write h₄ (Or.inl (by decide)), Buffer.slice_write h₃ (Or.inl (by decide))]
      exact Buffer.slice_write_self h₂
    have htail : p₄.slice (icmpHdr + icmphdrSize + n) (ihl * 4 - iphdrSize) =
        packet.slice (icmpHdr + icmphdrSize + n) (ihl * 4 - iphdrSize) := by
      rw [Buffer.slice_write h₄ (Or.inr (by rw [hlenₙ])), Buffer.slice_write h₃ (Or.inr ?_),
        Buffer.slice_write h₂ (Or.inr ?_), hrest _ _ ?_]
      · simp only [icmpHdr, etherHdrSize, iphdrSize, icmphdrSize]; omega
      · simp only [icmpHdr, etherHdrSize, iphdrSize, icmphdrSize, List.length_cons, List.length_nil]; omega
      · rw [hlen₄]; simp only [icmpHdr, etherHdrSize, iphdrSize, icmphdrSize]; omega
    have hpost : p₄.slice (icmpHdr + 2 + 2) (4 + (n + (ihl * 4 - iphdrSize))) =
        inPkt.slice (etherHdrSize + ihl * 4 + 4) 4 ++
          (inPkt.slice (etherHdrSize + ihl * 4 + icmphdrSize) n ++
            packet.slice (icmpHdr + icmphdrSize + n) (ihl * 4 - iphdrSize)) := by
      rw [Buffer.slice_add, Buffer.slice_add, Buffer.slice_write h₄ (Or.inl (by decide))]
      exact congrArg₂ _ hself₃ (congrArg₂ _ hself₄ htail)
    rwa [hpre, hsize, hpost] at hchecked

end StaticRouter
