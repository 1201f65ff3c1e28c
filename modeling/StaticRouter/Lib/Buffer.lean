import Mathlib.Data.List.Basic
import Mathlib.Tactic.SplitIfs

/-!
# Byte buffers with checked access

A C buffer is the list of its bytes. A read or a write outside it has no meaning in C, so both
return a `Fault` there. Multi-byte fields are kept in network (big-endian) order, or in the order of
a little-endian host.
-/

namespace CMem

/-- Why a C computation has no next state. -/
inductive Fault where
  /-- An access outside a buffer, or through a pointer that points nowhere. -/
  | outOfBounds
  /-- A failed `assert`. -/
  | assertFailed
  /-- The model's own bound on the iterations of a loop is used up. -/
  | outOfFuel
  deriving DecidableEq, Repr

/-- The bytes of a C buffer. -/
abbrev Buffer := List UInt8

/-! ## Computations that may fault -/

theorem bind_ok {ε α β : Type} {x : Except ε α} {f : α → Except ε β} {b : β} :
    x >>= f = .ok b ↔ ∃ a, x = .ok a ∧ f a = .ok b := by
  cases x with
  | error e => simp [bind, Except.bind]
  | ok a => simp [bind, Except.bind]

@[simp] theorem ok_bind {ε α β : Type} (a : α) (f : α → Except ε β) :
    (Except.ok a : Except ε α) >>= f = f a := rfl

@[simp] theorem error_bind {ε α β : Type} (e : ε) (f : α → Except ε β) :
    (Except.error e : Except ε α) >>= f = .error e := rfl

theorem bind_error {ε α β : Type} {x : Except ε α} {f : α → Except ε β} {e : ε}
    (h : x >>= f = .error e) : x = .error e ∨ ∃ a, x = .ok a ∧ f a = .error e := by
  cases x with
  | error e' => exact Or.inl (congrArg _ (Except.error.inj h))
  | ok a => exact Or.inr ⟨a, rfl, h⟩

/-- A fold that ends has made each of its steps. -/
theorem foldlM_ok_mem {ε σ τ : Type} {f : σ → τ → Except ε σ} {xs : List τ} {s r : σ}
    (h : xs.foldlM f s = .ok r) {x : τ} (hx : x ∈ xs) : ∃ s s', f s x = .ok s' := by
  induction xs generalizing s with
  | nil => cases hx
  | cons y xs ih =>
    rw [List.foldlM_cons, bind_ok] at h
    obtain ⟨s₁, h₁, h⟩ := h
    rcases List.mem_cons.mp hx with rfl | hx
    · exact ⟨s, s₁, h₁⟩
    · exact ih h hx

/-- A step that faults, if it does, outside a buffer, before a rest that always does. -/
theorem bind_outOfBounds {α β : Type} {x : Except Fault α} {f : α → Except Fault β}
    (hx : ∀ e, x = .error e → e = .outOfBounds) (hf : ∀ a, x = .ok a → f a = .error .outOfBounds) :
    x >>= f = .error .outOfBounds := by
  cases x with
  | error e => rw [error_bind, hx e rfl]
  | ok a => exact hf a rfl

theorem toOption_eq_some {ε α : Type} {x : Except ε α} {a : α} : x.toOption = some a ↔ x = .ok a := by
  cases x <;> simp [Except.toOption]

@[simp] theorem pure_ok {ε α : Type} {a b : α} : (pure a : Except ε α) = .ok b ↔ a = b := by
  simp [pure, Except.pure]

namespace Buffer

/-- The `n` bytes from offset `off` on. -/
def slice (b : Buffer) (off n : Nat) : Buffer := (b.drop off).take n

/-- The buffer `b` with the bytes from offset `off` on replaced by `bs`. -/
def splice (b : Buffer) (off : Nat) (bs : List UInt8) : Buffer :=
  b.take off ++ bs ++ b.drop (off + bs.length)

/-- Read `n` bytes at offset `off`. -/
def read (b : Buffer) (off n : Nat) : Except Fault (List UInt8) :=
  if off + n ≤ b.length then .ok (b.slice off n) else .error .outOfBounds

/-- Write the bytes `bs` at offset `off`. -/
def write (b : Buffer) (off : Nat) (bs : List UInt8) : Except Fault Buffer :=
  if off + bs.length ≤ b.length then .ok (b.splice off bs) else .error .outOfBounds

/-- The number that the bytes spell in network order. -/
def beNat (bs : List UInt8) : Nat := bs.foldl (fun n b => n * 256 + b.toNat) 0

/-- A `u16` in network order. -/
def be16 (x : UInt16) : List UInt8 := [.ofNat (x.toNat / 256), .ofNat x.toNat]

/-- A `u32` in network order. -/
def be32 (x : UInt32) : List UInt8 :=
  [.ofNat (x.toNat / 16777216), .ofNat (x.toNat / 65536), .ofNat (x.toNat / 256), .ofNat x.toNat]

/-- A `u16` as a little-endian host stores it. -/
def le16 (x : UInt16) : List UInt8 := [.ofNat x.toNat, .ofNat (x.toNat / 256)]

/-- Read one byte. -/
def readU8 (b : Buffer) (off : Nat) : Except Fault UInt8 :=
  (b.read off 1).map fun bs => .ofNat (beNat bs)

/-- Read a `u16` field and convert it to host order (`ntohs`). -/
def readU16 (b : Buffer) (off : Nat) : Except Fault UInt16 :=
  (b.read off 2).map fun bs => .ofNat (beNat bs)

/-- Read a `u32` field and convert it to host order (`ntohl`). -/
def readU32 (b : Buffer) (off : Nat) : Except Fault UInt32 :=
  (b.read off 4).map fun bs => .ofNat (beNat bs)

/-- The number that the bytes spell on a little-endian host. -/
def leNat (bs : List UInt8) : Nat := bs.foldr (fun b n => b.toNat + 256 * n) 0

/-- A `u32` as a little-endian host stores it. -/
def le32 (x : UInt32) : List UInt8 :=
  [.ofNat x.toNat, .ofNat (x.toNat / 256), .ofNat (x.toNat / 65536), .ofNat (x.toNat / 16777216)]

/-- Read a `u16` field of the host. -/
def readLe16 (b : Buffer) (off : Nat) : Except Fault UInt16 :=
  (b.read off 2).map fun bs => .ofNat (leNat bs)

/-- Read a `u32` field of the host. -/
def readLe32 (b : Buffer) (off : Nat) : Except Fault UInt32 :=
  (b.read off 4).map fun bs => .ofNat (leNat bs)

/-! ## Slices and splices -/

@[simp] theorem length_be16 (x : UInt16) : (be16 x).length = 2 := rfl
@[simp] theorem length_be32 (x : UInt32) : (be32 x).length = 4 := rfl
@[simp] theorem length_le16 (x : UInt16) : (le16 x).length = 2 := rfl
@[simp] theorem length_le32 (x : UInt32) : (le32 x).length = 4 := rfl

theorem length_slice {b : Buffer} {off n : Nat} (h : off + n ≤ b.length) :
    (b.slice off n).length = n := by
  simp [slice]; omega

theorem length_splice {b : Buffer} {off : Nat} {bs : List UInt8}
    (h : off + bs.length ≤ b.length) : (b.splice off bs).length = b.length := by
  simp [splice]; omega

theorem length_slice_le (b : Buffer) (off n : Nat) : (b.slice off n).length ≤ n :=
  List.length_take_le n _

theorem getElem?_slice (b : Buffer) (off n k : Nat) :
    (b.slice off n)[k]? = if k < n then b[off + k]? else none := by
  simp only [slice, List.getElem?_take, List.getElem?_drop]

/-- A splice changes the bytes it covers and no others. -/
theorem getElem?_splice {b : Buffer} {off : Nat} {bs : List UInt8}
    (h : off + bs.length ≤ b.length) (k : Nat) :
    (b.splice off bs)[k]? =
      if off ≤ k ∧ k < off + bs.length then bs[k - off]? else b[k]? := by
  have hlen : (b.take off).length = off := by simp; omega
  rw [splice, List.append_assoc, List.getElem?_append, hlen]
  by_cases hk : k < off
  · simp [hk, Nat.not_le.mpr hk]
  · rw [if_neg hk, List.getElem?_append]
    by_cases hk2 : k - off < bs.length
    · rw [if_pos hk2, if_pos ⟨by omega, by omega⟩]
    · rw [if_neg hk2, if_neg (by omega), List.getElem?_drop]
      congr 1; omega

/-- Reading bytes that a splice does not cover. -/
theorem slice_splice_of_disjoint {b : Buffer} {off : Nat} {bs : List UInt8}
    (h : off + bs.length ≤ b.length) {o n : Nat} (hd : o + n ≤ off ∨ off + bs.length ≤ o) :
    (b.splice off bs).slice o n = b.slice o n := by
  apply List.ext_getElem?
  intro k
  rw [getElem?_slice, getElem?_slice]
  split_ifs with hk
  · rw [getElem?_splice h, if_neg (by omega)]
  · rfl

/-- Reading back exactly the bytes that a splice wrote. -/
theorem slice_splice_self {b : Buffer} {off : Nat} {bs : List UInt8}
    (h : off + bs.length ≤ b.length) : (b.splice off bs).slice off bs.length = bs := by
  apply List.ext_getElem?
  intro k
  rw [getElem?_slice]
  split_ifs with hk
  · rw [getElem?_splice h, if_pos ⟨by omega, by omega⟩]
    congr 1; omega
  · exact (List.getElem?_eq_none (by omega)).symm

theorem slice_slice (b : Buffer) {off n i m : Nat} (h : i + m ≤ n) :
    (b.slice off n).slice i m = b.slice (off + i) m := by
  apply List.ext_getElem?
  intro k
  rw [getElem?_slice, getElem?_slice, getElem?_slice]
  by_cases hk : k < m
  · rw [if_pos hk, if_pos hk, if_pos (by omega), Nat.add_assoc]
  · rw [if_neg hk, if_neg hk]

/-- Two neighbouring slices. -/
theorem slice_add (b : Buffer) (off m n : Nat) : b.slice off (m + n) = b.slice off m ++ b.slice (off + m) n := by
  rw [slice, List.take_add, List.drop_drop]
  rfl

/-- Part of a slice whose bytes are known. -/
theorem slice_of_slice {b : Buffer} {off n : Nat} {bs : List UInt8} (hb : b.slice off n = bs)
    (i : Nat) {m : Nat} (h : i + m ≤ n) : b.slice (off + i) m = slice bs i m := by
  rw [← hb, slice_slice b h]

/-- A slice around the bytes that a splice wrote. -/
theorem slice_splice_around {b : Buffer} {off o n : Nat} {bs : List UInt8} (hb : o + bs.length ≤ b.length)
    (ho : off ≤ o) (hn : o + bs.length ≤ off + n) : (b.splice o bs).slice off n =
      b.slice off (o - off) ++ (bs ++ b.slice (o + bs.length) (off + n - (o + bs.length))) := by
  have hlen : (b.slice off (o - off)).length = o - off := length_slice (by omega)
  apply List.ext_getElem?
  intro k
  rw [getElem?_slice, getElem?_splice hb, List.getElem?_append, hlen, List.getElem?_append,
    getElem?_slice, getElem?_slice]
  by_cases h₁ : k < o - off
  · rw [if_pos (by omega), if_neg (by omega), if_pos h₁, if_pos h₁]
  · rw [if_neg h₁]
    by_cases h₂ : k - (o - off) < bs.length
    · rw [if_pos (by omega), if_pos (by omega), if_pos h₂]
      congr 1; omega
    · rw [if_neg h₂]
      by_cases h₃ : k < n
      · rw [if_pos h₃, if_neg (by omega), if_pos (by omega)]
        congr 1; omega
      · rw [if_neg h₃, if_neg (by omega)]

/-- The bytes between a prefix and a suffix. -/
theorem slice_append {pre bs post : Buffer} {off n : Nat} (ho : pre.length = off) (hn : bs.length = n) :
    (pre ++ (bs ++ post)).slice off n = bs := by
  rw [slice, List.drop_left' ho, List.take_left' hn]

/-! ## Reads and writes that stay inside the buffer -/

theorem read_ok {b : Buffer} {off n : Nat} {bs : List UInt8} :
    b.read off n = .ok bs ↔ off + n ≤ b.length ∧ bs = b.slice off n := by
  unfold read
  split_ifs with h
  · simp [h, eq_comm]
  · simp [h]

theorem write_ok {b b' : Buffer} {off : Nat} {bs : List UInt8} :
    b.write off bs = .ok b' ↔ off + bs.length ≤ b.length ∧ b' = b.splice off bs := by
  unfold write
  split_ifs with h
  · simp [h, eq_comm]
  · simp [h]

theorem length_write {b b' : Buffer} {off : Nat} {bs : List UInt8} (h : b.write off bs = .ok b') :
    b'.length = b.length := by
  obtain ⟨hb, rfl⟩ := write_ok.mp h
  exact length_splice hb

theorem exists_read {b : Buffer} (off n : Nat) (h : off + n ≤ b.length) :
    ∃ bs, b.read off n = .ok bs ∧ bs.length = n :=
  ⟨_, read_ok.mpr ⟨h, rfl⟩, length_slice h⟩

theorem exists_write {b : Buffer} (off : Nat) (bs : List UInt8) (h : off + bs.length ≤ b.length) :
    ∃ b', b.write off bs = .ok b' ∧ b'.length = b.length :=
  ⟨_, write_ok.mpr ⟨h, rfl⟩, length_splice h⟩

/-- The only fault of a read. -/
theorem read_error {b : Buffer} {off n : Nat} {e : Fault} (h : b.read off n = .error e) :
    e = .outOfBounds := by
  unfold read at h
  split_ifs at h
  exact (Except.error.inj h).symm

/-- The only fault of a write. -/
theorem write_error {b : Buffer} {off : Nat} {bs : List UInt8} {e : Fault}
    (h : b.write off bs = .error e) : e = .outOfBounds := by
  unfold write at h
  split_ifs at h
  exact (Except.error.inj h).symm

/-- A write keeps the bytes that it does not cover. -/
theorem slice_write {b b' : Buffer} {off : Nat} {bs : List UInt8} (h : b.write off bs = .ok b')
    {o n : Nat} (hd : o + n ≤ off ∨ off + bs.length ≤ o) : b'.slice o n = b.slice o n := by
  obtain ⟨hb, rfl⟩ := write_ok.mp h
  exact slice_splice_of_disjoint hb hd

/-- A write puts its bytes where it says. -/
theorem slice_write_self {b b' : Buffer} {off : Nat} {bs : List UInt8} (h : b.write off bs = .ok b') :
    b'.slice off bs.length = bs := by
  obtain ⟨hb, rfl⟩ := write_ok.mp h
  exact slice_splice_self hb

/-- What follows the start of the bytes that a write puts in. -/
theorem drop_write_self {b b' : Buffer} {off : Nat} {bs : List UInt8} (h : b.write off bs = .ok b') :
    b'.drop off = bs ++ b.drop (off + bs.length) := by
  obtain ⟨hb, rfl⟩ := write_ok.mp h
  have hlen : (b.take off).length = off := List.length_take_of_le (by omega)
  rw [splice, List.append_assoc, List.drop_left' hlen]

/-- What follows the bytes that a write puts in. -/
theorem drop_write {b b' : Buffer} {off k : Nat} {bs : List UInt8} (h : b.write off bs = .ok b')
    (hk : off + bs.length ≤ k) : b'.drop k = b.drop k := by
  obtain ⟨i, rfl⟩ := Nat.exists_eq_add_of_le hk
  rw [Nat.add_assoc, ← List.drop_drop, drop_write_self h, List.drop_length_add_append, List.drop_drop,
    Nat.add_assoc]

/-- A slice around the bytes that a write puts in. -/
theorem slice_write_around {b b' : Buffer} {off o n : Nat} {bs : List UInt8} (h : b.write o bs = .ok b')
    (ho : off ≤ o) (hn : o + bs.length ≤ off + n) : b'.slice off n =
      b.slice off (o - off) ++ (bs ++ b.slice (o + bs.length) (off + n - (o + bs.length))) := by
  obtain ⟨hb, rfl⟩ := write_ok.mp h
  exact slice_splice_around hb ho hn

/-- A write keeps each byte that it does not cover. -/
theorem getElem?_write {b b' : Buffer} {off : Nat} {bs : List UInt8} (h : b.write off bs = .ok b')
    {k : Nat} (hk : k < off ∨ off + bs.length ≤ k) : b'[k]? = b[k]? := by
  obtain ⟨hb, rfl⟩ := write_ok.mp h
  rw [getElem?_splice hb, if_neg (by omega)]

theorem map_ok {ε α β : Type} {x : Except ε α} {f : α → β} {b : β} :
    x.map f = .ok b ↔ ∃ a, x = .ok a ∧ f a = b := by
  cases x with
  | error e => simp [Except.map]
  | ok a => simp [Except.map]

theorem map_error {ε α β : Type} {x : Except ε α} {f : α → β} {e : ε} :
    x.map f = .error e ↔ x = .error e := by
  cases x with
  | error e => simp [Except.map]
  | ok a => simp [Except.map]

theorem readU8_ok {b : Buffer} {off : Nat} {x : UInt8} :
    b.readU8 off = .ok x ↔ off + 1 ≤ b.length ∧ x = .ofNat (beNat (b.slice off 1)) := by
  simp only [readU8, map_ok, read_ok]
  constructor
  · rintro ⟨bs, ⟨h, rfl⟩, rfl⟩; exact ⟨h, rfl⟩
  · rintro ⟨h, rfl⟩; exact ⟨_, ⟨h, rfl⟩, rfl⟩

theorem readU16_ok {b : Buffer} {off : Nat} {x : UInt16} :
    b.readU16 off = .ok x ↔ off + 2 ≤ b.length ∧ x = .ofNat (beNat (b.slice off 2)) := by
  simp only [readU16, map_ok, read_ok]
  constructor
  · rintro ⟨bs, ⟨h, rfl⟩, rfl⟩; exact ⟨h, rfl⟩
  · rintro ⟨h, rfl⟩; exact ⟨_, ⟨h, rfl⟩, rfl⟩

theorem readU32_ok {b : Buffer} {off : Nat} {x : UInt32} :
    b.readU32 off = .ok x ↔ off + 4 ≤ b.length ∧ x = .ofNat (beNat (b.slice off 4)) := by
  simp only [readU32, map_ok, read_ok]
  constructor
  · rintro ⟨bs, ⟨h, rfl⟩, rfl⟩; exact ⟨h, rfl⟩
  · rintro ⟨h, rfl⟩; exact ⟨_, ⟨h, rfl⟩, rfl⟩

/-! ## Encoding and decoding -/

@[simp] theorem ofNat_beNat_be16 (x : UInt16) : UInt16.ofNat (beNat (be16 x)) = x := by
  apply UInt16.toNat_inj.mp
  have := x.toNat_lt
  simp [beNat, be16]; omega

theorem beNat_be16 (x : UInt16) : beNat (be16 x) = x.toNat := by
  have := x.toNat_lt
  simp [beNat, be16]; omega

@[simp] theorem ofNat_beNat_be32 (x : UInt32) : UInt32.ofNat (beNat (be32 x)) = x := by
  apply UInt32.toNat_inj.mp
  have := x.toNat_lt
  simp [beNat, be32]; omega

@[simp] theorem leNat_le16 (x : UInt16) : leNat (le16 x) = x.toNat := by
  have := x.toNat_lt
  simp [leNat, le16]; omega

@[simp] theorem leNat_le32 (x : UInt32) : leNat (le32 x) = x.toNat := by
  have := x.toNat_lt
  simp [leNat, le32]; omega

/-! ## Reads in the middle of a buffer -/

/-- A read inside the bytes `bs` depends on these bytes. -/
theorem read_within {pre bs post : Buffer} {i n : Nat} (h : i + n ≤ bs.length) :
    read (pre ++ (bs ++ post)) (pre.length + i) n = bs.read i n := by
  have hslice : slice (pre ++ (bs ++ post)) (pre.length + i) n = bs.slice i n := by
    rw [← slice_slice _ (n := bs.length) h, slice_append rfl rfl]
  unfold read
  rw [if_pos h, if_pos (by simp only [List.length_append]; omega), hslice]

theorem readU8_within {pre bs post : Buffer} {i : Nat} (h : i + 1 ≤ bs.length) :
    readU8 (pre ++ (bs ++ post)) (pre.length + i) = bs.readU8 i := by
  rw [readU8, read_within h]
  rfl

theorem readU32_within {pre bs post : Buffer} {i : Nat} (h : i + 4 ≤ bs.length) :
    readU32 (pre ++ (bs ++ post)) (pre.length + i) = bs.readU32 i := by
  rw [readU32, read_within h]
  rfl

theorem readLe16_within {pre bs post : Buffer} {i : Nat} (h : i + 2 ≤ bs.length) :
    readLe16 (pre ++ (bs ++ post)) (pre.length + i) = bs.readLe16 i := by
  rw [readLe16, read_within h]
  rfl

theorem readLe32_within {pre bs post : Buffer} {i : Nat} (h : i + 4 ≤ bs.length) :
    readLe32 (pre ++ (bs ++ post)) (pre.length + i) = bs.readLe32 i := by
  rw [readLe32, read_within h]
  rfl

/-- A read in front of other bytes. -/
theorem readLe16_prefix {bs post : Buffer} {i : Nat} (h : i + 2 ≤ bs.length) :
    readLe16 (bs ++ post) i = bs.readLe16 i := by
  have hread : readLe16 ([] ++ (bs ++ post)) (([] : Buffer).length + i) = bs.readLe16 i := readLe16_within h
  rwa [List.length_nil, Nat.zero_add] at hread

/-- A field that stands where it is read. -/
theorem read_field {pre bs post : Buffer} {off n : Nat} (hoff : pre.length = off) (hn : bs.length = n) :
    read (pre ++ (bs ++ post)) off n = .ok bs := by
  rw [read_ok]
  refine ⟨?_, (slice_append hoff hn).symm⟩
  simp only [List.length_append]
  omega

theorem readU8_field {pre post : Buffer} {x : UInt8} {off : Nat} (hoff : pre.length = off) :
    readU8 (pre ++ ([x] ++ post)) off = .ok x := by
  rw [readU8, read_field hoff (List.length_singleton : [x].length = 1)]
  simp [Except.map, beNat]

theorem readLe16_field {pre post : Buffer} {x : UInt16} {off : Nat} (hoff : pre.length = off) :
    readLe16 (pre ++ (le16 x ++ post)) off = .ok x := by
  rw [readLe16, read_field hoff (length_le16 x)]
  simp [Except.map]

theorem readLe32_field {pre post : Buffer} {x : UInt32} {off : Nat} (hoff : pre.length = off) :
    readLe32 (pre ++ (le32 x ++ post)) off = .ok x := by
  rw [readLe32, read_field hoff (length_le32 x)]
  simp [Except.map]

end Buffer

/-! ## Computations that do not run out of fuel -/

/-- The computation does not end for want of rounds of a loop. -/
def Prompt {α : Type} (x : Except Fault α) : Prop := x ≠ .error .outOfFuel

end CMem
