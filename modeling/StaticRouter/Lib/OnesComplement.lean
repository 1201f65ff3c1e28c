import Mathlib.Algebra.GroupWithZero.Nat
import Mathlib.Data.List.Basic
import Mathlib.Tactic.SplitIfs

/-!
# Sums of 16-bit words in ones' complement

A ones'-complement sum adds the carries back in. The checksum of some words is the complement of their
sum, so the sum of the words together with their checksum is all ones.
-/

namespace OnesComplement

/-- The sum of the 16-bit words that the bytes spell, low byte first; a last odd byte is left out. -/
def wordSum : List UInt8 → Nat
  | lo :: hi :: rest => lo.toNat + 256 * hi.toNat + wordSum rest
  | _ => 0

/-- Add the carries of a 32-bit sum back into its low 16 bits, twice. -/
def fold (s : Nat) : Nat :=
  let t := s / 65536 + s % 65536
  (t + t / 65536) % 65536

/-- The ones'-complement sum of the words is all ones: a checksum among them is right. -/
def Verifies (bytes : List UInt8) : Prop := fold (wordSum bytes) = 65535

instance (bytes : List UInt8) : Decidable (Verifies bytes) := inferInstanceAs (Decidable (_ = _))

/-- The words of two pieces, if the first one is made up of whole words. -/
theorem wordSum_append {pre post : List UInt8} (h : pre.length % 2 = 0) :
    wordSum (pre ++ post) = wordSum pre + wordSum post := by
  induction pre using wordSum.induct with
  | case1 lo hi rest ih =>
    have hr : rest.length % 2 = 0 := by
      rw [List.length_cons, List.length_cons] at h
      omega
    simp only [List.cons_append, wordSum, ih hr]
    omega
  | case2 pre hne =>
    cases pre with
    | nil => simp [wordSum]
    | cons a pre =>
      cases pre with
      | nil => simp at h
      | cons b rest => exact absurd rfl (hne a b rest)

theorem wordSum_le (bytes : List UInt8) : wordSum bytes ≤ bytes.length / 2 * 65535 := by
  induction bytes using wordSum.induct with
  | case1 lo hi rest ih =>
    have h₁ := lo.toNat_lt
    have h₂ := hi.toNat_lt
    simp only [wordSum, List.length_cons]
    omega
  | case2 bytes hne => simp [wordSum]

theorem fold_lt (s : Nat) : fold s < 65536 := Nat.mod_lt _ (by decide)

/-- Folding keeps the sum modulo 65535, and only the empty sum folds to zero. -/
theorem fold_spec {s : Nat} (h : s < 2 ^ 32) : fold s % 65535 = s % 65535 ∧ (fold s = 0 ↔ s = 0) := by
  unfold fold
  have hhi : s / 65536 < 65536 := by omega
  have hlo : s % 65536 < 65536 := Nat.mod_lt _ (by decide)
  have hs : s = 65536 * (s / 65536) + s % 65536 := (Nat.div_add_mod s 65536).symm
  generalize s / 65536 = hi at *
  generalize s % 65536 = lo at *
  subst hs
  simp only
  by_cases hcarry : hi + lo < 65536
  · have hq : (hi + lo) / 65536 = 0 := Nat.div_eq_of_lt hcarry
    rw [hq, Nat.add_zero, Nat.mod_eq_of_lt hcarry]
    constructor <;> omega
  · have hq : (hi + lo) / 65536 = 1 := by omega
    rw [hq]
    by_cases htop : hi + lo + 1 < 65536
    · omega
    · have hm : (hi + lo + 1) % 65536 = hi + lo + 1 - 65536 := by omega
      rw [hm]
      constructor <;> omega

/-- A sum together with its complement folds to all ones. -/
theorem fold_add_complement {s : Nat} (h : s + 65535 < 2 ^ 32) : fold (s + (65535 - fold s)) = 65535 := by
  have hlt := fold_lt s
  obtain ⟨hmod, hzero⟩ := fold_spec (s := s) (by omega)
  obtain ⟨hmod', hzero'⟩ := fold_spec (s := s + (65535 - fold s)) (by omega)
  have hlt' := fold_lt (s + (65535 - fold s))
  omega

/-! ## Sums with an end-around carry -/

/-- Add two words and put the carry back in at the low end. -/
def endAroundAdd (a b : Nat) : Nat := if a + b < 65536 then a + b else a + b - 65535

/-- The 16-bit words that the bytes spell, low byte first. -/
def words : List UInt8 → List Nat
  | lo :: hi :: rest => (lo.toNat + 256 * hi.toNat) :: words rest
  | _ => []

/-- The ones'-complement sum of some words. -/
def onesSum (ws : List Nat) : Nat := ws.foldl endAroundAdd 0

/-- The byte-swapped word. -/
def swap (a : Nat) : Nat := 256 * (a % 256) + a / 256

/-- Words with the same residue modulo 65535 differ at most as the two zeros do. -/
theorem eq_of_mod {a b : Nat} (ha : a < 65536) (hb : b < 65536) (hmod : a % 65535 = b % 65535)
    (hzero : a = 0 ↔ b = 0) : a = b := by
  omega

theorem endAroundAdd_spec {a b : Nat} (ha : a < 65536) (hb : b < 65536) :
    endAroundAdd a b < 65536 ∧ endAroundAdd a b % 65535 = (a + b) % 65535 ∧
      (endAroundAdd a b = 0 ↔ a + b = 0) := by
  unfold endAroundAdd
  split_ifs <;> omega

theorem words_lt (bytes : List UInt8) : ∀ w ∈ words bytes, w < 65536 := by
  induction bytes using words.induct with
  | case1 lo hi rest ih =>
    intro w hw
    rcases List.mem_cons.mp hw with rfl | hw
    · have h₁ := lo.toNat_lt
      have h₂ := hi.toNat_lt
      omega
    · exact ih w hw
  | case2 bytes hne => simp [words]

theorem sum_words (bytes : List UInt8) : (words bytes).sum = wordSum bytes := by
  induction bytes using words.induct with
  | case1 lo hi rest ih => rw [words, wordSum, List.sum_cons, ih]
  | case2 bytes hne => simp [words, wordSum]

theorem foldl_endAroundAdd {ws : List Nat} (h : ∀ w ∈ ws, w < 65536) {acc : Nat} (ha : acc < 65536) :
    ws.foldl endAroundAdd acc < 65536 ∧ ws.foldl endAroundAdd acc % 65535 = (acc + ws.sum) % 65535 ∧
      (ws.foldl endAroundAdd acc = 0 ↔ acc + ws.sum = 0) := by
  induction ws generalizing acc with
  | nil => simp [ha]
  | cons w ws ih =>
    obtain ⟨hlt, hmod, hzero⟩ := endAroundAdd_spec ha (h w List.mem_cons_self)
    obtain ⟨hlt', hmod', hzero'⟩ := ih (fun w hw => h w (List.mem_cons_of_mem _ hw)) hlt
    rw [List.foldl_cons, List.sum_cons]
    refine ⟨hlt', ?_, ?_⟩ <;> omega

/-- Adding the carries in at the end gives the sum with end-around carries. -/
theorem fold_wordSum {bytes : List UInt8} (h : wordSum bytes < 2 ^ 32) :
    fold (wordSum bytes) = onesSum (words bytes) := by
  obtain ⟨hmod, hzero⟩ := fold_spec h
  obtain ⟨hlt, hmod', hzero'⟩ := foldl_endAroundAdd (words_lt bytes) (show 0 < 65536 by decide)
  rw [Nat.zero_add, sum_words] at hmod' hzero'
  exact eq_of_mod (fold_lt _) hlt (hmod.trans hmod'.symm) (hzero.trans hzero'.symm)

/-! ## Byte order -/

/-- Exchange the two bytes of every word; a last odd byte stays. -/
def swapWords : List UInt8 → List UInt8
  | lo :: hi :: rest => hi :: lo :: swapWords rest
  | rest => rest

theorem swap_spec {a : Nat} (h : a < 65536) :
    swap a < 65536 ∧ swap a % 65535 = 256 * a % 65535 ∧ (swap a = 0 ↔ a = 0) := by
  unfold swap
  have ha := Nat.div_add_mod a 256
  refine ⟨?_, ?_, ?_⟩ <;> omega

/-- Swapping the bytes of every word multiplies the sum by 256, modulo 65535. -/
theorem wordSum_swapWords (bytes : List UInt8) :
    wordSum (swapWords bytes) % 65535 = 256 * wordSum bytes % 65535 ∧
      (wordSum (swapWords bytes) = 0 ↔ wordSum bytes = 0) := by
  induction bytes using swapWords.induct with
  | case1 lo hi rest ih =>
    obtain ⟨hmod, hzero⟩ := ih
    simp only [swapWords, wordSum]
    constructor <;> omega
  | case2 bytes hne =>
    have hs : swapWords bytes = bytes := by
      unfold swapWords
      split
      · exact absurd rfl (hne _ _ _)
      · rfl
    have hw : wordSum bytes = 0 := by
      unfold wordSum
      split
      · exact absurd rfl (hne _ _ _)
      · rfl
    rw [hs, hw]
    simp

/-- The sum of the byte-swapped words is the byte-swapped sum. -/
theorem fold_swapWords {bytes : List UInt8} (h : wordSum bytes < 2 ^ 32)
    (h' : wordSum (swapWords bytes) < 2 ^ 32) :
    fold (wordSum (swapWords bytes)) = swap (fold (wordSum bytes)) := by
  obtain ⟨hmod, hzero⟩ := fold_spec h
  obtain ⟨hmod', hzero'⟩ := fold_spec h'
  obtain ⟨hlt, hswap, hswap'⟩ := swap_spec (fold_lt (wordSum bytes))
  obtain ⟨hsum, hsum'⟩ := wordSum_swapWords bytes
  refine eq_of_mod (fold_lt _) hlt ?_ ?_
  · rw [hmod', hsum, hswap, Nat.mul_mod, ← hmod, ← Nat.mul_mod]
  · rw [hzero', hsum', hswap', hzero]

/-- The complement of a byte-swapped word. -/
theorem swap_complement {a : Nat} (h : a < 65536) : 65535 - swap a = swap (65535 - a) := by
  unfold swap
  omega

theorem length_swapWords (bytes : List UInt8) : (swapWords bytes).length = bytes.length := by
  induction bytes using swapWords.induct with
  | case1 lo hi rest ih => simp [swapWords, ih]
  | case2 bytes hne => simp [swapWords]

end OnesComplement
