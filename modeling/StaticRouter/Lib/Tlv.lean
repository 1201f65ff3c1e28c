import StaticRouter.Lib.Buffer

/-!
# Elements that carry their own length

A buffer holds elements one behind the other. Each begins with a header of fixed size that says how long the
element is, and the next one begins at the next multiple of four bytes. The padding behind the last element
may be missing.
-/

namespace Tlv

open CMem

/-- The place where an element can begin, from byte `n` on. -/
def align (n : Nat) : Nat := (n + 3) / 4 * 4

theorem le_align (n : Nat) : n ≤ align n := by
  unfold align
  omega

theorem align_of_dvd {n : Nat} (h : 4 ∣ n) : align n = n := by
  unfold align
  omega

theorem dvd_align (n : Nat) : 4 ∣ align n := Nat.dvd_mul_left 4 _

/-- The header of an element. -/
structure Format where
  size : Nat
  pos : 0 < size
  /-- Read the length of the element that begins at the offset. -/
  lengthAt : Buffer → Nat → Except Fault Nat
  /-- It is read from the header. -/
  within : ∀ pre c post : Buffer, size ≤ c.length →
    lengthAt (pre ++ (c ++ post)) pre.length = lengthAt c 0

namespace Format

variable (F : Format) {σ τ : Type}

/-- The `len` bytes that are left from `off` on hold an element. -/
def ok (b : Buffer) (off : Nat) (len : Int) : Except Fault Bool :=
  if (F.size : Int) ≤ len then do
    let n ← F.lengthAt b off
    return F.size ≤ n ∧ (n : Int) ≤ len
  else return false

/-- Run `body` at the offset of each element in turn, for at most `fuel` of them. -/
def walk (b : Buffer) (body : Nat → σ → Except Fault σ) : Nat → Nat → Int → σ → Except Fault σ
  | 0, off, len, s => do if ← F.ok b off len then .error .outOfFuel else return s
  | fuel + 1, off, len, s => do
    if ← F.ok b off len then
      let s ← body off s
      let n ← F.lengthAt b off
      walk b body fuel (off + align n) (len - align n) s
    else return s

/-- The bytes of one element, without padding. -/
structure IsChunk (c : Buffer) : Prop where
  size_le : F.size ≤ c.length
  length_eq : F.lengthAt c 0 = .ok c.length

/-- The bytes hold the elements `xs`, each of them written as `enc` says. -/
inductive Laid (enc : τ → Buffer → Prop) : List τ → Buffer → Prop where
  | nil : Laid enc [] []
  | last {x : τ} {c : Buffer} (hx : enc x c) (hc : F.IsChunk c) : Laid enc [x] c
  | cons {x : τ} {xs : List τ} {c pad bs : Buffer} (hx : enc x c) (hc : F.IsChunk c)
      (hpad : c.length + pad.length = align c.length) (h : Laid enc xs bs) :
      Laid enc (x :: xs) (c ++ (pad ++ bs))

variable {F} {enc : τ → Buffer → Prop}

theorem ok_chunk {pre c post : Buffer} (hc : F.IsChunk c) {len : Int} (hlen : (c.length : Int) ≤ len) :
    F.ok (pre ++ (c ++ post)) pre.length len = .ok true := by
  have hsize := hc.size_le
  have hl : F.lengthAt (pre ++ (c ++ post)) pre.length = .ok c.length := by
    rw [F.within pre c post hsize, hc.length_eq]
  rw [ok, if_pos (by omega), hl, ok_bind]
  simp [hsize, hlen]

theorem ok_end (b : Buffer) (off : Nat) {len : Int} (hlen : len ≤ 0) : F.ok b off len = .ok false := by
  have hpos := F.pos
  rw [ok, if_neg (by omega)]
  rfl

theorem walk_end (b : Buffer) (body : Nat → σ → Except Fault σ) (fuel off : Nat) {len : Int} (hlen : len ≤ 0)
    (s : σ) : F.walk b body fuel off len s = .ok s := by
  cases fuel <;> rw [walk, ok_end b off hlen] <;> rfl

/-- One round. -/
theorem walk_chunk (pre post : Buffer) {c : Buffer} (hc : F.IsChunk c) {len : Int} (hlen : (c.length : Int) ≤ len)
    (body : Nat → σ → Except Fault σ) (fuel : Nat) (s : σ) :
    F.walk (pre ++ (c ++ post)) body (fuel + 1) pre.length len s = body pre.length s >>= fun s =>
      F.walk (pre ++ (c ++ post)) body fuel (pre.length + align c.length) (len - align c.length) s := by
  have hl : F.lengthAt (pre ++ (c ++ post)) pre.length = .ok c.length := by
    rw [F.within pre c post hc.size_le, hc.length_eq]
  rw [walk, ok_chunk hc hlen, ok_bind, if_pos rfl, hl]
  rfl

/-- What the body keeps holds at the end, whatever the buffer holds. -/
theorem walk_invariant {I : σ → Prop} {b : Buffer} {body : Nat → σ → Except Fault σ}
    (hbody : ∀ off s s', I s → body off s = .ok s' → I s') {fuel off : Nat} {len : Int} {s s' : σ} (hs : I s)
    (h : F.walk b body fuel off len s = .ok s') : I s' := by
  induction fuel generalizing off len s with
  | zero =>
    rw [walk, bind_ok] at h
    obtain ⟨more, -, h⟩ := h
    cases more with
    | true => cases h
    | false => exact Except.ok.inj h ▸ hs
  | succ fuel ih =>
    rw [walk, bind_ok] at h
    obtain ⟨more, -, h⟩ := h
    cases more with
    | true =>
      rw [if_pos rfl, bind_ok] at h
      obtain ⟨s₁, h₁, h⟩ := h
      rw [bind_ok] at h
      obtain ⟨n, -, h⟩ := h
      exact ih (hbody off s s₁ hs h₁) h
    | false => exact Except.ok.inj h ▸ hs

/-- Without elements there are no bytes. -/
theorem Laid.eq_nil {xs : List τ} {bs : Buffer} (h : F.Laid enc xs bs) (hx : xs = []) : bs = [] := by
  cases h with
  | nil => rfl
  | last _ _ => cases hx
  | cons _ _ _ _ => cases hx

/-- Each element takes a round. -/
theorem Laid.length_le {xs : List τ} {bs : Buffer} (h : F.Laid enc xs bs) : xs.length ≤ bs.length := by
  have hpos := F.pos
  induction h with
  | nil => exact Nat.le_refl 0
  | last _ hc =>
    have hsize := hc.size_le
    simp only [List.length_cons, List.length_nil]
    omega
  | cons _ hc _ _ ih =>
    have hsize := hc.size_le
    simp only [List.length_cons, List.length_append]
    omega

/-- Walking through the elements does to the state what they say, one after the other. -/
theorem Laid.walk_eq {b : Buffer} {body : Nat → σ → Except Fault σ} {step : τ → σ → Except Fault σ}
    {xs : List τ} {bs : Buffer} (h : F.Laid enc xs bs)
    (hbody : ∀ x ∈ xs, ∀ pre c post, b = pre ++ (c ++ post) → enc x c → ∀ s, body pre.length s = step x s)
    {pre post : Buffer} (hb : b = pre ++ (bs ++ post)) {fuel : Nat} (hfuel : xs.length ≤ fuel) (s : σ) :
    F.walk b body fuel pre.length bs.length s = xs.foldlM (fun s x => step x s) s := by
  induction h generalizing pre fuel s with
  | nil => exact walk_end b body fuel pre.length (Int.le_refl 0) s
  | @last x c hx hc =>
    obtain ⟨fuel, rfl⟩ : ∃ n, fuel = n + 1 := Nat.exists_eq_add_one.mpr (by simp at hfuel; omega)
    have hround := walk_chunk pre post hc (Int.le_refl _) body fuel s
    rw [← hb] at hround
    rw [hround, hbody x (by simp) pre c post hb hx, List.foldlM_cons]
    cases step x s with
    | error e => rfl
    | ok s' =>
      have hlen : (c.length : Int) - align c.length ≤ 0 := by
        have := le_align c.length
        omega
      rw [ok_bind, ok_bind, walk_end b body fuel _ hlen]
      rfl
  | @cons x xs c pad bs hx hc hpad _ ih =>
    obtain ⟨fuel, rfl⟩ : ∃ n, fuel = n + 1 := Nat.exists_eq_add_one.mpr (by simp at hfuel; omega)
    have hsplit : b = pre ++ (c ++ (pad ++ bs ++ post)) := by
      rw [hb]
      simp only [List.append_assoc]
    have hlen : (c.length : Int) ≤ ((c ++ (pad ++ bs)).length : Nat) := by
      simp only [List.length_append]
      omega
    have hround := walk_chunk pre (pad ++ bs ++ post) hc hlen body fuel s
    rw [← hsplit] at hround
    rw [hround, hbody x (by simp) pre c _ hsplit hx, List.foldlM_cons]
    cases step x s with
    | error e => rfl
    | ok s' =>
      have hoff : pre.length + align c.length = (pre ++ (c ++ pad)).length := by
        simp only [List.length_append]
        omega
      have hrest : ((c ++ (pad ++ bs)).length : Int) - align c.length = bs.length := by
        simp only [List.length_append]
        omega
      have hnext : b = (pre ++ (c ++ pad)) ++ (bs ++ post) := by
        rw [hb]
        simp only [List.append_assoc]
      rw [ok_bind, ok_bind, hoff, hrest]
      exact ih (fun y hy => hbody y (List.mem_cons_of_mem x hy)) hnext (by simpa using hfuel) s'

/-- The same from the beginning of the buffer. -/
theorem Laid.walk_start {body : Nat → σ → Except Fault σ} {step : τ → σ → Except Fault σ} {xs : List τ}
    {bs post : Buffer} (h : F.Laid enc xs bs)
    (hbody : ∀ x ∈ xs, ∀ pre c post', bs ++ post = pre ++ (c ++ post') → enc x c →
      ∀ s, body pre.length s = step x s) (s : σ) :
    F.walk (bs ++ post) body bs.length 0 bs.length s = xs.foldlM (fun s x => step x s) s := by
  have hb : bs ++ post = [] ++ (bs ++ post) := rfl
  exact h.walk_eq hbody hb h.length_le s

/-! ## Buffers one behind the other -/

/-- The elements of two buffers, if the padding of the first is there. -/
theorem Laid.append {xs ys : List τ} {bs bs' : Buffer} (h : F.Laid enc xs bs) (hd : 4 ∣ bs.length)
    (h' : F.Laid enc ys bs') : F.Laid enc (xs ++ ys) (bs ++ bs') := by
  induction h with
  | nil => exact h'
  | @last x c hx hc =>
    have hpad : c.length + ([] : Buffer).length = align c.length := (align_of_dvd hd).symm
    have hcons := Laid.cons hx hc hpad h'
    simpa using hcons
  | @cons x xs c pad bs hx hc hpad _ ih =>
    have hbs : 4 ∣ bs.length := by
      have hc4 := dvd_align c.length
      simp only [List.length_append] at hd
      omega
    have hcons := Laid.cons hx hc hpad (ih hbs)
    simpa only [List.append_assoc, List.cons_append] using hcons

end Format

/-! ## Variables that the elements set -/

/-- What the elements leave in a variable `g` that those of the kind `k` set, if no two elements are of one
kind. -/
theorem foldl_keyed {σ τ κ β : Type} [DecidableEq κ] {f : σ → τ → σ} {kind : τ → κ} {g : σ → β} {k : κ}
    {v : τ → β → β} (hset : ∀ s x, kind x = k → g (f s x) = v x (g s))
    (hkeep : ∀ s x, kind x ≠ k → g (f s x) = g s) {xs : List τ} (hnd : (xs.map kind).Nodup) (s : σ) :
    g (xs.foldl f s) = match xs.find? (kind · = k) with
      | some x => v x (g s)
      | none => g s := by
  induction xs generalizing s with
  | nil => rfl
  | cons x xs ih =>
    obtain ⟨hx, hnd⟩ := List.nodup_cons.mp hnd
    rw [List.foldl_cons, ih hnd (f s x)]
    by_cases hk : kind x = k
    · have hnone : xs.find? (kind · = k) = none := by
        refine List.find?_eq_none.mpr fun y hy hky => hx ?_
        rw [hk, ← of_decide_eq_true hky]
        exact List.mem_map_of_mem hy
      rw [hnone, List.find?_cons_of_pos (by simpa using hk)]
      exact hset s x hk
    · rw [List.find?_cons_of_neg (by simpa using hk), hkeep s x hk]

end Tlv
