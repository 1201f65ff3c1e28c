import Mathlib.Data.List.Count

/-!
# A queue that serving one kind of element feeds

A safe traversal serves a queue from its head: it serves the current element and unlinks it, and then
goes on with the element that followed it before it was served. Serving an element equal to `x` links
`y` in at the tail, if there is a `y`; serving any other element links nothing in. The traversal ends
after an element that had no successor when its turn came, so what that element links in is left over.
-/

namespace FeedingQueue

variable {α : Type} [DecidableEq α] (x : α) (y : Option α)

/-- What serving `p` links in at the tail. -/
def feed (p : α) : List α := if p = x then y.toList else []

/-- Serve the queue for at most `fuel` rounds: the elements served and what is left over. -/
def serve : Nat → List α → Option (List α × List α)
  | _, [] => some ([], [])
  | 0, _ :: _ => none
  | fuel + 1, p :: rest =>
    if rest = [] then some ([p], feed x y p)
    else (serve fuel (rest ++ feed x y p)).map fun r => (p :: r.1, r.2)

/-- The elements that a traversal which ends has served. -/
def served (q : List α) : List α :=
  if q.dropLast.flatMap (feed x y) = [] then q else q ++ q.flatMap (feed x y)

/-- What a traversal that ends leaves over. -/
def leftOver (q : List α) : List α := (served x y q).getLast?.toList.flatMap (feed x y)

/-- The condition for the traversal to end: `x` does not feed itself, or it occurs at most once. -/
def Ends (q : List α) : Prop := y = some x → q.count x ≤ 1

instance (q : List α) : Decidable (Ends x y q) := inferInstanceAs (Decidable (_ → _))

variable {x y}

theorem feed_self : feed x y x = y.toList := if_pos rfl

theorem feed_of_ne {p : α} (h : p ≠ x) : feed x y p = [] := if_neg h

theorem flatMap_feed_eq_nil {q : List α} (h : x ∉ q) : q.flatMap (feed x y) = [] := by
  rw [List.flatMap_eq_nil_iff]
  exact fun p hp => feed_of_ne fun e => h (e ▸ hp)

theorem Ends.tail {p : α} {rest : List α} (h : Ends x y (p :: rest)) :
    Ends x y (rest ++ feed x y p) := by
  intro hy
  have hc := h hy
  rw [List.count_cons] at hc
  rw [List.count_append]
  by_cases hp : p = x
  · subst hp
    rw [feed_self, hy]
    simpa using hc
  · rw [feed_of_ne hp]
    simp only [List.count_nil]
    omega

/-- Serving the first of several elements. -/
theorem served_cons {p : α} {rest : List α} (hr : rest ≠ []) (h : Ends x y (p :: rest)) :
    served x y (p :: rest) = p :: served x y (rest ++ feed x y p) := by
  have hdrop : (p :: rest).dropLast = p :: rest.dropLast := List.dropLast_cons_of_ne_nil hr
  by_cases hp : p = x
  · subst hp
    cases y with
    | none =>
      have hnil : ∀ q : List α, q.flatMap (feed p none) = [] := fun q =>
        List.flatMap_eq_nil_iff.mpr fun a _ => by unfold feed; split_ifs <;> rfl
      simp only [served, hnil, feed_self, Option.toList_none, List.append_nil, if_true]
    | some b =>
      have hfirst : ¬ (p :: rest).dropLast.flatMap (feed p (some b)) = [] := by
        rw [hdrop, List.flatMap_cons, feed_self]
        simp
      rw [served, if_neg hfirst, served, feed_self, Option.toList_some, List.dropLast_concat,
        List.flatMap_cons, feed_self, Option.toList_some]
      by_cases hrest : rest.flatMap (feed p (some b)) = []
      · rw [if_pos hrest, hrest]; simp
      · have hb : b ≠ p := by
          rintro rfl
          have hc := h rfl
          rw [List.count_cons_self] at hc
          exact hrest (flatMap_feed_eq_nil (List.count_eq_zero.mp (by omega)))
        rw [if_neg hrest, List.flatMap_append, List.flatMap_cons, feed_of_ne hb]
        simp
  · have hcons : (p :: rest).flatMap (feed x y) = rest.flatMap (feed x y) := by
      rw [List.flatMap_cons, feed_of_ne hp, List.nil_append]
    rw [served, served, hdrop, List.flatMap_cons, feed_of_ne hp, List.nil_append, List.append_nil,
      hcons]
    split_ifs <;> rfl

theorem served_ne_nil {q : List α} (h : q ≠ []) : served x y q ≠ [] := by
  unfold served
  split_ifs
  · exact h
  · simp [h]

theorem leftOver_cons {p : α} {rest : List α} (hr : rest ≠ []) (h : Ends x y (p :: rest)) :
    leftOver x y (p :: rest) = leftOver x y (rest ++ feed x y p) := by
  have hne : served x y (rest ++ feed x y p) ≠ [] := served_ne_nil (by simp [hr])
  rw [leftOver, leftOver, served_cons hr h, List.getLast?_cons_of_ne_nil hne]

/-- A traversal that ends serves `served` and leaves `leftOver`, given enough rounds. -/
theorem serve_of_ends {fuel : Nat} {q : List α} (h : Ends x y q) (hf : (served x y q).length ≤ fuel) :
    serve x y fuel q = some (served x y q, leftOver x y q) := by
  induction fuel generalizing q with
  | zero =>
    cases q with
    | nil => rfl
    | cons p rest =>
      have := List.length_pos_iff.mpr (served_ne_nil (x := x) (y := y) (List.cons_ne_nil p rest))
      omega
  | succ fuel ih =>
    cases q with
    | nil => rfl
    | cons p rest =>
      by_cases hr : rest = []
      · subst hr
        simp [serve, served, leftOver]
      · rw [served_cons hr h] at hf ⊢
        rw [serve, if_neg hr, leftOver_cons hr h, ih h.tail (by simpa using hf)]
        rfl

/-- Two elements that feed themselves keep the traversal going for ever. -/
theorem serve_of_not_ends (fuel : Nat) {q : List α} (h : ¬ Ends x y q) : serve x y fuel q = none := by
  have hy : y = some x := by
    by_contra hy
    exact h fun he => absurd he hy
  induction fuel generalizing q with
  | zero =>
    cases q with
    | nil => exact absurd (fun _ => by simp) h
    | cons p rest => rfl
  | succ fuel ih =>
    have hc : 2 ≤ q.count x := by
      by_contra hc
      exact h fun _ => by omega
    cases q with
    | nil => simp at hc
    | cons p rest =>
      rw [List.count_cons] at hc
      have hr : rest ≠ [] := by
        rintro rfl
        simp only [List.count_nil] at hc
        split_ifs at hc <;> omega
      have hnext : ¬ Ends x y (rest ++ feed x y p) := by
        intro he
        have := he hy
        rw [List.count_append] at this
        by_cases hp : p = x
        · subst hp
          have hone : (feed p y p).count p = 1 := by rw [feed_self, hy]; simp
          have hc' : 2 ≤ rest.count p + 1 := by simpa using hc
          omega
        · have hc' : 2 ≤ rest.count x := by simpa [hp] using hc
          omega
      rw [serve, if_neg hr, ih hnext]
      rfl

theorem serve_mono {fuel fuel' : Nat} {q : List α} {r : List α × List α} (hle : fuel ≤ fuel')
    (h : serve x y fuel q = some r) : serve x y fuel' q = some r := by
  induction fuel generalizing q r fuel' with
  | zero =>
    cases q with
    | nil => cases fuel' <;> simpa [serve] using h
    | cons p rest => cases h
  | succ fuel ih =>
    cases q with
    | nil => cases fuel' <;> simpa [serve] using h
    | cons p rest =>
      obtain ⟨k, rfl⟩ : ∃ k, fuel' = k + 1 := ⟨fuel' - 1, by omega⟩
      rw [serve] at h ⊢
      split_ifs at h ⊢
      · exact h
      · obtain ⟨r', hr', rfl⟩ := Option.map_eq_some_iff.mp h
        rw [ih (by omega) hr']
        rfl

/-- What a traversal that ended within its rounds has served and left over. -/
theorem serve_eq_some {fuel : Nat} {q v l : List α} (h : serve x y fuel q = some (v, l)) :
    Ends x y q ∧ v = served x y q ∧ l = leftOver x y q := by
  by_cases he : Ends x y q
  · have h1 := serve_of_ends he (Nat.le_max_right fuel (served x y q).length)
    rw [serve_mono (Nat.le_max_left _ _) h, Option.some.injEq, Prod.mk.injEq] at h1
    exact ⟨he, h1⟩
  · rw [serve_of_not_ends fuel he] at h
    cases h

/-- Nothing is left over unless `x` is linked in by the last element served. -/
theorem leftOver_eq_nil_iff {q : List α} :
    leftOver x y q = [] ↔ ∀ b, y = some b → x ∈ q → b ≠ x ∧ x ∈ q.dropLast := by
  cases y with
  | none =>
    have hfeed : ∀ a : α, feed x none a = [] := fun a => by unfold feed; split_ifs <;> rfl
    simp [leftOver, hfeed]
  | some b =>
    have hfeed : ∀ a : α, feed x (some b) a = [] ↔ a ≠ x := by
      intro a
      unfold feed
      split_ifs with h <;> simp [h]
    have hlast : leftOver x (some b) q = [] ↔ ∀ a, (served x (some b) q).getLast? = some a → a ≠ x := by
      rw [leftOver, List.flatMap_eq_nil_iff]
      simp only [Option.mem_toList, hfeed]
    simp only [hlast, Option.some.injEq, forall_eq']
    by_cases hx : x ∈ q.dropLast
    · have hq : x ∈ q := (List.dropLast_sublist q).subset hx
      have hone : ¬ q.dropLast.flatMap (feed x (some b)) = [] := by
        rw [List.flatMap_eq_nil_iff]
        exact fun h => (hfeed x).mp (h x hx) rfl
      have hend : (served x (some b) q).getLast? = some b := by
        have hmem : ∀ a ∈ q.flatMap (feed x (some b)), a = b := by
          intro a ha
          obtain ⟨c, -, hc⟩ := List.mem_flatMap.mp ha
          unfold feed at hc
          split_ifs at hc
          · simpa using hc
          · cases hc
        have hne : q.flatMap (feed x (some b)) ≠ [] := by
          rw [Ne, List.flatMap_eq_nil_iff]
          exact fun h => (hfeed x).mp (h x hq) rfl
        rw [served, if_neg hone, List.getLast?_append, List.getLast?_eq_some_getLast hne]
        exact congrArg some (hmem _ (List.getLast_mem hne))
      simp [hend, hx, hq]
    · have hone : q.dropLast.flatMap (feed x (some b)) = [] := flatMap_feed_eq_nil hx
      rw [served, if_pos hone]
      rcases List.eq_nil_or_concat q with rfl | ⟨pre, a, rfl⟩
      · simp
      · rw [List.concat_eq_append, List.dropLast_concat] at hx ⊢
        simp [hx, eq_comm]

end FeedingQueue
