import Mathlib.Data.Set.Function
import Mathlib.Logic.Function.Iterate
import Mathlib.Tactic.Ring
import Befunge.Bounds

/-!
# Movement permutes the box

The points of a box that lie on one line through a point of it are numbered by how many
steps they are away.  The numbers are an interval, from as many steps back as the box has
room for to as many steps forward (`Bounds.mem_along_iff`).

A step adds one to the number, and takes the last number to the first
(`Bounds.next_along`).  So the steps along a delta rotate each line, the steps along the
opposite delta rotate it back, and a walk visits all of the line before it returns.
-/

namespace Befunge

/-! ## Points of a line -/

namespace Vec

/-- The point `k` steps of `d` after `p`. -/
def along (p d : Vec) (k : Int) : Vec := p + d.scale k

@[simp] theorem along_x (p d : Vec) (k : Int) : (p.along d k).x = p.x + d.x * k := rfl

@[simp] theorem along_y (p d : Vec) (k : Int) : (p.along d k).y = p.y + d.y * k := rfl

@[simp] theorem along_zero (p d : Vec) : p.along d 0 = p := by
  ext <;> simp

theorem along_add_self (p d : Vec) (k : Int) : p.along d k + d = p.along d (k + 1) := by
  ext <;> simp <;> ring

theorem along_sub_scale (p d : Vec) (k n : Int) :
    p.along d k - d.scale n = p.along d (k - n) := by
  ext <;> simp <;> ring

theorem along_neg (p d : Vec) (k : Int) : p.along (-d) k = p.along d (-k) := by
  ext <;> simp

theorem neg_neg (d : Vec) : - -d = d := by
  ext <;> simp

theorem neg_ne_zero {d : Vec} (hd : d ≠ zero) : -d ≠ zero := by
  intro h
  rw [Vec.ext_iff] at h
  simp only [neg_x, neg_y, zero, Int.neg_eq_zero] at h
  exact hd (Vec.ext h.1 h.2)

/-- On a delta that moves, different numbers are different points. -/
theorem along_injective (p : Vec) {d : Vec} (hd : d ≠ zero) : Function.Injective (p.along d) := by
  intro i j h
  have hx : d.x * i = d.x * j := by simpa using congrArg Vec.x h
  have hy : d.y * i = d.y * j := by simpa using congrArg Vec.y h
  by_cases hdx : d.x = 0
  · have hdy : d.y ≠ 0 := fun hdy => hd (Vec.ext hdx hdy)
    exact Int.eq_of_mul_eq_mul_left hdy hy
  · exact Int.eq_of_mul_eq_mul_left hdx hx

end Vec

namespace Bounds

/-! ## Room on one axis -/

/-- On an axis that moves, the steps back that stay inside are those up to the room. -/
theorem room_spec {lo hi x d : Int} (hx : lo ≤ x ∧ x ≤ hi) (hd : d ≠ 0) :
    ∃ m, room lo hi x d = some m ∧ 0 ≤ m ∧
      ∀ k, 0 ≤ k → ((lo ≤ x - d * k ∧ x - d * k ≤ hi) ↔ k ≤ m) := by
  rcases Int.lt_or_gt_of_ne hd with hneg | hpos
  · have hd' : 0 < -d := by omega
    refine ⟨(hi - x) / (-d), by simp [room, hd, Int.not_lt.mpr (Int.le_of_lt hneg)],
      Int.ediv_nonneg (by omega) (by omega), ?_⟩
    intro k hk
    rw [Int.le_ediv_iff_mul_le hd']
    have hnonneg : 0 ≤ k * -d := Int.mul_nonneg hk (by omega)
    have hcomm : d * k = -(k * -d) := by ring
    omega
  · refine ⟨(x - lo) / d, by simp [room, hd, hpos],
      Int.ediv_nonneg (by omega) (by omega), ?_⟩
    intro k hk
    rw [Int.le_ediv_iff_mul_le hpos]
    have hnonneg : 0 ≤ k * d := Int.mul_nonneg hk (by omega)
    have hcomm : d * k = k * d := by ring
    omega

theorem room_zero (lo hi x : Int) : room lo hi x 0 = none := by
  simp [room]

/-! ## Steps back -/

/-- From inside the box, the steps back that stay inside are those up to `stepsBack`. -/
theorem stepsBack_spec {b : Bounds} {p d : Vec} (hp : p ∈ b) (hd : d ≠ Vec.zero) :
    0 ≤ b.stepsBack p d ∧ ∀ k, 0 ≤ k → (p - d.scale k ∈ b ↔ k ≤ b.stepsBack p d) := by
  obtain ⟨hx, hy⟩ := mem_def.mp hp
  by_cases hdx : d.x = 0
  · by_cases hdy : d.y = 0
    · exact absurd (Vec.ext hdx hdy) hd
    · obtain ⟨n, hn, hn0, hnk⟩ := room_spec hy hdy
      have hs : b.stepsBack p d = max n 0 := by simp [stepsBack, hdx, room_zero, hn]
      rw [hs, max_eq_left hn0]
      refine ⟨hn0, fun k hk => ?_⟩
      rw [← hnk k hk, mem_def]
      simp [hdx, hx]
  · obtain ⟨m, hm, hm0, hmk⟩ := room_spec hx hdx
    by_cases hdy : d.y = 0
    · have hs : b.stepsBack p d = max m 0 := by simp [stepsBack, hdy, room_zero, hm]
      rw [hs, max_eq_left hm0]
      refine ⟨hm0, fun k hk => ?_⟩
      rw [← hmk k hk, mem_def]
      simp [hdy, hy]
    · obtain ⟨n, hn, hn0, hnk⟩ := room_spec hy hdy
      have hs : b.stepsBack p d = max (min m n) 0 := by simp [stepsBack, hm, hn]
      rw [hs, max_eq_left (le_min hm0 hn0)]
      refine ⟨le_min hm0 hn0, fun k hk => ?_⟩
      rw [le_min_iff, ← hmk k hk, ← hnk k hk, mem_def]
      simp

theorem stepsBack_nonneg {b : Bounds} {p d : Vec} (hp : p ∈ b) (hd : d ≠ Vec.zero) :
    0 ≤ b.stepsBack p d :=
  (stepsBack_spec hp hd).1

/-- The room behind a point is the only number of steps that tells inside from outside. -/
theorem stepsBack_unique {b : Bounds} {p d : Vec} (hp : p ∈ b) (hd : d ≠ Vec.zero) {n : Int}
    (hn : 0 ≤ n) (h : ∀ k, 0 ≤ k → (p - d.scale k ∈ b ↔ k ≤ n)) : b.stepsBack p d = n := by
  obtain ⟨h0, hs⟩ := stepsBack_spec hp hd
  have h1 : b.stepsBack p d ≤ n := (h _ h0).mp ((hs _ h0).mpr le_rfl)
  have h2 : n ≤ b.stepsBack p d := (hs n hn).mp ((h n hn).mpr le_rfl)
  omega

/-! ## Lines through the box -/

/-- The points of a line that lie in the box are an interval of it. -/
theorem mem_along_iff {b : Bounds} {p d : Vec} (hp : p ∈ b) (hd : d ≠ Vec.zero) (k : Int) :
    p.along d k ∈ b ↔ -b.stepsBack p d ≤ k ∧ k ≤ b.stepsBack p (-d) := by
  obtain ⟨hback, hbackIff⟩ := stepsBack_spec hp hd
  obtain ⟨hfront, hfrontIff⟩ := stepsBack_spec hp (Vec.neg_ne_zero hd)
  rcases Int.le_total 0 k with hk | hk
  · have h : p.along d k = p - (-d).scale k := by
      ext <;> simp
    rw [h, hfrontIff k hk]
    omega
  · have h : p.along d k = p - d.scale (-k) := by
      ext <;> simp
    rw [h, hbackIff (-k) (by omega)]
    omega

/-- A step goes to the next point of the line, and from the last one to the first. -/
theorem next_along {b : Bounds} {p d : Vec} (hp : p ∈ b) (hd : d ≠ Vec.zero) {k : Int}
    (hk : p.along d k ∈ b) :
    b.next (p.along d k) d =
      p.along d (if k < b.stepsBack p (-d) then k + 1 else -b.stepsBack p d) := by
  have hbound := (mem_along_iff hp hd k).mp hk
  have hnext := mem_along_iff hp hd (k + 1)
  rw [next, Vec.along_add_self]
  by_cases hlt : k < b.stepsBack p (-d)
  · rw [if_pos (hnext.mpr (by omega)), if_pos hlt]
  · -- only the last point has no next one, and then the whole line lies behind it
    have hroom : b.stepsBack (p.along d k) d = k + b.stepsBack p d := by
      refine stepsBack_unique hk hd (by omega) ?_
      intro j hj
      rw [Vec.along_sub_scale, mem_along_iff hp hd]
      omega
    rw [if_neg (fun h => by have := hnext.mp h; omega), if_neg hlt, wrap, hroom,
      Vec.along_sub_scale]
    congr 1
    omega

/-- A step along the opposite delta goes to the point before, and from the first one to the
last. -/
theorem next_neg_along {b : Bounds} {p d : Vec} (hp : p ∈ b) (hd : d ≠ Vec.zero) {k : Int}
    (hk : p.along d k ∈ b) :
    b.next (p.along d k) (-d) =
      p.along d (if -b.stepsBack p d < k then k - 1 else b.stepsBack p (-d)) := by
  have hline : p.along d k = p.along (-d) (-k) := by rw [Vec.along_neg, Int.neg_neg]
  rw [hline] at hk
  rw [hline, next_along hp (Vec.neg_ne_zero hd) hk, Vec.neg_neg, Vec.along_neg]
  congr 1
  split <;> split <;> omega

theorem next_zero {b : Bounds} {p : Vec} (hp : p ∈ b) : b.next p Vec.zero = p := by
  have h : p + Vec.zero = p := by
    ext <;> simp [Vec.zero]
  rw [next, h, if_pos hp]

/-- A step from inside the box stays inside. -/
theorem next_mem {b : Bounds} {p : Vec} (hp : p ∈ b) (d : Vec) : b.next p d ∈ b := by
  by_cases hd : d = Vec.zero
  · rw [hd, next_zero hp]
    exact hp
  · have h0 : p.along d 0 ∈ b := by rwa [Vec.along_zero]
    have hbound := (mem_along_iff hp hd 0).mp h0
    have h := next_along hp hd h0
    rw [Vec.along_zero] at h
    rw [h, mem_along_iff hp hd]
    split <;> omega

/-- A step along the opposite delta undoes a step. -/
theorem next_neg_next {b : Bounds} {p : Vec} (hp : p ∈ b) (d : Vec) :
    b.next (b.next p d) (-d) = p := by
  by_cases hd : d = Vec.zero
  · subst hd
    rw [next_zero hp]
    exact next_zero hp
  · have h0 : p.along d 0 ∈ b := by rwa [Vec.along_zero]
    have hbound := (mem_along_iff hp hd 0).mp h0
    have h := next_along hp hd h0
    rw [Vec.along_zero] at h
    have hmem := next_mem hp d
    rw [h] at hmem ⊢
    rw [next_neg_along hp hd hmem]
    conv_rhs => rw [← Vec.along_zero p d]
    congr 1
    split <;> split <;> omega

/-! ## Walks -/

/-- The points of the line through `p` along `d` that lie in the box. -/
def line (b : Bounds) (p d : Vec) : Set Vec := {q | q ∈ b ∧ ∃ k : Int, q = p + d.scale k}

/-- How many points of the box lie on the line through `p` along a delta that moves. -/
def lineLength (b : Bounds) (p d : Vec) : Int := b.stepsBack p d + b.stepsBack p (-d) + 1

/-- Counting on by one, modulo `n`. -/
private theorem add_one_emod {n : Int} (hn : 0 < n) (x : Int) :
    (x + 1) % n = if x % n + 1 < n then x % n + 1 else 0 := by
  have hlow := Int.emod_nonneg x (Int.ne_of_gt hn)
  have hhigh := Int.emod_lt_of_pos x hn
  have hsplit : x + 1 = (x % n + 1) + n * (x / n) := by
    have := Int.emod_add_mul_ediv x n
    omega
  rw [hsplit, Int.add_mul_emod_self_left]
  split
  next hlt => exact Int.emod_eq_of_lt (by omega) hlt
  next hge =>
    rw [show x % n + 1 = n by omega]
    exact Int.emod_self

/-- A walk goes round the line: after `i` steps it is `i` points further, counted modulo the
number of points. -/
theorem iterate_next {b : Bounds} {p d : Vec} (hp : p ∈ b) (hd : d ≠ Vec.zero) (i : Nat) :
    (b.next · d)^[i] p =
      p.along d ((b.stepsBack p d + i) % b.lineLength p d - b.stepsBack p d) := by
  have hback := stepsBack_nonneg hp hd
  have hfront := stepsBack_nonneg hp (Vec.neg_ne_zero hd)
  have hlen : b.lineLength p d = b.stepsBack p d + b.stepsBack p (-d) + 1 := rfl
  induction i with
  | zero =>
      rw [Function.iterate_zero_apply, Int.emod_eq_of_lt (by omega) (by omega)]
      simp
  | succ i ih =>
      have hlow := Int.emod_nonneg (b.stepsBack p d + i) (b := b.lineLength p d) (by omega)
      have hhigh := Int.emod_lt_of_pos (b.stepsBack p d + i) (b := b.lineLength p d) (by omega)
      have hmem : p.along d ((b.stepsBack p d + i) % b.lineLength p d - b.stepsBack p d) ∈ b := by
        rw [mem_along_iff hp hd]
        omega
      rw [Function.iterate_succ_apply', ih, next_along hp hd hmem, Nat.cast_succ,
        ← Int.add_assoc, add_one_emod (by omega)]
      congr 1
      split <;> split <;> omega

theorem iterate_next_zero {b : Bounds} {p : Vec} (hp : p ∈ b) (i : Nat) :
    (b.next · Vec.zero)^[i] p = p :=
  Function.iterate_fixed (f := (b.next · Vec.zero)) (next_zero hp) i

/-- A walk stays on its line. -/
theorem iterate_next_mem_line {b : Bounds} {p : Vec} (hp : p ∈ b) (d : Vec) (i : Nat) :
    (b.next · d)^[i] p ∈ b.line p d := by
  constructor
  · induction i with
    | zero => exact hp
    | succ i ih =>
        rw [Function.iterate_succ_apply']
        exact next_mem ih d
  · by_cases hd : d = Vec.zero
    · subst hd
      exact ⟨0, by rw [iterate_next_zero hp]; exact (Vec.along_zero p Vec.zero).symm⟩
    · exact ⟨_, iterate_next hp hd i⟩

/-- After as many steps as the line has points, a walk is back where it began. -/
theorem iterate_next_lineLength {b : Bounds} {p d : Vec} (hp : p ∈ b) (hd : d ≠ Vec.zero) :
    (b.next · d)^[(b.lineLength p d).toNat] p = p := by
  have hback := stepsBack_nonneg hp hd
  have hfront := stepsBack_nonneg hp (Vec.neg_ne_zero hd)
  have hlen : b.lineLength p d = b.stepsBack p d + b.stepsBack p (-d) + 1 := rfl
  rw [iterate_next hp hd, Int.toNat_of_nonneg (by omega), Int.add_emod_right,
    Int.emod_eq_of_lt hback (by omega), Int.sub_self, Vec.along_zero]

/-- Before that it is at every point of the line once. -/
theorem existsUnique_iterate_next {b : Bounds} {p d q : Vec} (hp : p ∈ b) (hd : d ≠ Vec.zero)
    (hq : q ∈ b.line p d) :
    ∃! i, i < (b.lineLength p d).toNat ∧ (b.next · d)^[i] p = q := by
  obtain ⟨hmem, k, hk⟩ := hq
  replace hk : q = p.along d k := hk
  subst hk
  have hbound := (mem_along_iff hp hd k).mp hmem
  have hback := stepsBack_nonneg hp hd
  have hfront := stepsBack_nonneg hp (Vec.neg_ne_zero hd)
  have hlen : b.lineLength p d = b.stepsBack p d + b.stepsBack p (-d) + 1 := rfl
  -- less than one round ahead, the remainder is the number itself or one round less
  have hround : ∀ i : Nat, i < (b.lineLength p d).toNat →
      (b.stepsBack p d + i) % b.lineLength p d =
        if b.stepsBack p d + i < b.lineLength p d then b.stepsBack p d + i
        else b.stepsBack p d + i - b.lineLength p d := by
    intro i hi
    split
    next hlt => exact Int.emod_eq_of_lt (by omega) hlt
    next hge =>
      rw [← Int.sub_emod_right]
      exact Int.emod_eq_of_lt (by omega) (by omega)
  refine ⟨(if 0 ≤ k then k else k + b.lineLength p d).toNat, ⟨?_, ?_⟩, ?_⟩
  · split <;> omega
  · rw [iterate_next hp hd, hround _ (by split <;> omega)]
    congr 1
    split <;> split <;> omega
  · rintro i ⟨hi, hik⟩
    rw [iterate_next hp hd, hround i hi] at hik
    have hnum := Vec.along_injective p hd hik
    split at hnum <;> split <;> omega

/-- A walk from `p` visits every point of its line in the box once and then returns. -/
def GoesRound (b : Bounds) (p d : Vec) : Prop :=
  ∃ n, 0 < n ∧ (b.next · d)^[n] p = p ∧ (∀ i, (b.next · d)^[i] p ∈ b.line p d) ∧
    ∀ q ∈ b.line p d, ∃! i, i < n ∧ (b.next · d)^[i] p = q

/-- Steps along a delta permute the box, and steps along the opposite delta undo them. -/
theorem next_permutes (b : Bounds) (d : Vec) :
    Set.BijOn (b.next · d) {p | p ∈ b} {p | p ∈ b} ∧
    ∀ p ∈ b, b.next p d ∈ b ∧ b.next (b.next p d) (-d) = p ∧ b.GoesRound p d := by
  constructor
  · refine Set.BijOn.mk (fun p hp => next_mem hp d) ?_ ?_
    · intro p hp q hq h
      have h' : b.next p d = b.next q d := h
      rw [← next_neg_next hp d, h', next_neg_next hq d]
    · intro p hp
      refine ⟨b.next p (-d), next_mem hp (-d), ?_⟩
      have h := next_neg_next hp (-d)
      rwa [Vec.neg_neg] at h
  · intro p hp
    refine ⟨next_mem hp d, next_neg_next hp d, ?_⟩
    by_cases hd : d = Vec.zero
    · subst hd
      refine ⟨1, Nat.one_pos, iterate_next_zero hp 1, iterate_next_mem_line hp _, ?_⟩
      rintro q ⟨_, k, rfl⟩
      have hq : p + Vec.zero.scale k = p := by
        ext <;> simp [Vec.zero]
      rw [hq]
      exact ⟨0, ⟨Nat.one_pos, rfl⟩, fun i hi => Nat.lt_one_iff.mp hi.1⟩
    · obtain ⟨hback, _⟩ := stepsBack_spec hp hd
      have hfront := stepsBack_nonneg hp (Vec.neg_ne_zero hd)
      refine ⟨(b.lineLength p d).toNat, ?_, iterate_next_lineLength hp hd,
        iterate_next_mem_line hp d, fun q hq => existsUnique_iterate_next hp hd hq⟩
      rw [lineLength]
      omega

/-- A walk of three points, which the two axes bound in turn. -/
theorem next_permutes_oblique :
    (⟨-2, 3⟩ : Vec) ∈ (unit.extend ⟨5, 3⟩).extend ⟨-2, -1⟩ ∧
      ((unit.extend ⟨5, 3⟩).extend ⟨-2, -1⟩).next ⟨-2, 3⟩ ⟨3, -2⟩ ∈
        (unit.extend ⟨5, 3⟩).extend ⟨-2, -1⟩ ∧
      ((unit.extend ⟨5, 3⟩).extend ⟨-2, -1⟩).GoesRound ⟨-2, 3⟩ ⟨3, -2⟩ := by
  have hp : (⟨-2, 3⟩ : Vec) ∈ (unit.extend ⟨5, 3⟩).extend ⟨-2, -1⟩ := by decide
  obtain ⟨hmem, -, hround⟩ :=
    (next_permutes ((unit.extend ⟨5, 3⟩).extend ⟨-2, -1⟩) ⟨3, -2⟩).2 ⟨-2, 3⟩ hp
  exact ⟨hp, hmem, hround⟩

end Bounds

end Befunge
