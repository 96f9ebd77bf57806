import Mathlib.Algebra.Order.Ring.Int
import Mathlib.Data.Finset.Card
import Mathlib.Data.Finset.Image
import Mathlib.Data.Finset.Prod
import Mathlib.Dynamics.PeriodicPts.Defs
import Befunge.Course
import Befunge.Proofs.Movement

/-!
# Stations of a course

A search for a command goes from station to station.  A station is a position together with
whether the course is inside a comment once the cell there was read.

Two facts carry everything about searches.  A walk has few positions, wherever it begins
(`Bounds.exists_closed`), so a search without a limit ends, and it ends before the limit of
`Course.findCommand` is used up (`Course.stops_findCommand`).  And a course can be run
backward: `Station.mirror` turns what was read up to a cell into what is still to be read
from it, and the step along the opposite delta undoes a step between mirrored stations
(`Station.onward_neg_mirror`).  So inside the box no two courses ever join, and the first
station that a course meets again is the one it began at.
-/

namespace Befunge

/-! ## Walks from anywhere -/

namespace Bounds

theorem room_back (lo hi x d n : Int) :
    room lo hi (x - d * n) d = (room lo hi x d).map (· - n) := by
  by_cases hd : d = 0
  · simp [room, hd]
  · by_cases hpos : 0 < d
    · have hnum : x - d * n - lo = x - lo + d * -n := by ring
      simp only [room, if_neg hd, if_pos hpos, Option.map_some]
      rw [hnum, Int.add_mul_ediv_left _ _ hd]
      rfl
    · have hnum : hi - (x - d * n) = hi - x + -d * -n := by ring
      have hneg : -d ≠ 0 := by omega
      simp only [room, if_neg hd, if_neg hpos, Option.map_some]
      rw [hnum, Int.add_mul_ediv_left _ _ hneg]
      rfl

/-- A step that re-enters the box goes back as far as it can. -/
theorem stepsBack_wrap (b : Bounds) (p d : Vec) : b.stepsBack (b.wrap p d) d = 0 := by
  have hx := room_back b.least.x b.greatest.x p.x d.x (b.stepsBack p d)
  have hy := room_back b.least.y b.greatest.y p.y d.y (b.stepsBack p d)
  rw [stepsBack, wrap, Vec.sub_x, Vec.sub_y, Vec.scale_x, Vec.scale_y, hx, hy, stepsBack]
  cases room b.least.x b.greatest.x p.x d.x with
  | none =>
      cases room b.least.y b.greatest.y p.y d.y with
      | none => rfl
      | some n => simp only [Option.map_none, Option.map_some]; omega
  | some m =>
      cases room b.least.y b.greatest.y p.y d.y with
      | none => simp only [Option.map_none, Option.map_some]; omega
      | some n => simp only [Option.map_some]; omega

theorem next_wrap (b : Bounds) (p d : Vec) :
    b.next (b.wrap p d) d ∈ b ∨ b.next (b.wrap p d) d = b.wrap p d := by
  rw [next]
  split
  next hmem => exact .inl hmem
  next =>
    right
    rw [wrap, stepsBack_wrap]
    ext <;> simp

/-- Points of one axis are at most as many steps apart as the axis has room for. -/
theorem steps_le {lo hi x e m n : Int} (he : e ≠ 0) (hmn : m ≤ n)
    (hm : lo ≤ x + e * m ∧ x + e * m ≤ hi) (hn : lo ≤ x + e * n ∧ x + e * n ≤ hi) :
    n - m ≤ hi - lo := by
  have hsteps : 0 ≤ n - m := by omega
  rcases Int.lt_or_gt_of_ne he with hneg | hpos
  · have hle : n - m ≤ -e * (n - m) := le_mul_of_one_le_left hsteps (by omega)
    have hdist : -e * (n - m) = (x + e * m) - (x + e * n) := by ring
    omega
  · have hle : n - m ≤ e * (n - m) := le_mul_of_one_le_left hsteps hpos
    have hdist : e * (n - m) = (x + e * n) - (x + e * m) := by ring
    omega

theorem lineLength_le {b : Bounds} {p d : Vec} (hp : p ∈ b) (hd : d ≠ Vec.zero) :
    b.lineLength p d ≤ b.size.x + b.size.y := by
  have hback := stepsBack_nonneg hp hd
  have hfront := stepsBack_nonneg hp (Vec.neg_ne_zero hd)
  have hends : -b.stepsBack p d ≤ b.stepsBack p (-d) := by omega
  obtain ⟨hfirstX, hfirstY⟩ := mem_def.mp ((mem_along_iff hp hd _).mpr ⟨le_refl _, hends⟩)
  obtain ⟨hlastX, hlastY⟩ := mem_def.mp ((mem_along_iff hp hd _).mpr ⟨hends, le_refl _⟩)
  have hbox := mem_def.mp b.zero_mem
  simp only [Vec.zero] at hbox
  simp only [lineLength, size]
  by_cases hdx : d.x = 0
  · have hdy : d.y ≠ 0 := fun hdy => hd (Vec.ext hdx hdy)
    have hsteps := steps_le hdy hends hfirstY hlastY
    omega
  · have hsteps := steps_le hdx hends hfirstX hlastX
    omega

theorem exists_return_of_mem {b : Bounds} {p : Vec} (hp : p ∈ b) (d : Vec) :
    ∃ n, 0 < n ∧ n ≤ b.size.x.toNat + b.size.y.toNat ∧ (b.next · d)^[n] p = p := by
  have hx := b.least_x_le
  have hx' := b.le_greatest_x
  by_cases hd : d = Vec.zero
  · subst hd
    refine ⟨1, Nat.one_pos, ?_, iterate_next_zero hp 1⟩
    simp only [size]
    omega
  · have hlength := lineLength_le hp hd
    have hback := stepsBack_nonneg hp hd
    have hfront := stepsBack_nonneg hp (Vec.neg_ne_zero hd)
    refine ⟨(b.lineLength p d).toNat, ?_, by omega, iterate_next_lineLength hp hd⟩
    rw [lineLength]
    omega

/-- A walk that begins outside the box is inside after two steps or does not move any more. -/
theorem exists_return (b : Bounds) (p d : Vec) :
    ∃ i j, i < j ∧ j ≤ b.size.x.toNat + b.size.y.toNat + 2 ∧
      (b.next · d)^[i] p = (b.next · d)^[j] p := by
  have hinside {k : Nat} (hk : k ≤ 2) (hmem : (b.next · d)^[k] p ∈ b) :
      ∃ i j, i < j ∧ j ≤ b.size.x.toNat + b.size.y.toNat + 2 ∧
        (b.next · d)^[i] p = (b.next · d)^[j] p := by
    obtain ⟨n, hpos, hle, hreturn⟩ := exists_return_of_mem hmem d
    refine ⟨k, n + k, by omega, by omega, ?_⟩
    rw [Function.iterate_add_apply, hreturn]
  by_cases hstep : p + d ∈ b
  · refine hinside (k := 1) (by omega) ?_
    simpa only [Function.iterate_one, next, if_pos hstep] using hstep
  · have hwrap : b.next p d = b.wrap p d := if_neg hstep
    rcases b.next_wrap p d with hmem | hrest
    · refine hinside (k := 2) (Nat.le_refl 2) ?_
      rwa [Function.iterate_succ_apply', Function.iterate_one, hwrap]
    · refine ⟨1, 2, by omega, by omega, ?_⟩
      rw [Function.iterate_succ_apply' (n := 1), Function.iterate_one, hwrap, hrest]

/-- A walk stays among so few positions, wherever it begins. -/
theorem exists_closed (b : Bounds) (p d : Vec) :
    ∃ positions : Finset Vec, p ∈ positions ∧ (∀ q ∈ positions, b.next q d ∈ positions) ∧
      positions.card ≤ b.size.x.toNat + b.size.y.toNat + 2 := by
  obtain ⟨i, j, hij, hj, hreturn⟩ := b.exists_return p d
  refine ⟨(Finset.range j).image fun k => (b.next · d)^[k] p, ?_, ?_, ?_⟩
  · exact Finset.mem_image.mpr ⟨0, Finset.mem_range.mpr (by omega), rfl⟩
  · intro q hq
    obtain ⟨k, hk, rfl⟩ := Finset.mem_image.mp hq
    have hnext : b.next ((b.next · d)^[k] p) d = (b.next · d)^[k + 1] p :=
      (Function.iterate_succ_apply' (b.next · d) k p).symm
    rw [hnext, Finset.mem_image]
    rcases Nat.lt_or_ge (k + 1) j with hlt | hge
    · exact ⟨k + 1, Finset.mem_range.mpr hlt, rfl⟩
    · have hkj : k + 1 = j := by
        have := Finset.mem_range.mp hk
        omega
      exact ⟨i, Finset.mem_range.mpr hij, by rw [hkj, hreturn]⟩
  · exact Finset.card_image_le.trans (by rwa [Finset.card_range])

end Bounds

/-! ## Stations and their mirror images -/

namespace Station

/-- The station at `p` of a course that came there inside a comment or outside of one. -/
def arrive (s : Space) (p : Vec) (skipping : Bool) : Station :=
  ⟨p, if s.read p = Cell.semicolon then !skipping else skipping⟩

/-- The station after a station. -/
def onward (s : Space) (delta : Vec) (st : Station) : Station :=
  arrive s (s.bounds.next st.position delta) st.skipping

/-- A course ends at a station that is a command. -/
def IsCommand (s : Space) (st : Station) : Prop :=
  s.read st.position ≠ Cell.semicolon ∧ s.read st.position ≠ Cell.blank ∧ st.skipping = false

instance (s : Space) (st : Station) : Decidable (st.IsCommand s) :=
  inferInstanceAs (Decidable (_ ∧ _ ∧ _))

/-- The station of a course that goes the other way and has read the same comments to the end. -/
def mirror (s : Space) (st : Station) : Station := arrive s st.position st.skipping

variable {s : Space} {delta : Vec} {st st' : Station}

theorem mirror_mirror (s : Space) (st : Station) : (st.mirror s).mirror s = st := by
  obtain ⟨p, skipping⟩ := st
  simp only [mirror, arrive]
  split <;> simp

theorem mirror_arrive (s : Space) (p : Vec) (skipping : Bool) :
    (arrive s p skipping).mirror s = ⟨p, skipping⟩ :=
  mirror_mirror s ⟨p, skipping⟩

theorem mirror_of_ne (h : s.read st.position ≠ Cell.semicolon) : st.mirror s = st := by
  rw [mirror, arrive, if_neg h]

theorem isCommand_mirror : (st.mirror s).IsCommand s ↔ st.IsCommand s := by
  by_cases h : s.read st.position = Cell.semicolon
  · exact ⟨fun hc => absurd h hc.1, fun hc => absurd h hc.1⟩
  · rw [mirror_of_ne h]

/-- The step along the opposite delta undoes a step, seen in the mirror. -/
theorem onward_neg_mirror (h : st.position ∈ s.bounds) :
    ((st.onward s delta).mirror s).onward s (-delta) = st.mirror s := by
  have hmirror : (st.onward s delta).mirror s = ⟨s.bounds.next st.position delta, st.skipping⟩ :=
    mirror_arrive s _ _
  rw [hmirror, onward, Bounds.next_neg_next h]
  rfl

theorem onward_inj (h : st.position ∈ s.bounds) (h' : st'.position ∈ s.bounds)
    (heq : st.onward s delta = st'.onward s delta) : st = st' := by
  have hmirror : st.mirror s = st'.mirror s := by
    rw [← onward_neg_mirror h, heq, onward_neg_mirror h']
  rw [← mirror_mirror s st, hmirror, mirror_mirror]

/-- The station `k` steps after a station. -/
def ahead (s : Space) (delta : Vec) (st : Station) (k : Nat) : Station := (onward s delta)^[k] st

theorem ahead_onward (s : Space) (delta : Vec) (st : Station) (k : Nat) :
    (st.onward s delta).ahead s delta k = st.ahead s delta (k + 1) :=
  rfl

theorem ahead_succ (s : Space) (delta : Vec) (st : Station) (k : Nat) :
    st.ahead s delta (k + 1) = (st.ahead s delta k).onward s delta :=
  Function.iterate_succ_apply' (onward s delta) k st

theorem position_ahead (s : Space) (delta : Vec) (st : Station) (k : Nat) :
    (st.ahead s delta k).position = (s.bounds.next · delta)^[k] st.position := by
  induction k with
  | zero => rfl
  | succ k ih =>
      rw [ahead_succ, Function.iterate_succ_apply', ← ih]
      rfl

theorem ahead_mem (h : st.position ∈ s.bounds) (k : Nat) :
    (st.ahead s delta k).position ∈ s.bounds := by
  rw [position_ahead]
  exact (Bounds.iterate_next_mem_line h delta k).1

/-- A course is run backward from its last station to its first. -/
theorem ahead_neg_mirror (h : st.position ∈ s.bounds) {j k : Nat} (hj : j ≤ k) :
    ((st.ahead s delta k).mirror s).ahead s (-delta) j = (st.ahead s delta (k - j)).mirror s := by
  induction j with
  | zero => rfl
  | succ j ih =>
      have hk : k - j = (k - (j + 1)) + 1 := by omega
      rw [ahead_succ, ih (by omega), hk, ahead_succ, onward_neg_mirror (ahead_mem h _)]

/-- Inside the box a course comes back to a station only by way of its first one. -/
theorem ahead_eq_of_eq (h : st.position ∈ s.bounds) {i k : Nat}
    (heq : st.ahead s delta i = st.ahead s delta (i + k)) : st.ahead s delta k = st := by
  induction i with
  | zero =>
      rw [Nat.zero_add] at heq
      exact heq.symm
  | succ i ih =>
      rw [Nat.add_right_comm, ahead_succ, ahead_succ] at heq
      exact ih (onward_inj (ahead_mem h _) (ahead_mem h _) heq)

end Station

/-! ## Searches without a limit -/

namespace Course

open Station

/-- How a search without a limit goes on from a station, having passed others.  `Stops s delta
seen st p n` says that it reads `n` more cells and ends at `p`. -/
inductive Stops (s : Space) (delta : Vec) : Seen → Station → Vec → Nat → Prop
  | command {seen : Seen} {st : Station} :
      st.IsCommand s → Stops s delta seen st st.position 1
  | again {seen : Seen} {st : Station} :
      ¬ st.IsCommand s → seen.contains st = true → Stops s delta seen st st.position 1
  | on {seen : Seen} {st : Station} {p : Vec} {n : Nat} :
      ¬ st.IsCommand s → seen.contains st = false →
      Stops s delta (seen.insert st) (st.onward s delta) p n → Stops s delta seen st p (n + 1)

variable {s : Space} {delta : Vec}

theorem Stops.unique {seen : Seen} {st : Station} {p p' : Vec} {n n' : Nat}
    (h : Stops s delta seen st p n) (h' : Stops s delta seen st p' n') : p = p' ∧ n = n' := by
  induction h generalizing p' n' with
  | command hc =>
      cases h' with
      | command => exact ⟨rfl, rfl⟩
      | again hn => exact absurd hc hn
      | on hn => exact absurd hc hn
  | again hn hseen =>
      cases h' with
      | command hc => exact absurd hc hn
      | again => exact ⟨rfl, rfl⟩
      | on _ hnew => simp [hseen] at hnew
  | on hn hnew _ ih =>
      cases h' with
      | command hc => exact absurd hc hn
      | again _ hseen => simp [hseen] at hnew
      | on _ _ h' =>
          obtain ⟨rfl, rfl⟩ := ih h'
          exact ⟨rfl, rfl⟩

theorem contains_insert {seen : Seen} {st st' : Station} :
    (seen.insert st).contains st' = true ↔ st = st' ∨ seen.contains st' = true := by
  rw [Std.TreeSet.contains_insert, Bool.or_eq_true, beq_iff_eq,
    Std.LawfulEqCmp.compare_eq_iff_eq]

theorem searchCommand_succ (s : Space) (delta : Vec) (limit : Nat) (seen : Seen) (p : Vec)
    (skipping : Bool) (reads : Nat) :
    searchCommand s delta (limit + 1) seen p skipping reads =
      if (arrive s p skipping).IsCommand s then (p, reads + 1)
      else if seen.contains (arrive s p skipping) then (p, reads + 1)
      else
        searchCommand s delta limit (seen.insert (arrive s p skipping)) (s.bounds.next p delta)
          (arrive s p skipping).skipping (reads + 1) :=
  rfl

/-- A limit is not used up that is greater than the number of stations yet to be met.  Each step
takes one of them away. -/
theorem stops_searchCommand {positions : Finset Vec}
    (hclosed : ∀ q ∈ positions, s.bounds.next q delta ∈ positions) (limit : Nat) :
    ∀ (fresh : Finset Station) {seen : Seen} {p : Vec} (skipping : Bool) (reads : Nat),
      p ∈ positions →
      (∀ st : Station, st.position ∈ positions → st ∈ fresh ∨ seen.contains st = true) →
      fresh.card < limit →
      ∃ n, Stops s delta seen (arrive s p skipping)
        (searchCommand s delta limit seen p skipping reads).1 n ∧
        (searchCommand s delta limit seen p skipping reads).2 = reads + n := by
  induction limit with
  | zero =>
      intro fresh seen p skipping reads _ _ hcard
      exact absurd hcard (Nat.not_lt_zero _)
  | succ limit ih =>
      intro fresh seen p skipping reads hp hfresh hcard
      rw [searchCommand_succ]
      split
      next hc => exact ⟨1, .command hc, rfl⟩
      next hc =>
        split
        next hseen => exact ⟨1, .again hc hseen, rfl⟩
        next hnew =>
          have hmem : arrive s p skipping ∈ fresh := (hfresh _ hp).resolve_right hnew
          have hfewer : (fresh.erase (arrive s p skipping)).card < limit := by
            have := Finset.card_erase_lt_of_mem hmem
            omega
          have hrest : ∀ st : Station, st.position ∈ positions →
              st ∈ fresh.erase (arrive s p skipping) ∨
                (seen.insert (arrive s p skipping)).contains st = true := by
            intro st hst
            rw [contains_insert, Finset.mem_erase]
            by_cases heq : arrive s p skipping = st
            · exact .inr (.inl heq)
            · rcases hfresh st hst with h | h
              · exact .inl ⟨Ne.symm heq, h⟩
              · exact .inr (.inr h)
          obtain ⟨n, hstops, hreads⟩ := ih _ (arrive s p skipping).skipping (reads + 1)
            (hclosed p hp) hrest hfewer
          refine ⟨n + 1, .on hc (Bool.eq_false_of_not_eq_true hnew) hstops, ?_⟩
          rw [hreads]
          omega

/-- The search for a command ends before its limit is used up, wherever it begins. -/
theorem stops_findCommand (s : Space) (delta p : Vec) :
    Stops s delta ∅ (arrive s p false) (findCommand s delta p).1 (findCommand s delta p).2 := by
  obtain ⟨positions, hp, hclosed, hcard⟩ := s.bounds.exists_closed p delta
  let stations := (positions ×ˢ Finset.univ).image fun at_ : Vec × Bool => Station.mk at_.1 at_.2
  have hstations : stations.card < s.bounds.courseLimit := by
    have hle : stations.card ≤ positions.card * 2 :=
      Finset.card_image_le.trans_eq (by rw [Finset.card_product]; rfl)
    rw [Bounds.courseLimit]
    omega
  have hall : ∀ st : Station, st.position ∈ positions →
      st ∈ stations ∨ (∅ : Seen).contains st = true := by
    intro st hst
    refine .inl (Finset.mem_image.mpr ⟨(st.position, st.skipping), ?_, rfl⟩)
    exact Finset.mem_product.mpr ⟨hst, Finset.mem_univ _⟩
  obtain ⟨n, hstops, hreads⟩ := stops_searchCommand hclosed _ stations false 0 hp hall hstations
  rw [Nat.zero_add] at hreads
  rw [findCommand, hreads]
  exact hstops

theorem stops_iff {p q : Vec} {n : Nat} :
    Stops s delta ∅ (arrive s p false) q n ↔ findCommand s delta p = (q, n) := by
  constructor
  · intro h
    obtain ⟨hq, hn⟩ := (stops_findCommand s delta p).unique h
    exact Prod.ext hq hn
  · intro h
    have hstops := stops_findCommand s delta p
    rwa [h] at hstops

/-! ## Where a search ends -/

/-- A search that is at a station, having passed others, goes past `k` stations.  The one after
them is a command or was met before. -/
structure Passes (s : Space) (delta : Vec) (seen : Seen) (st : Station) (k : Nat) : Prop where
  noCommand : ∀ i < k, ¬ (st.ahead s delta i).IsCommand s
  fresh : ∀ i < k, seen.contains (st.ahead s delta i) = false
  apart : ∀ i j, i < j → j < k → st.ahead s delta i ≠ st.ahead s delta j
  final : (st.ahead s delta k).IsCommand s ∨ seen.contains (st.ahead s delta k) = true ∨
    ∃ i < k, st.ahead s delta i = st.ahead s delta k

theorem Passes.zero {seen : Seen} {st : Station}
    (h : st.IsCommand s ∨ seen.contains st = true) : Passes s delta seen st 0 where
  noCommand i hi := absurd hi (Nat.not_lt_zero i)
  fresh i hi := absurd hi (Nat.not_lt_zero i)
  apart _ j _ hj := absurd hj (Nat.not_lt_zero j)
  final := h.imp_right .inl

theorem Passes.succ {seen : Seen} {st : Station} {k : Nat} (hc : ¬ st.IsCommand s)
    (hnew : seen.contains st = false)
    (h : Passes s delta (seen.insert st) (st.onward s delta) k) :
    Passes s delta seen st (k + 1) where
  noCommand i hi := by
    cases i with
    | zero => exact hc
    | succ i => exact h.noCommand i (Nat.lt_of_succ_lt_succ hi)
  fresh i hi := by
    cases i with
    | zero => exact hnew
    | succ i =>
        have hi' := h.fresh i (Nat.lt_of_succ_lt_succ hi)
        rw [Bool.eq_false_iff, ne_eq, contains_insert, not_or] at hi'
        exact Bool.eq_false_of_not_eq_true hi'.2
  apart i j hij hj := by
    cases j with
    | zero => exact absurd hij (Nat.not_lt_zero i)
    | succ j =>
        have hj' := Nat.lt_of_succ_lt_succ hj
        cases i with
        | zero =>
            have hfresh := h.fresh j hj'
            rw [Bool.eq_false_iff, ne_eq, contains_insert, not_or] at hfresh
            exact hfresh.1
        | succ i => exact h.apart i j (Nat.lt_of_succ_lt_succ hij) hj'
  final := by
    rcases h.final with hcommand | hseen | ⟨i, hi, heq⟩
    · exact .inl hcommand
    · rcases contains_insert.mp hseen with heq | hold
      · exact .inr (.inr ⟨0, Nat.succ_pos k, heq⟩)
      · exact .inr (.inl hold)
    · exact .inr (.inr ⟨i + 1, Nat.succ_lt_succ hi, heq⟩)

theorem Stops.passes {seen : Seen} {st : Station} {p : Vec} {n : Nat}
    (h : Stops s delta seen st p n) :
    ∃ k, p = (st.ahead s delta k).position ∧ Passes s delta seen st k := by
  induction h with
  | command hc => exact ⟨0, rfl, .zero (.inl hc)⟩
  | again _ hseen => exact ⟨0, rfl, .zero (.inr hseen)⟩
  | on hc hnew _ ih =>
      obtain ⟨k, hp, hpasses⟩ := ih
      exact ⟨k + 1, hp, hpasses.succ hc hnew⟩

/-- Inside the box a search finds the first command ahead.  If it finds none it is back at the
station it began at, and so it has met every station there is. -/
theorem Passes.outcome {st : Station} {k : Nat} (h : Passes s delta ∅ st k)
    (hmem : st.position ∈ s.bounds) :
    IsLeast {i | (st.ahead s delta i).IsCommand s} k ∨
      (0 < k ∧ st.ahead s delta k = st ∧ ∀ i, ¬ (st.ahead s delta i).IsCommand s) := by
  rcases h.final with hcommand | hseen | ⟨i, hi, heq⟩
  · refine .inl ⟨hcommand, fun i hi => ?_⟩
    by_contra hlt
    exact h.noCommand i (Nat.lt_of_not_le hlt) hi
  · exact absurd hseen (by simp)
  · have hback : st.ahead s delta (k - i) = st := by
      refine ahead_eq_of_eq hmem (i := i) ?_
      rwa [Nat.add_sub_cancel' hi.le]
    have hzero : i = 0 := by
      by_contra hne
      exact h.apart 0 (k - i) (by omega) (by omega) hback.symm
    subst hzero
    refine .inr ⟨hi, hback, fun j => ?_⟩
    have hperiodic : Function.IsPeriodicPt (onward s delta) k st := hback
    have hj : st.ahead s delta (j % k) = st.ahead s delta j := hperiodic.iterate_mod_apply j
    rw [← hj]
    exact h.noCommand (j % k) (Nat.mod_lt j hi)

end Course

end Befunge
