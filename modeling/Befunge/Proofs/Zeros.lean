import Mathlib.Computability.TuringMachine.Tape
import Befunge.Proofs.Piles

/-!
# The endless pile of zeros

A stack behaves as if it sat on an endless pile of zeros, so it does not matter how many of them
are stored.  The stack together with that pile is one half of a tape whose blanks are zeros
(`Stack.tape`), and two stacks have the same tape if they differ only by zeros at the bottom
(`Stack.alike_iff`).  What an operation on a stack gives back and the tape of the stack it leaves
are determined by the tape before.

So piles whose stacks are alike one by one answer alike, whatever is asked of them and in
whatever order (`StackStack.performAll_of_alike`).
-/

namespace Befunge

open Turing (ListBlank)

/-! ## Stacks as tapes -/

namespace Stack

/-- Two stacks that differ only by zeros at the bottom. -/
def Alike (s t : Stack) : Prop :=
  ∃ n, t.cells = s.cells ++ List.replicate n 0 ∨ s.cells = t.cells ++ List.replicate n 0

/-- A stack with the zeros under it. -/
def tape (s : Stack) : ListBlank Int := .mk s.cells

variable {s t : Stack}

theorem alike_iff : s.Alike t ↔ s.tape = t.tape := by
  have hrel : s.Alike t ↔ Turing.BlankRel s.cells t.cells := exists_or
  exact hrel.trans ⟨fun h => Quotient.sound' h, fun h => Quotient.exact' h⟩

@[simp] theorem tape_push (s : Stack) (v : Int) : (s.push v).tape = s.tape.cons v :=
  (ListBlank.cons_mk v s.cells).symm

theorem fst_pop (s : Stack) : s.pop.1 = s.tape.head := by
  obtain ⟨cells⟩ := s
  cases cells <;> rfl

@[simp] theorem tape_pop (s : Stack) : s.pop.2.tape = s.tape.tail := by
  obtain ⟨cells⟩ := s
  cases cells <;> rfl

@[simp] theorem tape_pushAll (s : Stack) (cells : List Int) :
    (s.pushAll cells).tape = ListBlank.append cells s.tape :=
  (ListBlank.append_mk cells s.cells).symm

theorem tape_drop (cells : List Int) (n : Nat) :
    tape ⟨cells.drop n⟩ = ListBlank.tail^[n] (tape ⟨cells⟩) := by
  induction n generalizing cells with
  | zero => rfl
  | succ n ih =>
      rw [Function.iterate_succ_apply, ← List.drop_tail, ih]
      rfl

theorem nth_eq (s : Stack) (n : Int) :
    s.nth n = if 0 < n then s.tape.nth (n - 1).toNat else 0 := by
  rw [nth, tape, ListBlank.nth_mk]
  rfl

theorem takeD_eq_map (cells : List Int) (n : Nat) :
    cells.takeD n 0 = (List.range n).map (tape ⟨cells⟩).nth := by
  induction n generalizing cells with
  | zero => rfl
  | succ n ih =>
      rw [List.range_succ_eq_map, List.map_cons, List.map_map, List.takeD, ih, ListBlank.nth_zero]
      congr 1
      · cases cells <;> rfl
      · refine List.map_congr_left fun i _ => ?_
        rw [Function.comp_apply, ListBlank.nth_succ]
        rfl

/-! ## Alike stacks -/

theorem takeWhile_append_zeros (cells : List Int) (n : Nat) :
    (cells ++ List.replicate n 0).takeWhile (· ≠ 0) = cells.takeWhile (· ≠ 0) := by
  induction cells with
  | nil => cases n <;> simp [List.replicate_succ]
  | cons v cells ih => simp only [List.cons_append, List.takeWhile_cons, ih]

/-- Beyond the first zero, zeros at the bottom stay at the bottom. -/
theorem dropWhile_append_zeros (cells : List Int) (n : Nat) :
    ∃ k, ((cells ++ List.replicate n 0).dropWhile (· ≠ 0)).drop 1 =
      (cells.dropWhile (· ≠ 0)).drop 1 ++ List.replicate k 0 := by
  induction cells with
  | nil => cases n <;> simp [List.replicate_succ]
  | cons v cells ih =>
      by_cases hv : v = 0
      · exact ⟨n, by simp [hv]⟩
      · simpa [hv] using ih

namespace Alike

theorem refl (s : Stack) : s.Alike s := alike_iff.mpr rfl

theorem symm (h : s.Alike t) : t.Alike s := alike_iff.mpr (alike_iff.mp h).symm

theorem push (h : s.Alike t) (v : Int) : (s.push v).Alike (t.push v) := by
  rw [alike_iff] at h ⊢
  rw [tape_push, tape_push, h]

theorem pop (h : s.Alike t) : s.pop.1 = t.pop.1 ∧ s.pop.2.Alike t.pop.2 := by
  rw [alike_iff] at h ⊢
  rw [fst_pop, fst_pop, tape_pop, tape_pop, h]
  exact ⟨rfl, rfl⟩

theorem pushAll (h : s.Alike t) (cells : List Int) :
    (s.pushAll cells).Alike (t.pushAll cells) := by
  rw [alike_iff] at h ⊢
  rw [tape_pushAll, tape_pushAll, h]

theorem nth (h : s.Alike t) (n : Int) : s.nth n = t.nth n := by
  rw [nth_eq, nth_eq, alike_iff.mp h]

theorem discard (h : s.Alike t) (n : Int) : (s.discard n).Alike (t.discard n) := by
  rw [alike_iff] at h ⊢
  exact (tape_drop s.cells _).trans (h ▸ (tape_drop t.cells _).symm)

theorem take (h : s.Alike t) (n : Int) :
    (s.take n).1 = (t.take n).1 ∧ (s.take n).2.Alike (t.take n).2 := by
  refine ⟨?_, h.discard n⟩
  have htape : tape ⟨s.cells⟩ = tape ⟨t.cells⟩ := alike_iff.mp h
  rw [fst_take, fst_take, takeD_eq_map, takeD_eq_map, htape]

theorem pushVec (h : s.Alike t) (p : Vec) : (s.pushVec p).Alike (t.pushVec p) :=
  (h.push p.x).push p.y

theorem popVec (h : s.Alike t) : s.popVec.1 = t.popVec.1 ∧ s.popVec.2.Alike t.popVec.2 := by
  obtain ⟨hy, hrest⟩ := h.pop
  obtain ⟨hx, hrest⟩ := hrest.pop
  exact ⟨congrArg₂ Vec.mk hx hy, hrest⟩

/-- A text ends at the bottom as it ends at a zero. -/
theorem popText (h : s.Alike t) : s.popText.1 = t.popText.1 ∧ s.popText.2.Alike t.popText.2 := by
  -- how far a text goes is no cell of the tape, so zeros are added on one side, then on the other
  have hzeros {s t : Stack} {n : Nat} (h : t.cells = s.cells ++ List.replicate n 0) :
      s.popText.1 = t.popText.1 ∧ s.popText.2.Alike t.popText.2 := by
    obtain ⟨k, hk⟩ := dropWhile_append_zeros s.cells n
    refine ⟨?_, k, .inl ?_⟩
    · rw [Stack.popText, Stack.popText, h, takeWhile_append_zeros]
    · simpa only [Stack.popText, h] using hk
  obtain ⟨n, hn | hn⟩ := h
  · exact hzeros hn
  · exact ⟨(hzeros hn).1.symm, (hzeros hn).2.symm⟩

theorem transfer (n : Nat) {source source' target target' : Stack} (hs : source.Alike source')
    (ht : target.Alike target') :
    (Stack.transfer n source target).1.Alike (Stack.transfer n source' target').1 ∧
      (Stack.transfer n source target).2.Alike (Stack.transfer n source' target').2 := by
  induction n generalizing source source' target target' with
  | zero => exact ⟨hs, ht⟩
  | succ n ih =>
      obtain ⟨hcell, hrest⟩ := hs.pop
      refine ih hrest ?_
      rw [hcell]
      exact ht.push _

end Alike

end Stack

/-! ## Alike piles -/

namespace StackStack

/-- Two piles with as many stacks, which differ one by one only by zeros at the bottom. -/
structure Alike (s t : StackStack) : Prop where
  top : s.top.Alike t.top
  below : List.Forall₂ Stack.Alike s.below t.below

namespace Alike

variable {s t : StackStack}

theorem beginBlock (h : s.Alike t) (n : Int) (offset : Vec) :
    (s.beginBlock n offset).Alike (t.beginBlock n offset) := by
  obtain ⟨hmoved, hrest⟩ := h.top.take n
  refine ⟨?_, .cons ((hrest.pushAll _).pushVec offset) h.below⟩
  rw [beginBlock_eq, beginBlock_eq, hmoved]
  exact .refl _

theorem endBlock (h : s.Alike t) (n : Int) :
    (s.perform (.endBlock n)).1 = (t.perform (.endBlock n)).1 ∧
      (s.perform (.endBlock n)).2.Alike (t.perform (.endBlock n)).2 := by
  obtain ⟨top, below⟩ := s
  obtain ⟨top', below'⟩ := t
  obtain ⟨htop, hbelow⟩ := h
  cases hbelow with
  | nil => exact ⟨rfl, htop, .nil⟩
  | @cons second second' rest rest' hsecond hrest =>
      have hgiven : (top.take n).1 = (top'.take n).1 := (htop.take n).1
      obtain ⟨hoffset, hkept⟩ := hsecond.popVec
      refine ⟨congrArg Answer.vector hoffset, ?_, hrest⟩
      show ((second.popVec.2.discard (-n)).pushAll (top.take n).1).Alike
        ((second'.popVec.2.discard (-n)).pushAll (top'.take n).1)
      rw [hgiven]
      exact (hkept.discard (-n)).pushAll _

theorem under (h : s.Alike t) (n : Int) :
    (s.perform (.under n)).1 = (t.perform (.under n)).1 ∧
      (s.perform (.under n)).2.Alike (t.perform (.under n)).2 := by
  obtain ⟨top, below⟩ := s
  obtain ⟨top', below'⟩ := t
  obtain ⟨htop, hbelow⟩ := h
  cases hbelow with
  | nil => exact ⟨rfl, htop, .nil⟩
  | cons hsecond hrest =>
      simp only [StackStack.perform, StackStack.under]
      by_cases hn : 0 ≤ n
      · obtain ⟨hsecond, htop⟩ := Stack.Alike.transfer n.toNat hsecond htop
        simp only [hn, if_true]
        exact ⟨trivial, htop, .cons hsecond hrest⟩
      · obtain ⟨htop, hsecond⟩ := Stack.Alike.transfer (-n).toNat htop hsecond
        simp only [hn, if_false]
        exact ⟨trivial, htop, .cons hsecond hrest⟩

/-- Piles that are alike answer alike and stay alike. -/
theorem perform (h : s.Alike t) (op : Operation) :
    (s.perform op).1 = (t.perform op).1 ∧ (s.perform op).2.Alike (t.perform op).2 := by
  cases op with
  | push v => exact ⟨rfl, h.top.push v, h.below⟩
  | pop => exact ⟨congrArg Answer.cell h.top.pop.1, h.top.pop.2, h.below⟩
  | peek => exact ⟨congrArg Answer.cell h.top.pop.1, h⟩
  | clear => exact ⟨rfl, .refl _, h.below⟩
  | pushVec p => exact ⟨rfl, h.top.pushVec p, h.below⟩
  | popVec => exact ⟨congrArg Answer.vector h.top.popVec.1, h.top.popVec.2, h.below⟩
  | pushText text => exact ⟨rfl, h.top.pushAll _, h.below⟩
  | popText => exact ⟨congrArg Answer.text h.top.popText.1, h.top.popText.2, h.below⟩
  | nth n => exact ⟨congrArg Answer.cell (h.top.nth n), h⟩
  | beginBlock n offset => exact ⟨rfl, h.beginBlock n offset⟩
  | endBlock n => exact h.endBlock n
  | under n => exact h.under n

end Alike

/-- Piles that differ only by zeros at the bottom of their stacks answer every question in a row of
operations alike, refusals included, and differ only by such zeros afterwards. -/
theorem performAll_of_alike {s t : StackStack} (h : s.Alike t) (ops : List Operation) :
    (s.performAll ops).1 = (t.performAll ops).1 ∧
      (s.performAll ops).2.Alike (t.performAll ops).2 := by
  induction ops generalizing s t with
  | nil => exact ⟨rfl, h⟩
  | cons op ops ih =>
      obtain ⟨hanswer, hstate⟩ := h.perform op
      obtain ⟨hanswers, hend⟩ := ih hstate
      exact ⟨congrArg₂ List.cons hanswer hanswers, hend⟩

/-- One pile stores its zeros and the other does not.  A text that reaches the bottom, a block that
takes too many cells along, and the end of a block that was never begun are the same to both. -/
theorem performAll_of_alike_bare :
    (performAll ⟨⟨[104, 0, 0]⟩, [⟨[0]⟩]⟩
        [.popText, .under 2, .beginBlock 3 ⟨1, 2⟩, .nth 3, .endBlock 1, .endBlock (-1),
          .endBlock 0]).1 =
      [.text (some ['h']), .nothing, .nothing, .cell 0, .vector ⟨1, 2⟩, .vector ⟨0, 0⟩,
        .refused .noEnclosingBlock] := by
  have halike : Alike ⟨⟨[104, 0, 0]⟩, [⟨[0]⟩]⟩ ⟨⟨[104]⟩, [⟨[]⟩]⟩ :=
    ⟨⟨2, .inr rfl⟩, .cons ⟨1, .inr rfl⟩ .nil⟩
  rw [(performAll_of_alike halike _).1]
  decide +kernel

end StackStack

end Befunge
