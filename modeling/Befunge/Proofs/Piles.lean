import Mathlib.Data.List.Infix
import Mathlib.Data.List.TakeDrop
import Befunge.StackStack

/-!
# Blocks protect what lies under them

What a program does with its stacks is a list of operations, each of which is answered
(`StackStack.performAll`).  All of them work on the topmost stack, and only three see what lies
under it: the beginning of a block covers the stack, the end of a block uncovers it again, and
`under` reaches into it.

So without `under` the stacks at the bottom of a pile stay as they are as long as the pile has
more stacks than these (`StackStack.suffix_below_performAll`).  A block that is begun on a stack
leaves there what it did not take along, with the storage offset on top, and when the block ends
both are found again whatever was done in it (`StackStack.endBlock_finds_outside`).
-/

namespace Befunge

/-! ## Operations -/

namespace StackStack

/-- What can be asked of a pile. -/
inductive Operation where
  | push (v : Int)
  | pop
  | peek
  | clear
  | pushVec (p : Vec)
  | popVec
  | pushText (text : List CodePoint)
  | popText
  | nth (n : Int)
  | beginBlock (n : Int) (offset : Vec)
  | endBlock (n : Int)
  | under (n : Int)
deriving DecidableEq, Repr

/-- What an operation gives back. -/
inductive Answer where
  | nothing
  | cell (v : Int)
  | vector (p : Vec)
  | text (text : Option (List Char))
  /-- How many cells were pushed. -/
  | count (n : Nat)
  /-- Nothing was changed. -/
  | refused (e : StackError)
deriving DecidableEq, Repr

/-- Does what is asked. -/
def perform (s : StackStack) : Operation → Answer × StackStack
  | .push v => (.nothing, s.push v)
  | .pop => (.cell s.pop.1, s.pop.2)
  | .peek => (.cell s.peek, s)
  | .clear => (.nothing, s.clear)
  | .pushVec p => (.nothing, s.pushVec p)
  | .popVec => (.vector s.popVec.1, s.popVec.2)
  | .pushText text => (.count (Stack.textCells text).length, s.pushText text)
  | .popText => (.text s.popText.1, s.popText.2)
  | .nth n => (.cell (s.nth n), s)
  | .beginBlock n offset => (.nothing, s.beginBlock n offset)
  | .endBlock n =>
      match s.endBlock n with
      | .ok (offset, s) => (.vector offset, s)
      | .error e => (.refused e, s)
  | .under n =>
      match s.under n with
      | .ok s => (.nothing, s)
      | .error e => (.refused e, s)

/-- Does one thing after the other. -/
def performAll (s : StackStack) : List Operation → List Answer × StackStack
  | [] => ([], s)
  | op :: ops => ((s.perform op).1 :: ((s.perform op).2.performAll ops).1,
      ((s.perform op).2.performAll ops).2)

/-! ## The bottom of a pile -/

variable {s : StackStack} {floor : List Stack}

/-- Stacks at the bottom that are not uncovered stay as they are. -/
theorem suffix_below_perform (h : floor <:+ s.below) {op : Operation} (hop : ∀ n, op ≠ .under n)
    (hdeep : floor.length < (s.perform op).2.size) : floor <:+ (s.perform op).2.below := by
  cases op with
  | beginBlock n offset => exact h.trans (List.suffix_cons _ _)
  | endBlock n =>
      obtain ⟨top, below⟩ := s
      cases below with
      | nil => exact h
      | cons second rest =>
          -- the stack that is uncovered is none of those at the bottom
          have hrest : floor.length < rest.length + 1 := hdeep
          rcases List.suffix_cons_iff.mp h with rfl | hsuffix
          · exact absurd hrest (Nat.lt_irrefl _)
          · exact hsuffix
  | under n => exact absurd rfl (hop n)
  | _ => exact h

theorem suffix_below_performAll {ops : List Operation} (h : floor <:+ s.below)
    (hops : ∀ n, .under n ∉ ops)
    (hdeep : ∀ first, first <+: ops → floor.length < (s.performAll first).2.size) :
    floor <:+ (s.performAll ops).2.below := by
  induction ops generalizing s with
  | nil => exact h
  | cons op ops ih =>
      have hstep : floor <:+ (s.perform op).2.below := by
        refine suffix_below_perform h (fun n hn => hops n ?_) (hdeep [op] ?_)
        · exact hn ▸ List.mem_cons_self
        · exact List.cons_prefix_cons.mpr ⟨rfl, List.nil_prefix⟩
      refine ih hstep (fun n hn => hops n (List.mem_cons_of_mem _ hn)) fun first hfirst => ?_
      exact hdeep (op :: first) (List.cons_prefix_cons.mpr ⟨rfl, hfirst⟩)

end StackStack

/-! ## Beginning and ending a block -/

namespace Stack

/-- What stays on a stack when a block takes its top `n` cells along.  A negative number puts as
many zeros on it instead. -/
def lent (s : Stack) (n : Int) : Stack :=
  if n < 0 then ⟨List.replicate n.natAbs 0 ++ s.cells⟩ else ⟨s.cells.drop n.natAbs⟩

/-- What is on a stack when a block gives it the top `n` cells of its own.  Where the block has
fewer, the lowest of them are zeros.  A negative number removes as many cells instead. -/
def repaid (s : Stack) (n : Int) (inner : Stack) : Stack :=
  if n < 0 then ⟨s.cells.drop n.natAbs⟩ else ⟨inner.cells.takeD n.natAbs 0 ++ s.cells⟩

theorem lent_eq (s : Stack) (n : Int) :
    s.lent n = (s.take n).2.pushAll (List.replicate (-n).toNat 0) := by
  rw [lent, take, pushAll]
  split
  · have hnone : n.toNat = 0 := by omega
    have hzeros : (-n).toNat = n.natAbs := by omega
    rw [hnone, hzeros, List.drop_zero]
  · have hnone : (-n).toNat = 0 := by omega
    have htaken : n.toNat = n.natAbs := by omega
    rw [hnone, htaken, List.replicate_zero, List.nil_append]

/-- The cells that are removed are the first of those on the endless pile. -/
theorem fst_take (s : Stack) (n : Int) : (s.take n).1 = s.cells.takeD n.toNat 0 := by
  simp only [take]
  generalize s.cells = cells, n.toNat = k
  induction cells generalizing k with
  | nil => simp
  | cons v cells ih =>
      cases k with
      | zero => simp
      | succ k => simpa using ih k

theorem repaid_eq (s : Stack) (n : Int) (inner : Stack) :
    s.repaid n inner = (s.discard (-n)).pushAll (inner.take n).1 := by
  rw [repaid, discard, pushAll, fst_take]
  split
  · have hnone : n.toNat = 0 := by omega
    have hremoved : (-n).toNat = n.natAbs := by omega
    rw [hnone, hremoved, List.takeD_zero, List.nil_append]
  · have hnone : (-n).toNat = 0 := by omega
    have hgiven : n.toNat = n.natAbs := by omega
    rw [hnone, hgiven, List.drop_zero]

theorem takeD_append_drop (cells : List Int) (n : Nat) :
    cells.takeD n 0 ++ cells.drop n = cells ++ List.replicate (n - cells.length) 0 := by
  induction cells generalizing n with
  | nil => simp
  | cons v cells ih =>
      cases n with
      | zero => simp
      | succ n => simpa using ih n

/-- What is taken along and given back again is the stack as it was, with zeros at the bottom for
the cells that were missing. -/
theorem repaid_lent (s : Stack) (n : Int) :
    (s.lent n).repaid n ⟨(s.take n).1⟩ = ⟨s.cells ++ List.replicate (n.toNat - s.size) 0⟩ := by
  rw [lent, repaid, fst_take, size]
  split
  · have hnone : n.toNat = 0 := by omega
    simp [hnone]
  · have hgiven : n.toNat = n.natAbs := by omega
    have hlength : (s.cells.takeD n.natAbs 0).length = n.natAbs := List.takeD_length ..
    rw [hgiven, List.takeD_eq_take _ (Nat.le_of_eq hlength.symm),
      List.take_of_length_le (Nat.le_of_eq hlength), takeD_append_drop]

end Stack

namespace StackStack

theorem beginBlock_eq (s : StackStack) (n : Int) (offset : Vec) :
    s.beginBlock n offset = ⟨⟨(s.top.take n).1⟩, (s.top.lent n).pushVec offset :: s.below⟩ := by
  rw [Stack.lent_eq]
  rfl

/-- The end of a block finds the offset and what is under it where they were put. -/
theorem endBlock_of_below {s : StackStack} {outer : Stack} {offset : Vec} {rest : List Stack}
    (h : s.below = outer.pushVec offset :: rest) (n : Int) :
    s.endBlock n = .ok (offset, ⟨outer.repaid n s.top, rest⟩) := by
  rw [endBlock, h, Stack.repaid_eq]
  rfl

/-- Whatever was done in a block, as long as it was not left and nothing was moved out from under
it, its end finds the storage offset that was kept, and the stacks under it as they were.  The one
it was begun on has what it did not take along and on that what it gives back.  A block that gives
back at once what it took along leaves the pile as it was, but for zeros at the bottom of the
topmost stack. -/
theorem endBlock_finds_outside (s : StackStack) (n : Int) (offset : Vec) {ops : List Operation}
    {answers : List Answer} {inner : StackStack}
    (hinner : (s.beginBlock n offset).performAll ops = (answers, inner))
    (hops : ∀ k, .under k ∉ ops)
    (hdeep : ∀ first, first <+: ops → s.size < ((s.beginBlock n offset).performAll first).2.size)
    (hlast : inner.size = s.size + 1) :
    (∀ m, inner.endBlock m = .ok (offset, ⟨(s.top.lent n).repaid m inner.top, s.below⟩)) ∧
    (s.beginBlock n offset).endBlock n =
      .ok (offset, ⟨⟨s.top.cells ++ List.replicate (n.toNat - s.top.size) 0⟩, s.below⟩) := by
  obtain rfl : ((s.beginBlock n offset).performAll ops).2 = inner := congrArg Prod.snd hinner
  constructor
  · have hfloor : (s.top.lent n).pushVec offset :: s.below <:+
        ((s.beginBlock n offset).performAll ops).2.below :=
      suffix_below_performAll (by rw [beginBlock_eq]) hops hdeep
    -- there is no stack between the floor and the topmost one
    have hbelow := hfloor.eq_of_length (Nat.succ.inj hlast).symm
    exact endBlock_of_below hbelow.symm
  · rw [endBlock_of_below (by rw [beginBlock_eq]) n, beginBlock_eq, Stack.repaid_lent]

/-- The block empties its stack in a block of its own that asks for more cells than there are. -/
theorem endBlock_finds_outside_nested :
    (((⟨⟨[3, 2, 1]⟩, [⟨[7]⟩]⟩ : StackStack).beginBlock 2 ⟨8, 9⟩).performAll
      [.push 5, .beginBlock 4 ⟨1, 1⟩, .clear, .pushText [104, 105], .endBlock 1]).2.endBlock 3 =
      .ok (⟨8, 9⟩, ⟨⟨[104, 0, 0, 1]⟩, [⟨[7]⟩]⟩) := by
  refine (endBlock_finds_outside _ 2 ⟨8, 9⟩ rfl (by simp) ?_ rfl).1 3
  intro first hfirst
  rw [← List.mem_inits] at hfirst
  revert first
  decide

end StackStack

end Befunge
