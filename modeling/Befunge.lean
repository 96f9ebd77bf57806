import Befunge.Main
import Befunge.Session
import Befunge.Proofs.Courses
import Befunge.Proofs.Deeds
import Befunge.Proofs.Rounds
import Befunge.Proofs.Containment
import Befunge.Proofs.Scheduling
import Befunge.Proofs.Journal
import Befunge.Proofs.Fairness
import Befunge.Proofs.Writes
import Befunge.Proofs.Veil
import Befunge.Proofs.Runs
import Befunge.Proofs.Budget
import Befunge.Proofs.Sandbox
import Befunge.Proofs.Acts
import Befunge.Proofs.Reading
import Befunge.Proofs.Faults
import Befunge.Proofs.Words
import Befunge.Proofs.Sessions
import Befunge.Proofs.Retirement
import Befunge.Proofs.Rows
import Befunge.Proofs.Solo
import Befunge.Proofs.PrintLoop
import Befunge.Proofs.SavedRegions
import Befunge.Proofs.Searches
import Befunge.Proofs.Reports
import Befunge.Proofs.Jumps
import Befunge.Proofs.Strings
import Befunge.Proofs.ReadCounts
import Befunge.Proofs.Repetition
import Befunge.Proofs.OnceOnly
import Befunge.Proofs.Piles
import Befunge.Proofs.Zeros
import Befunge.Proofs.Transfers
import Befunge.Proofs.Brackets
import Befunge.Proofs.Buffering
import Befunge.Proofs.Layouts
import Befunge.Proofs.Rendering
import Befunge.Proofs.TwosComplement
import Befunge.Proofs.Division
import Befunge.Proofs.Outages
import Befunge.Proofs.Settings
import Befunge.Proofs.Retreat
import Befunge.Proofs.Numerals
import Befunge.Proofs.StackedText
