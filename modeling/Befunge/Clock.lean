/-!
# Date and time

A moment is packed into two numbers, a date and a time of day, each with one byte per
smaller unit.
-/

namespace Befunge

/-- A moment. -/
structure Clock where
  /-- The year. -/
  year : Int
  /-- The month, counted from one. -/
  month : Int
  /-- The day of the month, counted from one. -/
  day : Int
  /-- The hour of the day. -/
  hour : Int
  /-- The minute of the hour. -/
  minute : Int
  /-- The second of the minute. -/
  second : Int
deriving DecidableEq, Repr, Inhabited

namespace Clock

/-- The years since 1900, the month and the day. -/
def date (c : Clock) : Int := (c.year - 1900) * 65536 + c.month * 256 + c.day

/-- The hour, the minute and the second. -/
def time (c : Clock) : Int := c.hour * 65536 + c.minute * 256 + c.second

end Clock

end Befunge
