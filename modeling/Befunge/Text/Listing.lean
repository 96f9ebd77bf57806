/-!
# Listings

Lists are shown between square brackets, with a comma and a blank between items.
-/

namespace Befunge.Listing

/-- Items, already turned into text, as one list. -/
def ofTexts (items : List String) : String :=
  "[" ++ ", ".intercalate items ++ "]"

/-- A list of integers. -/
def ofInts (items : List Int) : String :=
  ofTexts (items.map fun n => toString n)

/-- A list of lists of integers. -/
def ofRows (rows : List (List Int)) : String :=
  ofTexts (rows.map ofInts)

example : ofRows [[9, -8], []] = "[[9, -8], []]" := by decide +kernel

end Befunge.Listing
