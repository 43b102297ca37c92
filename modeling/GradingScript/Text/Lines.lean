/-!
# Lines

A text is cut into lines at its line feeds, which belong to no line; a text that ends in a line
feed has an empty last line.
-/

namespace GradingScript.Text

/-- The number of line feeds. -/
def lineFeeds (cs : List Char) : Nat :=
  cs.count '\n'

@[simp] theorem lineFeeds_nil : lineFeeds [] = 0 := rfl

@[simp] theorem lineFeeds_append (cs ds : List Char) :
    lineFeeds (cs ++ ds) = lineFeeds cs + lineFeeds ds := by
  simp [lineFeeds]

/-- The parts of a text between the places where a character stands. -/
def split (separator : Char) : List Char → List (List Char)
  | [] => [[]]
  | c :: cs =>
    if c = separator then [] :: split separator cs
    else
      match split separator cs with
      | [] => [[c]]
      | part :: parts => (c :: part) :: parts

theorem split_ne_nil (separator : Char) (cs : List Char) : split separator cs ≠ [] := by
  cases cs with
  | nil => simp [split]
  | cons c cs =>
    simp only [split]
    split
    · simp
    · split <;> simp

/-- There is one part more than separators. -/
theorem length_split (separator : Char) (cs : List Char) :
    (split separator cs).length = cs.count separator + 1 := by
  induction cs with
  | nil => simp [split]
  | cons c cs ih =>
    simp only [split]
    by_cases h : c = separator
    · simp [h, ih]
    · have hne := split_ne_nil separator cs
      cases hs : split separator cs with
      | nil => exact absurd hs hne
      | cons part parts => simp_all

/-- The lines of a text. -/
def lines (cs : List Char) : List (List Char) :=
  split '\n' cs

/-- A text whose lines all end in a line feed: a carriage return, with the line feed behind it if
there is one, counts as one. -/
def withLineFeeds : List Char → List Char
  | [] => []
  | '\r' :: '\n' :: cs => '\n' :: withLineFeeds cs
  | '\r' :: cs => '\n' :: withLineFeeds cs
  | c :: cs => c :: withLineFeeds cs

end GradingScript.Text
