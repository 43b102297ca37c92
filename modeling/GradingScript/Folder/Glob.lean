import GradingScript.Folder.Basic

/-!
# File patterns

A pattern consists of parts, as a path does.  In a part `*` stands for any characters, `?` for one,
and brackets for one of those that they hold.  The part `**` stands for any number of folders.
-/

/-!
## Characters in brackets

Brackets hold the characters that a name may have at one place: single characters, and ranges from
one character to another with a hyphen between them.  Behind an exclamation mark they hold the
characters that it may not have.

The text in brackets falls into chunks at the hyphens that make ranges.  A range whose end comes
before its beginning holds nothing and goes, together with both ends; only what is left tells
whether an exclamation mark comes first.
-/

namespace GradingScript.Bracket

/-- The parts of a text between the hyphens that make ranges.  Before such a hyphen stand at least
`least` characters of its part, and behind it at least one; another hyphen is a character like
others. -/
def chunks (least : Nat) (cs : List Char) : List (List Char) :=
  let length := least + ((cs.drop least).takeWhile (· ≠ '-')).length
  if length + 1 < cs.length then cs.take length :: chunks 2 (cs.drop (length + 1)) else [cs]
termination_by cs.length
decreasing_by
  simp only [List.length_drop]
  omega

/-- Joins chunks whose range would hold nothing, without the ends of the range.  The last ranges go
first. -/
def withoutEmptyRanges : List (List Char) → List (List Char)
  | [] => []
  | chunk :: rest =>
    match withoutEmptyRanges rest with
    | [] => [chunk]
    | next :: others =>
      match chunk.getLast?, next with
      | some low, high :: behind =>
        if high < low then (chunk.dropLast ++ behind) :: others else chunk :: next :: others
      | _, _ => chunk :: next :: others

/-- The characters of chunks, and the ranges between them.  A hyphen with nothing before it is a
character. -/
def ranges : List (List Char) → List (Char × Char)
  | [] => []
  | [chunk] => chunk.map fun c => (c, c)
  | chunk :: next :: rest =>
    let between :=
      match chunk.getLast?, next.head? with
      | some low, some high => (low, high)
      | _, _ => ('-', '-')
    (chunk.map fun c => (c, c)) ++ between :: ranges (next :: rest)

/-- Whether the text in brackets excludes characters, and the ranges that it lists. -/
def read (cs : List Char) : Bool × List (Char × Char) :=
  let least := if cs.head? = some '!' then 2 else 1
  match withoutEmptyRanges (chunks least cs) with
  | ('!' :: chunk) :: rest => (true, ranges (chunk :: rest))
  | all => (false, ranges all)

/-- How many characters stand before the closing bracket, if there is one.  A bracket that comes
first, or behind an exclamation mark that comes first, is no closing one. -/
def length? (cs : List Char) : Option Nat :=
  let mark := if cs.head? = some '!' then 1 else 0
  let skip := if (cs.drop mark).head? = some ']' then mark + 1 else mark
  let length := skip + ((cs.drop skip).takeWhile (· ≠ ']')).length
  if length < cs.length then some length else none

end GradingScript.Bracket

/-! ## Patterns -/

namespace GradingScript.Glob

/-- A piece of a pattern for a name. -/
inductive Wildcard where
  | any
  | one
  | exactly (c : Char)
  /-- One of some characters, given as ranges, or one that is none of them. -/
  | among (negated : Bool) (ranges : List (Char × Char))
  deriving DecidableEq, Repr

/-- Whether a piece stands for a character. -/
def Wildcard.admits : Wildcard → Char → Bool
  | .any, _ | .one, _ => true
  | .exactly d, c => c = d
  | .among negated ranges, c => (ranges.any fun (low, high) => low ≤ c && c ≤ high) != negated

/-- The pieces of a pattern for a name; an opening bracket without a closing one stands for
itself. -/
def wildcards : List Char → List Wildcard
  | [] => []
  | '*' :: cs => .any :: wildcards cs
  | '?' :: cs => .one :: wildcards cs
  | '[' :: cs =>
    match Bracket.length? cs with
    | some length =>
      let (negated, ranges) := Bracket.read (cs.take length)
      .among negated ranges :: wildcards (cs.drop (length + 1))
    | none => .exactly '[' :: wildcards cs
  | c :: cs => .exactly c :: wildcards cs
termination_by cs => cs.length
decreasing_by
  all_goals
    simp only [List.length_drop, List.length_cons]
    omega

/-- For every place of a list, whether one of the values from there on is true. -/
def anyOnwards : List Bool → List Bool
  | [] => []
  | value :: values =>
    let rest := anyOnwards values
    (value || rest.headD false) :: rest

@[simp] theorem length_anyOnwards (values : List Bool) :
    (anyOnwards values).length = values.length := by
  induction values with
  | nil => rfl
  | cons value values ih => simp [anyOnwards, ih]

/-- For every end of a name, from all of it to the empty one, whether it fits a pattern. -/
def fittingEnds (cs : List Char) : List Wildcard → List Bool
  | [] => cs.map (fun _ => false) ++ [true]
  | .any :: ws => anyOnwards (fittingEnds cs ws)
  | w :: ws =>
    List.zipWith (fun c fit => w.admits c && fit) cs (fittingEnds cs ws).tail ++ [false]

/-- Whether a name fits a pattern. -/
def fits (ws : List Wildcard) (cs : List Char) : Bool :=
  (fittingEnds cs ws).headD false

/-- Another piece than `*` takes the first character of an end. -/
theorem fittingEnds_cons {w : Wildcard} (hw : w ≠ .any) (cs : List Char) (ws : List Wildcard) :
    fittingEnds cs (w :: ws) =
      List.zipWith (fun c fit => w.admits c && fit) cs (fittingEnds cs ws).tail ++ [false] := by
  cases w <;> simp_all [fittingEnds]

@[simp] theorem length_fittingEnds (cs : List Char) (ws : List Wildcard) :
    (fittingEnds cs ws).length = cs.length + 1 := by
  induction ws with
  | nil => simp [fittingEnds]
  | cons w ws ih => cases w <;> simp [fittingEnds, ih]

/-- The first end of a name is all of it. -/
theorem fittingEnds_eq (cs : List Char) (ws : List Wildcard) :
    fittingEnds cs ws = fits ws cs :: (fittingEnds cs ws).tail := by
  have hlen := length_fittingEnds cs ws
  cases hends : fittingEnds cs ws with
  | nil => simp [hends] at hlen
  | cons e es => simp [fits, hends]

/-- The further ends of a name are those of the name without its first character. -/
@[simp] theorem tail_fittingEnds (c : Char) (cs : List Char) (ws : List Wildcard) :
    (fittingEnds (c :: cs) ws).tail = fittingEnds cs ws := by
  induction ws with
  | nil => simp [fittingEnds]
  | cons w ws ih =>
    by_cases hw : w = .any
    · subst hw
      rw [fittingEnds, fittingEnds_eq, ih]
      rfl
    · rw [fittingEnds_cons hw, ih, fittingEnds_eq, fittingEnds_cons hw]
      rfl

@[simp] theorem fits_nil (cs : List Char) : fits [] cs = cs.isEmpty := by
  cases cs <;> rfl

/-- At the end of a name `*` stands for nothing. -/
@[simp] theorem fits_any_nil (ws : List Wildcard) : fits (.any :: ws) [] = fits ws [] := by
  have hlen := length_fittingEnds [] ws
  cases hends : fittingEnds [] ws with
  | nil => simp [hends] at hlen
  | cons e es =>
    have hes : es = [] := by simpa [hends] using hlen
    simp [fits, fittingEnds, hends, hes, anyOnwards]

/-- Before a character `*` stands for nothing, or for that character and more. -/
theorem fits_any_cons (ws : List Wildcard) (c : Char) (cs : List Char) :
    fits (.any :: ws) (c :: cs) = (fits ws (c :: cs) || fits (.any :: ws) cs) := by
  rw [fits, fittingEnds, fittingEnds_eq, tail_fittingEnds]
  rfl

/-- No other piece than `*` stands for nothing. -/
theorem fits_cons_nil {w : Wildcard} (hw : w ≠ .any) (ws : List Wildcard) :
    fits (w :: ws) [] = false := by
  rw [fits, fittingEnds_cons hw]
  rfl

/-- Another piece than `*` stands for one character. -/
theorem fits_cons_cons {w : Wildcard} (hw : w ≠ .any) (ws : List Wildcard) (c : Char)
    (cs : List Char) : fits (w :: ws) (c :: cs) = (w.admits c && fits ws cs) := by
  rw [fits, fittingEnds_cons hw, tail_fittingEnds, fittingEnds_eq]
  rfl

/-- A part of a pattern. -/
inductive Part where
  /-- Any number of folders. -/
  | folders
  /-- The end behind a last slash: what comes before is a folder. -/
  | here
  /-- An entry of this name, or the folder around if it is `..`. -/
  | named (name : String)
  | like (wildcards : List Wildcard)
  deriving DecidableEq, Repr

/-- Why a pattern cannot be used. -/
inductive PatternError where
  /-- It is empty. -/
  | empty
  /-- Two stars stand beside something else in a part. -/
  | twoStars
  /-- It begins with a slash. -/
  | absolute
  /-- It has no part, only dots. -/
  | noPart
  /-- It has no part, only dots and a slash at the end. -/
  | noPartBeforeSlash
  /-- A path that it leads along is too long. -/
  | tooLong
  deriving DecidableEq, Repr

/-- Whether two stars stand side by side. -/
def hasTwoStars : List Char → Bool
  | '*' :: '*' :: _ => true
  | _ :: cs => hasTwoStars cs
  | [] => false

/-- Reads a part of a pattern. -/
def part? (text : String) : Option Part :=
  let cs := text.toList
  if text = "**" then some .folders
  else if hasTwoStars cs then none
  else if cs.any fun c => c = '*' || c = '?' || c = '[' then some (.like (wildcards cs))
  else some (.named text)

/-- Reads a pattern. -/
def parts? (text : String) : Except PatternError (List Part) :=
  let path := Path.ofText text
  let closed := text.toList.getLast? = some '/'
  if text = "" then .error .empty
  else if path.slashes ≠ 0 then .error .absolute
  else if path.parts = [] then .error (if closed then .noPartBeforeSlash else .noPart)
  else
    match path.parts.mapM part? with
    | some parts => .ok (if closed then parts ++ [.here] else parts)
    | none => .error .twoStars

/-- The paths that fit the parts of a pattern, from a path that leads to a folder, by their names.
A name before the last part has to lead to a folder. -/
def select (f : Folder) (place : List String) : List Part → Except PathError (List (List String))
  | [] => pure [place]
  | .here :: rest => select f place rest
  | .folders :: rest => do
    let folders ← f.foldersBelow (.relative place)
    pure (← folders.mapM fun names => select f (place ++ names) rest).flatten.eraseDups
  | .named name :: rest => do
    let path := place ++ [name]
    if ← f.has (.relative path) fun entry => rest.isEmpty || entry.isFolder then select f path rest
    else pure []
  | .like wildcards :: rest => do
    let members ← f.members (.relative place)
    let fitting := members.filter fun (name, isFolder) =>
      fits wildcards name.toList && (rest.isEmpty || isFolder)
    pure (← fitting.mapM fun (name, _) => select f (place ++ [name]) rest).flatten

/-- The paths in a folder that fit a pattern. -/
def find (f : Folder) (pattern : String) : Except PatternError (List Path) := do
  match select f [] (← parts? pattern) with
  | .ok paths => pure (paths.map Path.relative)
  -- What a pattern leads to is there, unless it cannot be followed.
  | .error _ => .error .tooLong

end GradingScript.Glob
