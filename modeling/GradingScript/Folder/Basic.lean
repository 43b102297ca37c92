import GradingScript.Text.Lines

/-!
# Folders

A folder is known by the tree of its entries.  Of what lies outside, the root and the tree below it
are known as far as they matter, and of the folders that lie between the root and the folder only
that they are folders.

A path is followed part by part.  No name may have more than 255 bytes, and no path more than 4095.
-/

namespace GradingScript

/-!
## Paths

A path is a list of names that leads from a folder, or from the root of all folders, to an entry.
The name `..` leads back out of a folder.
-/

/-- The names that lead to an entry. -/
structure Path where
  /-- How many slashes the path begins with: none if it leads from a folder, else one or two. -/
  slashes : Nat
  parts : List String
  deriving DecidableEq, Repr

namespace Path

/-- The path that leads along names from a folder. -/
def relative (parts : List String) : Path :=
  ⟨0, parts⟩

/-- Reads a path; empty parts and single dots lead nowhere.  Two slashes at the beginning stay two,
and more count as one. -/
def ofText (text : String) : Path :=
  let leading := (text.toList.takeWhile (· = '/')).length
  { slashes := if leading = 2 then 2 else min leading 1
    parts := ((Text.split '/' text.toList).map String.ofList).filter fun part =>
      part ≠ "" && part ≠ "." }

/-- The slashes at the beginning of a path. -/
def anchor (p : Path) : String :=
  String.ofList (List.replicate p.slashes '/')

/-- The path with slashes between its parts; the folder itself is a dot. -/
def text (p : Path) : String :=
  if p.slashes = 0 ∧ p.parts = [] then "." else p.anchor ++ "/".intercalate p.parts

/-- The last part. -/
def name (p : Path) : String :=
  p.parts.getLastD ""

/-- The parts of a path by which it is put in order; the slashes at the beginning are a part of
their own. -/
def steps (p : Path) : List String :=
  if p.slashes = 0 then p.parts else p.anchor :: p.parts

/-- Paths in order: part by part, and each part by its characters. -/
def le (p q : Path) : Bool :=
  !(stepsLt q.steps p.steps)
where
  stepsLt : List String → List String → Bool
    | [], [] => false
    | [], _ :: _ => true
    | _ :: _, [] => false
    | a :: as, b :: bs => a < b || (a = b && stepsLt as bs)

end Path

/-!
## Trees of entries

A tree holds the entries below a folder, at any depth, by the names that lead to them.  What leads
to an entry is a folder, whether it is listed or not, and what leads through a file leads nowhere.
-/

/-- What stands at a path: a file with its bytes, or a folder. -/
inductive Entry where
  | file (bytes : ByteArray)
  | folder

namespace Entry

/-- Whether an entry is a folder. -/
def isFolder : Entry → Bool
  | .file _ => false
  | .folder => true

end Entry

/-- The entries below a folder, by the names that lead to them. -/
structure Tree where
  entries : List (List String × Entry)

namespace Tree

/-- Whether names lead to a folder: the one that the tree stands below, one that is listed, or one
that holds an entry. -/
def isFolderAt (t : Tree) (names : List String) : Bool :=
  names.isEmpty || t.entries.any fun (path, entry) =>
    match entry with
    | .folder => names.isPrefixOf path
    | .file _ => names.isPrefixOf path && path ≠ names

/-- What stands where names lead. -/
def entryAt? (t : Tree) (names : List String) : Option Entry :=
  if t.isFolderAt names then some .folder
  else (t.entries.find? fun (path, _) => path = names).map (·.2)

/-- The names of the entries of a folder. -/
def namesAt (t : Tree) (folder : List String) : List String :=
  (t.entries.filterMap fun (path, _) =>
    if folder.isPrefixOf path then (path.drop folder.length).head? else none).eraseDups

/-- The folders at any depth below a folder, itself included, by the names that lead there from
it. -/
def foldersAt (t : Tree) (folder : List String) : List (List String) :=
  let below := t.entries.flatMap fun (path, _) =>
    if folder.isPrefixOf path then
      let names := path.drop folder.length
      (List.range (names.length + 1)).map names.take
    else []
  ([] :: below.filter fun names => t.isFolderAt (folder ++ names)).eraseDups

/-- The tree with an entry in place of all that stands where names lead. -/
def withEntry (t : Tree) (names : List String) (entry : Entry) : Tree :=
  ⟨(names, entry) :: t.entries.filter fun (path, _) => path ≠ names⟩

/-- What stands below the root of every system: its folders, and the empty file `/dev/null`. -/
def standardRoot : Tree :=
  ⟨(["dev", "null"], .file ByteArray.empty) ::
    ["bin", "boot", "dev", "etc", "home", "lib", "media", "mnt", "opt", "proc", "root", "run",
      "sbin", "srv", "sys", "tmp", "usr", "var"].map fun name => ([name], .folder)⟩

end Tree

/-! ## Folders -/

/-- A folder and what is known of the folders outside. -/
structure Folder where
  /-- The entries of the folder. -/
  inner : Tree
  /-- What is known of the entries below the root. -/
  outer : Tree

/-- Where a path leads. -/
inductive Location where
  /-- Along names from the folder. -/
  | inside (names : List String)
  /-- Along names from the root. -/
  | outside (names : List String)
  /-- To a folder between the root and the folder. -/
  | around
  deriving DecidableEq, Repr

/-- Why a path leads to no entry. -/
inductive PathError where
  /-- There is none. -/
  | missing
  /-- The path, or one of its names, is longer than allowed. -/
  | tooLong
  deriving DecidableEq, Repr

/-- The most bytes of a name. -/
def maxNameBytes : Nat := 255

/-- The most bytes of the text of a path. -/
def maxPathBytes : Nat := 4095

namespace Folder

/-- Whether a location is a folder. -/
def isFolderAt (f : Folder) : Location → Bool
  | .inside names => f.inner.isFolderAt names
  | .outside names => f.outer.isFolderAt names
  | .around => true

/-- What stands at a location. -/
def entryAt? (f : Folder) : Location → Option Entry
  | .inside names => f.inner.entryAt? names
  | .outside names => f.outer.entryAt? names
  | .around => some .folder

/-- Where the name `..` leads from a folder.  Above the root is the root. -/
def above : Location → Location
  | .inside [] => .around
  | .inside names => .inside names.dropLast
  | .outside names => .outside names.dropLast
  | .around => .around

/-- Where one part of a path leads from a location; only folders lead anywhere. -/
def enter (f : Folder) (location : Location) (part : String) : Except PathError Location :=
  if !f.isFolderAt location then .error .missing
  else if maxNameBytes < part.utf8ByteSize then .error .tooLong
  else if part = ".." then .ok (above location)
  else
    match location with
    | .inside names => .ok (.inside (names ++ [part]))
    | .outside names => .ok (.outside (names ++ [part]))
    | .around => .error .missing

/-- Where a path leads.  No path leads anywhere with the character that ends texts in memory. -/
def locate (f : Folder) (p : Path) : Except PathError Location :=
  if p.text.toList.contains '\x00' then .error .missing
  else if maxPathBytes < p.text.utf8ByteSize then .error .tooLong
  else p.parts.foldlM f.enter (if p.slashes = 0 then .inside [] else .outside [])

/-- What a path leads to. -/
def get (f : Folder) (p : Path) : Except PathError Entry := do
  match f.entryAt? (← f.locate p) with
  | some entry => .ok entry
  | none => .error .missing

/-- Whether a path leads to an entry that a test holds of. -/
def has (f : Folder) (p : Path) (test : Entry → Bool) : Except PathError Bool :=
  match f.get p with
  | .ok entry => .ok (test entry)
  | .error .missing => .ok false
  | .error .tooLong => .error .tooLong

/-- The names of the entries of a folder that a path leads to, each with whether it is a folder
itself. -/
def members (f : Folder) (p : Path) : Except PathError (List (String × Bool)) := do
  match ← f.locate p with
  | .inside names => pure (membersOf f.inner names)
  | .outside names => pure (membersOf f.outer names)
  | .around => pure []
where
  membersOf (t : Tree) (names : List String) : List (String × Bool) :=
    (t.namesAt names).map fun name => (name, t.isFolderAt (names ++ [name]))

/-- The folders at any depth below a folder that a path leads to, itself included, by the names
that lead there from it.  All of them are entered, so the path to each of them has to be short
enough. -/
def foldersBelow (f : Folder) (p : Path) : Except PathError (List (List String)) := do
  let folders := match ← f.locate p with
    | .inside names => f.inner.foldersAt names
    | .outside names => f.outer.foldersAt names
    | .around => [[]]
  folders.forM fun names => do
    let _ ← f.locate { p with parts := p.parts ++ names }
  pure folders

/-- The folder with another entry where a path leads, if it leads into one of the trees. -/
def withEntry (f : Folder) (p : Path) (entry : Entry) : Folder :=
  match f.locate p with
  | .ok (.inside names) => { f with inner := f.inner.withEntry names entry }
  | .ok (.outside names) => { f with outer := f.outer.withEntry names entry }
  | _ => f

end Folder

end GradingScript
