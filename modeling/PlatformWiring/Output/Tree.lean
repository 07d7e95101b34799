/-!
# File trees

A tree of directories and files as a value. An entry is found by the list of names that
leads to it from the top, which is a directory without an entry of its own.
-/

namespace PlatformWiring

/-- The place of an entry: the names that lead to it from the top. -/
abbrev Location := List String

mutual

/-- What stands at a location. -/
inductive Entry where
  | file (content : ByteArray)
  | directory (inside : Tree)

/-- The entries of a directory by name, oldest first. -/
inductive Tree where
  | empty
  | entry (name : String) (e : Entry) (rest : Tree)

end

namespace Tree

instance : Inhabited Tree := ⟨.empty⟩

instance : Inhabited Entry := ⟨.directory .empty⟩

/-- The entry of a name. -/
def find? : Tree → String → Option Entry
  | .empty, _ => none
  | .entry n e rest, name => if n = name then some e else rest.find? name

/-- The entry of a name replaced by what `f` makes of it; a new name goes to the end. -/
def alter (name : String) (f : Option Entry → Entry) : Tree → Tree
  | .empty => .entry name (f none) .empty
  | .entry n e rest =>
    if n = name then .entry n (f (some e)) rest else .entry n e (alter name f rest)

/-- The tree without the entry of a name. -/
def erase (name : String) : Tree → Tree
  | .empty => .empty
  | .entry n e rest => if n = name then erase name rest else .entry n e (erase name rest)

/-- What a directory holds; nothing for a file. -/
def inside : Option Entry → Tree
  | some (.directory t) => t
  | _ => .empty

/-- What stands at a location. -/
def entry? (t : Tree) : Location → Option Entry
  | [] => some (.directory t)
  | [name] => t.find? name
  | name :: next :: rest =>
    match t.find? name with
    | some (.directory below) => below.entry? (next :: rest)
    | _ => none

/-- The tree with an entry at a location, and with directories on the way to it. -/
def put (t : Tree) (e : Entry) : Location → Tree
  | [] => inside (some e)
  | [name] => t.alter name fun _ => e
  | name :: next :: rest =>
    t.alter name fun old => .directory ((inside old).put e (next :: rest))

/-- The tree without the entry at a location. -/
def drop (t : Tree) : Location → Tree
  | [] => .empty
  | [name] => t.erase name
  | name :: next :: rest =>
    match t.find? name with
    | some (.directory below) => t.alter name fun _ => .directory (below.drop (next :: rest))
    | _ => t

/-- A directory stands at the location. -/
def hasDirectory (t : Tree) (at_ : Location) : Bool :=
  match t.entry? at_ with
  | some (.directory _) => true
  | _ => false

/-- The content of the file at a location. -/
def content? (t : Tree) (at_ : Location) : Option ByteArray :=
  match t.entry? at_ with
  | some (.file content) => some content
  | _ => none

/-- Every entry with its location; a directory comes before what it holds. -/
def entries (above : Location) : Tree → List (Location × Entry)
  | .empty => []
  | .entry name (.file content) rest => (above ++ [name], .file content) :: rest.entries above
  | .entry name (.directory below) rest =>
    (above ++ [name], .directory below) :: below.entries (above ++ [name]) ++ rest.entries above

/-! ## Looking at a tree from outside -/

/-- The longest path, in bytes. -/
def maxPathLength : Nat := 4095

/-- Every path in the tree, with the content of the file that stands there. A directory ends in a
slash and has no content. What has a path that is too long cannot be looked at: it shows like an
empty file. -/
def survey (above : String) : Tree → List (String × Option ByteArray)
  | .empty => []
  | .entry name (.file content) rest =>
    let tooLong := maxPathLength < (above ++ name).utf8ByteSize
    (above ++ name, some (if tooLong then .empty else content)) :: rest.survey above
  | .entry name (.directory below) rest =>
    let shown := if maxPathLength < (above ++ name).utf8ByteSize then
        [(above ++ name, some .empty)]
      else (above ++ name ++ "/", none) :: below.survey (above ++ name ++ "/")
    shown ++ rest.survey above

/-- Every path in the tree, in order. -/
def listing (t : Tree) : List String :=
  ((t.survey "").map Prod.fst).mergeSort fun a b => decide (a ≤ b)

/-- Every file with its content. -/
def files (t : Tree) : List (String × ByteArray) :=
  (t.survey "").filterMap fun (p, content?) => content?.map (p, ·)

end Tree

end PlatformWiring
