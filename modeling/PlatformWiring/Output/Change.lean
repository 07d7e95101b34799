import PlatformWiring.Output.Tree

/-!
# Changes between file trees

What has to be done to a tree to get another one: directories are made, then files are
written, and last files are removed. Nothing is said about directories that are gone, since
no session removes any.
-/

namespace PlatformWiring

/-- A change to a tree. -/
inductive Change where
  | makeDirectory (at_ : Location)
  | writeFile (at_ : Location) (content : ByteArray)
  | removeFile (at_ : Location)

namespace Tree

/-- The directories that only the second tree has. -/
def newDirectories (before after : Tree) : List Change :=
  (after.entries []).filterMap fun (at_, e) =>
    match e with
    | .directory _ => if before.hasDirectory at_ then none else some (.makeDirectory at_)
    | .file _ => none

/-- The files of the second tree that the first does not have, or not with this content. -/
def newFiles (before after : Tree) : List Change :=
  (after.entries []).filterMap fun (at_, e) =>
    match e with
    | .directory _ => none
    | .file content =>
      if before.content? at_ == some content then none else some (.writeFile at_ content)

/-- The files of the first tree at whose places the second has nothing. -/
def goneFiles (before after : Tree) : List Change :=
  (before.entries []).filterMap fun (at_, e) =>
    match e with
    | .directory _ => none
    | .file _ => if (after.entry? at_).isNone then some (.removeFile at_) else none

/-- The changes that lead from the first tree to the second. -/
def changes (before after : Tree) : List Change :=
  newDirectories before after ++ newFiles before after ++ goneFiles before after

end Tree

end PlatformWiring
