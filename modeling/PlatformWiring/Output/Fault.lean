/-!
# Faults of file operations

What can go wrong with a file operation. Every fault has a kind and a text; the texts of
most kinds are those of the operating system.
-/

namespace PlatformWiring

/-- What went wrong with a file operation. -/
inductive Fault where
  /-- nothing is there -/
  | notFound
  /-- a directory stands where a file is needed -/
  | isADirectory
  /-- a file stands where a directory is needed -/
  | notADirectory
  /-- something stands where a directory is to be made -/
  | alreadyExists
  /-- the path leads out of the output root -/
  | leadsOutside
  /-- a name or a path is too long -/
  | nameTooLong
  /-- a name holds a NUL character, or is `.` where an entry is to be removed -/
  | invalidName
  /-- a path from the working directory holds a NUL character -/
  | nulInPath
  /-- the content is not UTF-8 -/
  | notUtf8
  /-- anything else, with its text -/
  | other (text : String)
  deriving DecidableEq, Inhabited, Repr

namespace Fault

/-- The kind of a fault. -/
def kind : Fault → String
  | .notFound => "NotFound"
  | .isADirectory => "IsADirectory"
  | .notADirectory => "NotADirectory"
  | .alreadyExists => "AlreadyExists"
  | .leadsOutside => "PermissionDenied"
  | .nameTooLong => "InvalidFilename"
  | .invalidName => "InvalidInput"
  | .nulInPath => "InvalidInput"
  | .notUtf8 => "InvalidData"
  | .other _ => "Other"

/-- The text of a fault. -/
def message : Fault → String
  | .notFound => "No such file or directory (os error 2)"
  | .isADirectory => "Is a directory (os error 21)"
  | .notADirectory => "Not a directory (os error 20)"
  | .alreadyExists => "File exists (os error 17)"
  | .leadsOutside => "a path led outside of the filesystem"
  | .nameTooLong => "File name too long (os error 36)"
  | .invalidName => "Invalid argument (os error 22)"
  | .nulInPath => "file name contained an unexpected NUL byte"
  | .notUtf8 => "stream did not contain valid UTF-8"
  | .other text => text

end Fault

end PlatformWiring
