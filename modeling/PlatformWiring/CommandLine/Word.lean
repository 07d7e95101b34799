/-!
# Words of the command line

What a word of the command line looks like, before it is known which options there are. A
word that begins with a dash names options, unless it is nothing but the dash.
-/

namespace PlatformWiring.CommandLine

/-- How a word looks. -/
inductive Word where
  /-- two dashes: no options come after it -/
  | separator
  /-- an option by its long name, perhaps with a value behind an equals sign -/
  | long (name : String) (value? : Option String)
  /-- options by their short names, one after the other -/
  | short (names : List Char)
  /-- any other word -/
  | plain (text : String)
  deriving DecidableEq, Repr

namespace Word

/-- Cuts the text at its first equals sign. -/
def cutAtEquals (cs : List Char) : String × Option String :=
  match cs.dropWhile (· != '=') with
  | _ :: rest => (String.ofList (cs.takeWhile (· != '=')), some (String.ofList rest))
  | [] => (String.ofList cs, none)

/-- How the word looks. -/
def ofString (s : String) : Word :=
  match s.toList with
  | ['-', '-'] => .separator
  | '-' :: '-' :: cs => let (name, value?) := cutAtEquals cs; .long name value?
  | '-' :: c :: cs => .short (c :: cs)
  | _ => .plain s

end Word

end PlatformWiring.CommandLine
