import PlatformWiring.Yaml.Scalar.Basic

/-!
# Tokens of a YAML text

Beside the characters that stand in the text, tokens mark where blocks begin and end, which
the indentation alone shows, and where a key begins, which shows only at the colon after it.
-/

namespace PlatformWiring.Yaml

open Text (Position)

/-- The kinds of token. -/
inductive Lexeme where
  /-- a `%YAML` directive -/
  | version
  /-- a `%TAG` directive, or an unknown one, which declares the empty handle -/
  | tagDirective (handle expansion : String)
  | documentStart
  | documentEnd
  | blockSequenceStart
  | blockMappingStart
  | blockEnd
  | flowSequenceStart
  | flowSequenceEnd
  | flowMappingStart
  | flowMappingEnd
  /-- the dash of a block sequence -/
  | blockEntry
  /-- the comma of a flow collection -/
  | flowEntry
  /-- the beginning of a key -/
  | key
  /-- the colon after a key -/
  | value
  | alias (name : String)
  | anchor (name : String)
  | tag (handle suffix : String)
  | scalar (style : Style) (text : String)
  | streamEnd
  deriving DecidableEq, Inhabited, Repr

/-- A token and where it begins. -/
structure Token where
  lexeme : Lexeme
  position : Position
  deriving DecidableEq, Inhabited, Repr

/-- The tokens of a text. If the text has a fault, these are the tokens that can be told before
it shows. -/
structure TokenStream where
  /-- the tokens, in order -/
  tokens : List Token
  /-- the fault behind them -/
  fault : Option Complaint
  deriving Repr

end PlatformWiring.Yaml
