import PlatformWiring.CommandLine.Invocation
import PlatformWiring.CommandLine.Word

/-!
# Arguments

The words of the command line are read from left to right. Options belong to a level: those
of the program come before the command, those of a command after it.

A value that follows its option as a word of its own is looked at late: when the next option
of its level has been recognized, or when all words have been read. So a word that means
nothing is found before a bad value in front of it, and so is everything that is wrong behind
the command.
-/

namespace PlatformWiring.CommandLine

/-- Why the words are no invocation, or ask for something else. -/
inductive Refusal where
  /-- an option that does not exist here, or a word too many -/
  | unknownArgument
  /-- an option without its value, or with a bad one -/
  | invalidValue
  /-- a word that is no command -/
  | invalidSubcommand
  /-- an option that was given before -/
  | argumentConflict
  /-- a value for an option that takes none -/
  | tooManyValues
  /-- the user asks for help -/
  | displayHelp
  /-- the user asks for the version -/
  | displayVersion
  deriving DecidableEq, Repr

/-- The word for the kind of refusal. -/
def Refusal.name : Refusal → String
  | .unknownArgument => "UnknownArgument"
  | .invalidValue => "InvalidValue"
  | .invalidSubcommand => "InvalidSubcommand"
  | .argumentConflict => "ArgumentConflict"
  | .tooManyValues => "TooManyValues"
  | .displayHelp => "DisplayHelp"
  | .displayVersion => "DisplayVersion"

/-- An option without a value. -/
inductive Flag where
  | help
  | version
  | verbose
  deriving DecidableEq, Repr

/-- An option with a value. -/
inductive Setting where
  | file
  | directory
  | platform
  | output
  deriving DecidableEq, Repr

/-- An option. -/
inductive Opt where
  | flag (f : Flag)
  | setting (s : Setting)
  deriving DecidableEq, Repr

/-- A place where options are read. -/
inductive Level where
  | program
  | generate
  | check
  | graph
  deriving DecidableEq, Repr

namespace Level

/-- The options of a level, with their short and long names. -/
def options : Level → List (Option Char × String × Opt)
  | .program =>
    [(some 'f', "file", .setting .file), (some 'C', "directory", .setting .directory),
     (some 'v', "verbose", .flag .verbose), (none, "platform", .setting .platform),
     (some 'h', "help", .flag .help), (some 'V', "version", .flag .version)]
  | .generate => [(none, "out-dir", .setting .output), (some 'h', "help", .flag .help)]
  | .check | .graph => [(some 'h', "help", .flag .help)]

/-- The option of a long name. -/
def long? (l : Level) (name : String) : Option Opt :=
  (l.options.find? fun (_, long, _) => long == name).map fun (_, _, o) => o

/-- The option of a short name. -/
def short? (l : Level) (name : Char) : Option Opt :=
  (l.options.find? fun (short, _, _) => short == some name).map fun (_, _, o) => o

/-- The level behind a command, and the command without options. -/
def ofCommand? : String → Option (Level × Command)
  | "generate" => some (.generate, .generate defaultOutput)
  | "check" => some (.check, .check)
  | "graph" => some (.graph, .graph)
  | _ => none

end Level

/-- What was read so far at a level. -/
structure Reading where
  /-- the invocation -/
  invocation : Invocation
  /-- the options of this level that were taken -/
  taken : List Opt
  /-- the option whose value was not looked at yet, and its value, if that was read -/
  pending? : Option (Setting × Option String)

namespace Reading

/-- A level at which nothing was read yet. -/
def start (i : Invocation) : Reading := ⟨i, [], none⟩

/-- Marks an option as taken. -/
def mark (r : Reading) (o : Opt) : Reading := { r with taken := o :: r.taken }

/-- Takes the value of an option. Only platforms can be given more than once. -/
def assign (r : Reading) (s : Setting) (value : String) : Except Refusal Reading :=
  if s = .platform then
    match Platform.ofName? value with
    | none => .error .invalidValue
    | some p =>
      .ok { r with invocation.platforms := r.invocation.platforms ++ [p] }
  else if .setting s ∈ r.taken then .error .argumentConflict
  else if value.isEmpty then .error .invalidValue
  else
    let r := r.mark (.setting s)
    match s with
    | .file => .ok { r with invocation.file := ⟨value⟩ }
    | .directory => .ok { r with invocation.directory := some ⟨value⟩ }
    | .output => .ok { r with invocation.command? := some (.generate ⟨value⟩) }
    | .platform => .ok r

/-- Looks at the value of the pending option. -/
def settle (r : Reading) : Except Refusal Reading :=
  match r.pending? with
  | none => .ok r
  | some (_, none) => .error .invalidValue
  | some (s, some value) => { r with pending? := none }.assign s value

/-- The pending option waits for its value. -/
def awaits (r : Reading) : Bool := (r.pending?.map fun (_, value?) => value?.isNone).getD false

/-- Takes an option without a value. -/
def takeFlag (r : Reading) (f : Flag) : Except Refusal Reading := do
  let r ← r.settle
  match f with
  | .help => .error .displayHelp
  | .version => .error .displayVersion
  | .verbose =>
    if .flag .verbose ∈ r.taken then .error .argumentConflict
    else return { r.mark (.flag .verbose) with invocation.verbose := true }

/-- Takes an option with a value that is attached, or else comes next. -/
def takeSetting (r : Reading) (s : Setting) (value? : Option String) :
    Except Refusal Reading := do
  let r ← r.settle
  match value? with
  | some value => r.assign s value
  | none => return { r with pending? := some (s, none) }

/-- Takes a word as the value that the pending option waits for. -/
def supply (r : Reading) (value : String) : Reading :=
  { r with pending? := r.pending?.map fun (s, _) => (s, some value) }

/-- Reads an option by its long name. -/
def readLong (l : Level) (r : Reading) (name : String) (value? : Option String) :
    Except Refusal Reading :=
  match l.long? name, value? with
  | none, _ => .error .unknownArgument
  | some (.setting s), value? => r.takeSetting s value?
  | some (.flag f), none => r.takeFlag f
  | some (.flag _), some _ => .error .tooManyValues

/-- The value behind a short name: the rest of the word, perhaps after an equals sign. -/
def attached? : List Char → Option String
  | [] => none
  | '=' :: cs => some (String.ofList cs)
  | cs => some (String.ofList cs)

/-- Reads options by their short names. What follows one that takes a value is the value. -/
def readShort (l : Level) (r : Reading) : List Char → Except Refusal Reading
  | [] => .ok r
  | c :: cs =>
    match l.short? c with
    | none => .error .unknownArgument
    | some (.setting s) => r.takeSetting s (attached? cs)
    | some (.flag f) =>
      match r.takeFlag f with
      | .error e => .error e
      | .ok r => readShort l r cs

end Reading

/-- The refusal of a word that is no option. -/
def Level.refusal : Level → Refusal
  | .program => .invalidSubcommand
  | _ => .unknownArgument

/-- The word is the name of a command; asking for help counts as one. -/
def isCommand (name : String) : Bool := name = "help" || (Level.ofCommand? name).isSome

/-- What asking for help about a command comes to. -/
def helpAbout : List String → Refusal
  | [] => .displayHelp
  | [name] => if isCommand name then .displayHelp else .invalidSubcommand
  | _ => .invalidSubcommand

/-- The refusal of a word behind the separator. The name of a command is an argument there. -/
def Level.refusalBehind (l : Level) (word : String) : Refusal :=
  if isCommand word then .unknownArgument else l.refusal

/-- Reads the words at a level. -/
def readLevel (l : Level) (r : Reading) : List String → Except Refusal Reading
  | [] => r.settle
  | w :: ws =>
    match Word.ofString w with
    | .separator =>
      match ws with
      | [] => r.settle
      | word :: _ => .error (l.refusalBehind word)
    | .long name value? =>
      match r.readLong l name value? with
      | .error e => .error e
      | .ok r => readLevel l r ws
    | .short names =>
      match r.readShort l names with
      | .error e => .error e
      | .ok r => readLevel l r ws
    | .plain text =>
      if r.awaits then readLevel l (r.supply text) ws
      else if l ≠ .program then .error l.refusal
      else if text = "help" then .error (helpAbout ws)
      else
        match Level.ofCommand? text with
        | none => .error l.refusal
        | some (l', command) =>
          match readLevel l' (.start { Invocation.plain with command? := some command }) ws with
          | .error e => .error e
          | .ok sub =>
            match r.settle with
            | .error e => .error e
            | .ok r =>
              .ok { r with invocation.command? := sub.invocation.command? }

/-- The invocation that the words stand for. -/
def Invocation.ofArguments (words : List String) : Except Refusal Invocation :=
  (readLevel .program (.start .plain) words).map (·.invocation)

end PlatformWiring.CommandLine
