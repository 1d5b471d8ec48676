/-!
# Commands

The command line of the program. A command is named first and its option follows; an option's
value stands behind it, is attached to it, or is joined to it by an equals sign. Reading the
arguments either gives a command or stops with a `Refusal`, which is also how a request for help
or for the version ends.
-/

namespace LambdaTutor

/-- What the program can be asked to do. -/
inductive Command where
  /-- Evaluate the file at a path. -/
  | run (path : String)
  /-- Answer the lines of the standard input. -/
  | repl
  /-- List the levels. -/
  | levels
  /-- Judge the solutions in a directory. -/
  | play (directory : String)
deriving DecidableEq, Repr

/-- The reasons for which arguments give no command. -/
inductive Refusal where
  | noArguments
  | helpRequested
  | versionRequested
  | unknownCommand
  | unknownArgument
  | invalidValue
  | unwantedValue
  | repeatedOption
  | missingOption
deriving DecidableEq, Repr

/-- How an argument is written. -/
inductive Argument where
  /-- Two hyphens alone: only plain arguments follow. -/
  | terminator
  /-- Two hyphens, a name and possibly a value behind an equals sign. -/
  | long (name : String) (value : Option String)
  /-- One hyphen, a letter and whatever is attached to it. -/
  | short (letter : Char) (attached : String)
  /-- Any other text, a lone hyphen included. -/
  | plain (text : String)
deriving DecidableEq, Repr

/-- Splits the part of a long option behind its hyphens at the first equals sign. -/
def Argument.ofLong (characters : List Char) : Argument :=
  let name := String.ofList (characters.takeWhile (· ≠ '='))
  match characters.dropWhile (· ≠ '=') with
  | [] => .long name none
  | _ :: value => .long name (some (String.ofList value))

/-- Reads how an argument is written. -/
def Argument.ofString (text : String) : Argument :=
  match text.toList with
  | ['-', '-'] => .terminator
  | '-' :: '-' :: rest => .ofLong rest
  | '-' :: letter :: attached => .short letter (String.ofList attached)
  | _ => .plain text

/-- The option that takes a command's value, by its letter and its name. -/
structure OptionName where
  letter : Char
  name : String
deriving DecidableEq, Repr

/-- The value of an option while arguments are read. An option that has just been named is
settled only when the next option or the end of the arguments is reached. -/
structure OptionReading where
  /-- The value that the option was given before. -/
  settled : Option String := none
  /-- The option was named last, and possibly given its value. -/
  pending : Option (Option String) := none
deriving DecidableEq, Repr

namespace OptionReading

/-- Gives the option its value, which it takes once and which must not be empty. -/
def give (reading : OptionReading) (value : String) : Except Refusal OptionReading :=
  if reading.settled.isSome then .error .repeatedOption
  else if value = "" then .error .invalidValue
  else .ok ⟨some value, none⟩

/-- Settles an option that was named last. -/
def settle (reading : OptionReading) : Except Refusal OptionReading :=
  match reading.pending with
  | none => .ok reading
  | some none => .error .invalidValue
  | some (some value) => give { reading with pending := none } value

/-- Reads the option with its value attached or, without one, waits for the value. -/
def name (reading : OptionReading) (attached : Option String) : Except Refusal OptionReading := do
  let reading ← reading.settle
  match attached with
  | some value => reading.give value
  | none => .ok { reading with pending := some none }

/-- Takes a plain argument, which only an option that waits for its value can use. -/
def take (reading : OptionReading) (text : String) : Except Refusal OptionReading :=
  match reading.pending with
  | some none => .ok { reading with pending := some (some text) }
  | _ => .error .unknownArgument

end OptionReading

/-- What is attached to an option's letter, without the equals sign that may join it. -/
def attachedValue (attached : String) : Option String :=
  match attached.toList with
  | [] => none
  | '=' :: value => some (String.ofList value)
  | _ => some attached

/-- The value of a command's option, if the arguments behind the command give one. A command
without an option knows only the request for help. -/
def readOption (option : Option OptionName) (reading : OptionReading) :
    List String → Except Refusal (Option String)
  | [] => do return (← reading.settle).settled
  | text :: rest =>
    match Argument.ofString text with
    | .terminator =>
      if rest.isEmpty then do return (← reading.settle).settled else .error .unknownArgument
    | .long name value => do
      if option.any (·.name = name) then
        readOption option (← reading.name value) rest
      else if name = "help" then
        if value.isSome then .error .unwantedValue
        else let _ ← reading.settle; .error .helpRequested
      else .error .unknownArgument
    | .short letter attached => do
      if option.any (·.letter = letter) then
        readOption option (← reading.name (attachedValue attached)) rest
      else if letter = 'h' then
        let _ ← reading.settle; .error .helpRequested
      else .error .unknownArgument
    | .plain text => do readOption option (← reading.take text) rest

namespace Command

/-- The names of the commands, and of the request for help that is written as one. -/
def names : List String :=
  ["run", "repl", "levels", "play", "help"]

/-- Reads the arguments behind a command that has no option. -/
def readBare (command : Command) (args : List String) : Except Refusal Command := do
  let _ ← readOption none {} args
  return command

/-- Reads the arguments behind a command that needs its option. -/
def readValued (option : OptionName) (command : String → Command) (args : List String) :
    Except Refusal Command := do
  match ← readOption (some option) {} args with
  | some value => return command value
  | none => .error .missingOption

/-- Reads what help is wanted on. -/
def readHelp : List String → Refusal
  | [] => .helpRequested
  | [topic] => if topic ∈ names then .helpRequested else .unknownCommand
  | _ => .unknownCommand

/-- Reads the arguments behind a command's name. -/
def ofNamed (name : String) (args : List String) : Except Refusal Command :=
  match name with
  | "run" => readValued ⟨'s', "src-filepath"⟩ .run args
  | "repl" => readBare .repl args
  | "levels" => readBare .levels args
  | "play" => readValued ⟨'d', "solutions-dir"⟩ .play args
  | "help" => .error (readHelp args)
  | _ => .error .unknownCommand

/-- Reads the arguments of the program. -/
def ofArguments : List String → Except Refusal Command
  | [] => .error .noArguments
  | text :: rest =>
    match Argument.ofString text with
    | .terminator =>
      match rest with
      | [] => .error .noArguments
      | text :: _ => .error (if text ∈ names then .unknownArgument else .unknownCommand)
    | .long name value =>
      if name = "help" ∨ name = "version" then
        if value.isSome then .error .unwantedValue
        else .error (if name = "help" then .helpRequested else .versionRequested)
      else .error .unknownArgument
    | .short letter _ =>
      .error (if letter = 'h' then .helpRequested
        else if letter = 'V' then .versionRequested else .unknownArgument)
    | .plain name => ofNamed name rest

end Command

end LambdaTutor
