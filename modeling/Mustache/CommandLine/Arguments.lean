/-!
# Arguments

How the arguments of a command are read. An option is given by its name after two dashes or by
its letter after one; its value follows as the next argument, after an equals sign, or right
after the letter. Letters may share a dash. Two dashes alone end the options. Arguments are
looked at from left to right, and the first that is wrong or asks for help decides.
-/

namespace Mustache.CommandLine

/-- Why arguments are no command to be run. -/
inductive Stop where
  /-- They are wrong. -/
  | misuse
  /-- They ask for help. -/
  | help
  /-- They ask for the version. -/
  | version
  deriving Repr, DecidableEq, Inhabited

/-- What an option is for. -/
inductive OptionRole where
  /-- It carries a value that is accepted by a test; it may come again or not. -/
  | value (accepts : String → Bool) (repeatable : Bool)
  /-- It stands for itself. -/
  | flag
  /-- It asks for something else than running the command. -/
  | stop (stop : Stop)

/-- An option of a command. -/
structure OptionForm where
  /-- The name after two dashes. -/
  name : String
  /-- The letter after one dash, if there is one. -/
  letter : Option Char := none
  /-- What the option is for. -/
  role : OptionRole

/-- An argument that has been understood. -/
inductive Argument where
  /-- An option with its value. -/
  | option (name value : String)
  /-- An option that stands for itself. -/
  | flag (name : String)
  /-- An argument that belongs to no option. -/
  | positional (value : String)
  /-- An argument at which reading stops. -/
  | stop (stop : Stop)
  deriving Repr, DecidableEq, Inhabited

/-- Whether an argument has the form of options. A dash alone has not. -/
def isOptionLike (argument : List Char) : Bool :=
  match argument with
  | '-' :: _ :: _ => true
  | _ => false

/-- The arguments that one argument after two dashes stands for, and the name of the option
that takes the next one as its value. -/
def readLong (forms : List OptionForm) (body : List Char) : List Argument × Option String :=
  let name := String.ofList (body.takeWhile (· != '='))
  let value := match body.dropWhile (· != '=') with
    | _ :: value => some (String.ofList value)
    | [] => none
  match forms.find? (·.name == name) with
  | none => ([.stop .misuse], none)
  | some form =>
    match form.role, value with
    | .value _ _, some value => ([.option form.name value], none)
    | .value _ _, none => ([], some form.name)
    | .flag, none => ([.flag form.name], none)
    | .stop stop, none => ([.stop stop], none)
    | .flag, some _ | .stop _, some _ => ([.stop .misuse], none)

/-- The arguments that letters after one dash stand for, and the name of the option that takes
the next one as its value. -/
def readLetters (forms : List OptionForm) : List Char → List Argument × Option String
  | [] => ([], none)
  | letter :: rest =>
    match forms.find? (·.letter == some letter) with
    | none => ([.stop .misuse], none)
    | some form =>
      match form.role with
      | .stop stop => ([.stop stop], none)
      | .flag =>
        let (arguments, pending) := readLetters forms rest
        (.flag form.name :: arguments, pending)
      | .value _ _ =>
        match rest with
        | [] => ([], some form.name)
        | '=' :: value | value => ([.option form.name (String.ofList value)], none)

/-- The arguments of a command. `pending` names the option that takes the first of them as its
value, if there is one. -/
def readFrom (forms : List OptionForm) (pending : Option String) : List String → List Argument
  | [] =>
    match pending with
    | some _ => [.stop .misuse]
    | none => []
  | argument :: rest =>
    match pending with
    | some name =>
      if isOptionLike argument.toList then [.stop .misuse]
      else .option name argument :: readFrom forms none rest
    | none =>
      if argument == "--" then rest.map .positional
      else
        match argument.toList with
        | '-' :: '-' :: body =>
          let (arguments, pending) := readLong forms body
          arguments ++ readFrom forms pending rest
        | '-' :: letter :: letters =>
          let (arguments, pending) := readLetters forms (letter :: letters)
          arguments ++ readFrom forms pending rest
        | _ => .positional argument :: readFrom forms none rest

/-- What the arguments of a command give. -/
structure Collected where
  /-- The arguments that belong to no option. -/
  positionals : List String := []
  /-- The options with their values. -/
  options : List (String × String) := []
  /-- The options that stand for themselves. -/
  flags : List String := []
  deriving Repr, DecidableEq, Inhabited

namespace Collected

/-- The value of an option. -/
def value? (collected : Collected) (name : String) : Option String :=
  collected.options.lookup name

/-- All values of an option. -/
def values (collected : Collected) (name : String) : List String :=
  (collected.options.filter (·.1 == name)).map (·.2)

/-- Whether an option that stands for itself is there. -/
def hasFlag (collected : Collected) (name : String) : Bool :=
  collected.flags.contains name

/-- What was collected together with one more argument, where at most `most` belong to no
option. Those that belong to none are paths and so are not empty. -/
def take (forms : List OptionForm) (most : Option Nat) (collected : Collected) :
    Argument → Except Stop Collected
  | .stop stop => .error stop
  | .positional value =>
    let fits := match most with
      | some most => decide (collected.positionals.length < most)
      | none => true
    if fits && ! value.isEmpty then
      .ok { collected with positionals := collected.positionals ++ [value] }
    else .error .misuse
  | .flag name =>
    if collected.hasFlag name then .error .misuse
    else .ok { collected with flags := collected.flags ++ [name] }
  | .option name value =>
    match forms.find? (·.name == name) with
    | some ⟨_, _, .value accepts repeatable⟩ =>
      if accepts value && (repeatable || (collected.value? name).isNone) then
        .ok { collected with options := collected.options ++ [(name, value)] }
      else .error .misuse
    | _ => .error .misuse

end Collected

/-- What arguments give to a command with some options, where at most `most` belong to none. -/
def collect (forms : List OptionForm) (most : Option Nat) (arguments : List String) :
    Except Stop Collected :=
  (readFrom forms none arguments).foldlM (Collected.take forms most) {}

end Mustache.CommandLine
