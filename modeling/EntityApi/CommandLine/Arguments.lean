import EntityApi.Number.Numeral

/-!
Reading the arguments of the command line. A command may follow the general options, and what comes
after it are the command's own options. An option may be cut short as long as only one option of the
command begins so, and its value may follow as the next argument or after an equals sign. What looks
like a negative number or holds a blank is no option, and after two hyphens nothing is.

All arguments of a command are told apart before any counts; then they count in order. So a request
for help is met even before arguments that make no sense, unless they cannot be told apart.
-/

namespace EntityApi.CommandLine

open Text

/-- The options of all commands. -/
inductive Flag where
  | help
  | registry
  | out
  | host
  | port
  deriving Repr, DecidableEq

namespace Flag

def takesValue (f : Flag) : Bool := f != .help

/-- The spellings of the general options. -/
def general : List (String × Flag) := [("-h", .help), ("--help", .help), ("--registry", .registry)]

end Flag

inductive CommandName where
  | sdl
  | exportFiles
  | serve
  deriving Repr, DecidableEq

namespace CommandName

def ofText? : String → Option CommandName
  | "sdl" => some sdl
  | "export" => some exportFiles
  | "serve" => some serve
  | _ => none

/-- The spellings of a command's own options. -/
def flags (c : CommandName) : List (String × Flag) :=
  [("-h", .help), ("--help", .help)] ++
    match c with
    | sdl => []
    | exportFiles => [("--out", .out)]
    | serve => [("--host", .host), ("--port", .port)]

end CommandName

inductive Command where
  | sdl
  | exportFiles (out : String)
  | serve (host : String) (port : Int)
  deriving Repr, DecidableEq

structure Invocation where
  registry : Option String
  command : Command
  deriving Repr, DecidableEq

/-- Why no command is carried out. -/
inductive Refusal where
  | help
  | misuse
  deriving Repr, DecidableEq

/-- What an argument is. -/
inductive Argument where
  | plain (text : String)
  /-- Two hyphens. -/
  | separator
  /-- An option by its full name, with the value attached to it and whether an equals sign attaches it. -/
  | option (flag : Flag) (name : String) (attached : Option (Bool × String))
  | unknownOption
  deriving Repr, DecidableEq

namespace Argument

/-- The parts before and after the first equals sign. -/
def splitEquals (s : String) : String × Option String :=
  let chars := s.toList
  let before := chars.takeWhile (· != '=')
  (String.ofList before,
    if before.length < chars.length then some (String.ofList (chars.drop (before.length + 1))) else none)

def attachedBy (value : Option String) : Option (Bool × String) := value.map (true, ·)

/-- The options that an argument may be short for. A single hyphen stands before a letter, and a
value may follow it at once. -/
def candidates (flags : List (String × Flag)) (s : String) : List Argument :=
  if s.startsWith "--" then
    let (short, value) := splitEquals s
    (flags.filter fun e => e.1.startsWith short).map fun (name, flag) =>
      .option flag name (attachedBy value)
  else
    let letter := String.ofList (s.toList.take 2)
    flags.filterMap fun (name, flag) =>
      if name == letter then some (.option flag name (some (false, String.ofList (s.toList.drop 2))))
      else if name.startsWith s then some (.option flag name none)
      else none

def isDigit (c : Char) : Bool := (digitValue? c).isSome

/-- Whether a text is a hyphen with a whole or decimal number. -/
def isNegativeNumber : List Char → Bool
  | '-' :: s =>
    let rest := s.dropWhile isDigit
    (!s.isEmpty && rest.isEmpty) ||
      match rest with
      | '.' :: fraction => !fraction.isEmpty && fraction.all isDigit
      | _ => false
  | _ => false

/-- What an argument is among the options of a command. -/
def read (flags : List (String × Flag)) (s : String) : Except Refusal Argument :=
  if !s.startsWith "-" || s == "-" then .ok (.plain s)
  else
    match flags.lookup s with
    | some flag => .ok (.option flag s none)
    | none =>
      let (name, value) := splitEquals s
      match flags.lookup name, value with
      | some flag, some v => .ok (.option flag name (some (true, v)))
      | _, _ =>
        match candidates flags s with
        | [found] => .ok found
        | [] =>
          if isNegativeNumber s.toList || s.contains ' ' then .ok (.plain s) else .ok .unknownOption
        | _ => .error .misuse

/-- What arguments are, in order; nothing after two hyphens is an option. -/
def readAll (flags : List (String × Flag)) : List String → Except Refusal (List Argument)
  | [] => .ok []
  | s :: rest =>
    if s == "--" then .ok (.separator :: rest.map .plain)
    else do return (← read flags s) :: (← readAll flags rest)

end Argument

/-- What the arguments of one command have given so far. -/
structure Given where
  registry : Option String := none
  out : Option String := none
  host : Option String := none
  port : Option Int := none
  /-- Whether there were arguments that mean nothing here. -/
  surplus : Bool := false
  /-- The command, with what follows it. -/
  command : Option (String × List String) := none
  deriving Repr, DecidableEq

namespace Given

def set (g : Given) (flag : Flag) (value : String) : Except Refusal Given :=
  match flag with
  | .help => .error .help
  | .registry => .ok { g with registry := some value }
  | .out => .ok { g with out := some value }
  | .host => .ok { g with host := some value }
  | .port =>
    match Numeral.readInteger value.toList with
    | .ok n => .ok { g with port := some n }
    | .error _ => .error .misuse

/-- What comes of a request for help with something attached to it. Further letters may follow the
letter of the request, but no value. -/
def helpWith (byEquals : Bool) : List Char → Refusal
  | [] => .misuse
  | c :: rest =>
    if byEquals || c == '-' then .misuse
    else if c != 'h' then .help
    else
      match rest with
      | [] => .help
      | '=' :: more => helpWith true more
      | d :: more => helpWith false (d :: more)

/-- Takes arguments in order. Where a command may stand, the first argument that is no option is
the command, and all that follow are its own; two hyphens are no command. -/
def take (commands : Bool) : List (String × Argument) → Given → Except Refusal Given
  | [], g => .ok g
  | (s, .plain _) :: rest, g =>
    if commands then .ok { g with command := some (s, rest.map Prod.fst) }
    else take commands rest { g with surplus := true }
  | (_, .separator) :: rest, g =>
    if commands then .error .misuse else take commands rest { g with surplus := true }
  | (_, .unknownOption) :: rest, g => take commands rest { g with surplus := true }
  | (_, .option flag name attached) :: rest, g =>
    match attached with
    | some (byEquals, value) =>
      if flag.takesValue then do take commands rest (← g.set flag value)
      else .error (if name.startsWith "--" then .misuse else helpWith byEquals value.toList)
    | none =>
      if flag.takesValue then
        match rest with
        | (_, .plain value) :: rest => do take commands rest (← g.set flag value)
        | _ => .error .misuse
      else .error .help

def ofArguments (commands : Bool) (flags : List (String × Flag)) (arguments : List String) :
    Except Refusal Given := do
  take commands (arguments.zip (← Argument.readAll flags arguments)) {}

end Given

def defaultOut : String := "contracts"

def defaultHost : String := "127.0.0.1"

def defaultPort : Int := 8000

def Command.ofGiven (name : CommandName) (g : Given) : Command :=
  match name with
  | .sdl => .sdl
  | .exportFiles => .exportFiles (g.out.getD defaultOut)
  | .serve => .serve (g.host.getD defaultHost) (g.port.getD defaultPort)

namespace Invocation

/-- What a command line asks for. Without a command it asks for help. -/
def ofArguments (arguments : List String) : Except Refusal Invocation := do
  let g ← Given.ofArguments true Flag.general arguments
  match g.command with
  | none => .error (if g.surplus then .misuse else .help)
  | some (name, rest) =>
    match CommandName.ofText? name with
    | none => .error .misuse
    | some c =>
      let own ← Given.ofArguments false c.flags rest
      if g.surplus || own.surplus then .error .misuse
      else return ⟨g.registry, .ofGiven c own⟩

end Invocation

end EntityApi.CommandLine
