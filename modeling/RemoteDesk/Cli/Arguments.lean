import RemoteDesk.Permission

/-!
Command lines: a task and its options. An option is written `--name value` or `--name=value`; a
value that stands apart does not start with a dash, unless it is only that. Reading goes from left
to right, and ends where help is asked for.
-/
namespace RemoteDesk.Cli

/-- What the program can do. -/
inductive Task where
  | serve (config : Option String) (bind : Option String) (port : Option UInt16)
  | hashPassword (username password : String) (permissions : List Permission)
  | probe (config : Option String)
  deriving DecidableEq, Repr, Inhabited

/-- What a command line asks for. -/
inductive Request where
  | task (t : Task)
  | help
  | version
  | misuse
  deriving DecidableEq, Repr, Inhabited

/-! ### Words -/

/-- What a word of a command line is by its form. -/
inductive Word where
  /-- The name of an option, and a value behind an equals sign. -/
  | long (name : String) (value : Option String)
  | short (letter : Char)
  /-- Two dashes, behind which no word is an option. -/
  | stop
  | plain
  deriving DecidableEq, Repr, Inhabited

def Word.of (arg : String) : Word :=
  match arg.toList with
  | ['-', '-'] => .stop
  | '-' :: '-' :: cs =>
    let name := cs.takeWhile (· ≠ '=')
    match cs.drop name.length with
    | _ :: value => .long (String.ofList name) (some (String.ofList value))
    | [] => .long (String.ofList name) none
  | '-' :: c :: _ => .short c
  | _ => .plain

/-! ### Options -/

/-- An option of a task. -/
structure Flag where
  name : String
  accepts : String → Bool := fun _ => true
  /-- Given more than once, its values add up. -/
  repeats : Bool := false
  /-- The variable of the environment that stands in for it. -/
  fallback : Option String := none

/-- The values of options, in the order in which they were given. -/
abbrev Given := List (String × String)

/-- Why reading the options ends early. -/
inductive Stop where
  | help
  | misuse
  deriving DecidableEq, Repr, Inhabited

/-- Adds a value of an option. -/
def Given.add (f : Flag) (value : String) (given : Given) : Except Stop Given :=
  if f.accepts value && (f.repeats || !given.any (·.1 == f.name)) then
    .ok (given ++ [(f.name, value)])
  else .error .misuse

/-- Reads options up to the end. -/
def readFlags (flags : List Flag) : Given → List String → Except Stop Given
  | given, [] => .ok given
  | given, arg :: args =>
    match Word.of arg with
    | .long name none =>
      if name = "help" then .error .help
      else match flags.find? (·.name = name), args with
        | some f, value :: args =>
          if Word.of value = .plain then do readFlags flags (← given.add f value) args
          else .error .misuse
        | _, _ => .error .misuse
    | .long name (some value) =>
      match flags.find? (·.name = name) with
      | some f => do readFlags flags (← given.add f value) args
      | none => .error .misuse
    | .short 'h' => .error .help
    | .stop => if args.isEmpty then .ok given else .error .misuse
    | .short _ | .plain => .error .misuse

/-- Adds the values that the environment has for options that were not given. -/
def addVariables (env : String → Option String) : List Flag → Given → Except Stop Given
  | [], given => .ok given
  | f :: flags, given =>
    match given.lookup f.name, f.fallback.bind env with
    | none, some value => do addVariables env flags (← given.add f value)
    | _, _ => addVariables env flags given

/-- The options of a command line and of the environment. -/
def flagsOf (flags : List Flag) (env : String → Option String) (args : List String) :
    Except Stop Given := do
  addVariables env flags (← readFlags flags [] args)

/-- The number of a port, which may have a sign and leading zeros. -/
def port? (s : String) : Option UInt16 :=
  let (negative, digits) := match s.toList with
    | '+' :: cs => (false, cs)
    | '-' :: cs => (true, cs)
    | cs => (false, cs)
  if digits.isEmpty ∨ !digits.all Char.isDigit then none
  else
    let n := digits.foldl (fun n c => n * 10 + (c.toNat - 48)) 0
    if 65535 < n ∨ (negative ∧ n ≠ 0) then none else some (UInt16.ofNat n)

/-- The names of permissions, with commas between them. -/
def permissions? (s : String) : Option (List Permission) :=
  (s.splitOn ",").mapM Permission.ofName?

/-! ### Tasks -/

def configFlag : Flag :=
  { name := "config", accepts := (· ≠ ""), fallback := some "SYSCON_CONFIG" }

def bindFlag : Flag := { name := "bind" }

def portFlag : Flag := { name := "port", accepts := fun s => (port? s).isSome }

def usernameFlag : Flag := { name := "username" }

def passwordFlag : Flag := { name := "password", fallback := some "SYSCON_PASSWORD" }

def permissionsFlag : Flag :=
  { name := "permissions", accepts := fun s => (permissions? s).isSome, repeats := true }

/-- What the outcome of reading options asks for. -/
def requestOf (build : Given → Option Task) : Except Stop Given → Request
  | .error .help => .help
  | .error .misuse => .misuse
  | .ok given =>
    match build given with
    | some t => .task t
    | none => .misuse

def readServe (env : String → Option String) (args : List String) : Request :=
  requestOf (fun g =>
    some (.serve (g.lookup "config") (g.lookup "bind") ((g.lookup "port").bind port?)))
    (flagsOf [configFlag, bindFlag, portFlag] env args)

/-- The permissions of all values of the option; without one, every permission. -/
def givenPermissions (g : Given) : List Permission :=
  match g.filter (·.1 = "permissions") with
  | [] => Permission.all
  | values => values.flatMap fun v => (permissions? v.2).getD []

def readHashPassword (env : String → Option String) (args : List String) : Request :=
  requestOf (fun g => do
    return .hashPassword (← g.lookup "username") (← g.lookup "password") (givenPermissions g))
    (flagsOf [usernameFlag, passwordFlag, permissionsFlag] env args)

def readProbe (env : String → Option String) (args : List String) : Request :=
  requestOf (fun g => some (.probe (g.lookup "config"))) (flagsOf [configFlag] env args)

/-- The tasks by name. -/
def tasks : List (String × ((String → Option String) → List String → Request)) :=
  [("serve", readServe), ("hash-password", readHashPassword), ("probe", readProbe)]

/-- Whether words name something that there is help about. -/
def isTopic : List String → Bool
  | [] => true
  | [name] => name = "help" || (tasks.lookup name).isSome
  | _ => false

/-- What a command line asks for. -/
def Request.parse (env : String → Option String) : List String → Request
  | [] => .misuse
  | arg :: args =>
    match Word.of arg with
    | .long "help" none | .short 'h' => .help
    | .long "version" none | .short 'V' => .version
    | .plain =>
      if arg = "help" then if isTopic args then .help else .misuse
      else match tasks.lookup arg with
        | some read => read env args
        | none => .misuse
    | _ => .misuse

end RemoteDesk.Cli
