/-! What a command line asks for. The program has commands, one of them with commands of its
own, and options that may stand at any level. Arguments are read from left to right; the first
one that makes no sense, or that asks for help, ends the reading. -/
namespace RequestBus.CommandLine

inductive Shell where
  | bash
  | fish
  | zsh
  | powershell
  | elvish
  deriving DecidableEq, Repr

namespace Shell

def name : Shell → String
  | .bash => "bash"
  | .fish => "fish"
  | .zsh => "zsh"
  | .powershell => "powershell"
  | .elvish => "elvish"

def all : List Shell := [.bash, .fish, .zsh, .powershell, .elvish]

def ofName? (name : String) : Option Shell := all.find? fun s => s.name == name

end Shell

inductive Level where
  | program
  | run
  | config
  | completions
  | check
  | init
  | schema
  deriving DecidableEq, Repr

namespace Level

def commands : Level → List (String × Level)
  | .program => [("run", .run), ("config", .config), ("completions", .completions)]
  | .config => [("check", .check), ("init", .init), ("schema", .schema)]
  | _ => []

def command? (l : Level) (name : String) : Option Level :=
  (l.commands.find? fun c => c.1 == name).map (·.2)

def hasCommands (l : Level) : Bool := !l.commands.isEmpty

end Level

def helpCommand : String := "help"

inductive Task where
  | run
  | check
  | init (force : Bool)
  | schema
  | completions (shell : Shell)
  deriving DecidableEq, Repr

inductive Invocation where
  | perform (task : Task) (directory : Option String)
  | help (level : Level)
  | version
  | misuse
  deriving DecidableEq, Repr

structure Given where
  directory : Option String := none
  force : Bool := false
  shell : Option Shell := none
  /-- Two hyphens were given, so that nothing is an option from there on. -/
  isLiteral : Bool := false

def isOption (arg : String) : Bool := arg.toList.head? = some '-' && arg != "-"

def joinedValue? (option arg : String) : Option String :=
  let start := option.toList ++ ['=']
  if start.isPrefixOf arg.toList then some (String.ofList (arg.toList.drop start.length)) else none

def helpFor (l : Level) : List String → Invocation
  | [] => .help l
  | name :: more =>
    match l.command? name with
    | some inner => helpFor inner more
    | none => if name = helpCommand ∧ l.hasCommands ∧ more = [] then .help l else .misuse

def conclude (l : Level) (outer : Option String) (g : Given) : Invocation :=
  let directory := g.directory <|> outer
  match l with
  | .program | .config => .misuse
  | .run => .perform .run directory
  | .check => .perform .check directory
  | .init => .perform (.init g.force) directory
  | .schema => .perform .schema directory
  | .completions =>
    match g.shell with
    | some shell => .perform (.completions shell) directory
    | none => .misuse

inductive Reaction where
  | note (g : Given)
  | enter (l : Level)
  | expectDirectory
  | expectCommand
  | stop (i : Invocation)

def Reaction.ofNote? (noted : Option Given) : Reaction :=
  match noted with
  | some g => .note g
  | none => .stop .misuse

/-- Notes the directory of the settings, which may be given once at each level. -/
def Given.inDirectory? (g : Given) (value : String) : Option Given :=
  if g.directory.isSome ∨ value = "" then none else some { g with directory := some value }

def Given.forced? (g : Given) : Option Given :=
  if g.force then none else some { g with force := true }

def Given.word? (g : Given) (l : Level) (arg : String) : Option Given :=
  match l, g.shell, Shell.ofName? arg with
  | .completions, none, some shell => some { g with shell := some shell }
  | _, _, _ => none

def letters (l : Level) (arg : String) : Invocation :=
  match arg.toList.drop 1 with
  | 'h' :: _ => .help l
  | 'V' :: _ => if l = .program then .version else .misuse
  | _ => .misuse

def reactToOption (l : Level) (g : Given) (arg : String) : Reaction :=
  if arg = "--" then .note { g with isLiteral := true }
  else if arg = "--config-dir" then .expectDirectory
  else if arg = "--help" then .stop (.help l)
  else if arg = "--version" ∧ l = .program then .stop .version
  else if arg = "--force" ∧ l = .init then .ofNote? g.forced?
  else
    match joinedValue? "--config-dir" arg with
    | some value => .ofNote? (g.inDirectory? value)
    | none => if isOption arg then .stop (letters l arg) else .ofNote? (g.word? l arg)

def react (l : Level) (g : Given) (arg : String) : Reaction :=
  if g.isLiteral then .ofNote? (g.word? l arg)
  else
    match l.command? arg with
    | some inner => .enter inner
    | none =>
      if arg = helpCommand ∧ l.hasCommands then .expectCommand else reactToOption l g arg

/-- Reads the arguments at a level. `outer` is the directory given at the levels around it. -/
def read (l : Level) (outer : Option String) (g : Given) : List String → Invocation
  | [] => conclude l outer g
  | arg :: more =>
    match react l g arg with
    | .note g => read l outer g more
    | .enter inner => read inner (g.directory <|> outer) {} more
    | .expectCommand => helpFor l more
    | .stop i => i
    | .expectDirectory =>
      match more with
      | [] => .misuse
      | value :: rest =>
        match (if isOption value then none else g.inDirectory? value) with
        | some g => read l outer g rest
        | none => .misuse

def invocation (args : List String) : Invocation := read .program none {} args

end RequestBus.CommandLine
