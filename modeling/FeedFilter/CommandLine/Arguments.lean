import FeedFilter.Event

namespace FeedFilter.CommandLine

-- Where the text of a query comes from.
inductive Source
  | argument (text : String)
  | input
deriving DecidableEq, Repr

inductive Format
  | json
  | text
deriving DecidableEq, Repr

inductive Action
  | validate (tier : Tier) (query : Source)
  | parse (tier : Tier) (query : Source)
  | compile (tier : Tier) (dedicated : Bool) (format : Format) (query : Source)
  | stringify (tier : Tier) (query : Source)
  | equals (tier : Tier) (left right : String)
  | migrate (query : Source)
deriving DecidableEq, Repr

structure Invocation where
  settingsPath : Option String
  level : Level
  action : Action
deriving DecidableEq, Repr

inductive Request
  | version
  | perform (invocation : Invocation)
deriving DecidableEq, Repr

-- An argument by its form. An option of one letter may have its value right after the letter, one
-- with a longer name after an equals sign. A dash on its own is an operand.
inductive Word
  | operand (text : String)
  | option (name : String) (attached : Option String)
  | terminator
deriving DecidableEq, Repr

namespace Word

def ofLongName (chars : List Char) : Word :=
  let name := String.ofList (chars.takeWhile (· ≠ '='))
  match chars.dropWhile (· ≠ '=') with
  | [] => .option name none
  | _ :: value => .option name (some (String.ofList value))

def ofLetter (letter : Char) : List Char → Word
  | [] => .option (String.singleton letter) none
  | '=' :: value => .option (String.singleton letter) (some (String.ofList value))
  | value => .option (String.singleton letter) (some (String.ofList value))

def ofText (text : String) : Word :=
  match text.toList with
  | ['-', '-'] => .terminator
  | '-' :: '-' :: name => ofLongName name
  | '-' :: letter :: rest => ofLetter letter rest
  | _ => .operand text

end Word

inductive OptionName
  | config
  | level
  | tier
  | format
  | dedicated
deriving DecidableEq, Repr

-- An option by its name after the dashes. Some have a letter as well.
def OptionName.ofText? : String → Option OptionName
  | "config" => some .config
  | "c" => some .config
  | "log-level" => some .level
  | "l" => some .level
  | "tier" => some .tier
  | "t" => some .tier
  | "format" => some .format
  | "f" => some .format
  | "dedicated" => some .dedicated
  | _ => none

-- The options that have been given.
structure Options where
  config : Option String := none
  level : Option Level := none
  tier : Option Tier := none
  format : Option Format := none
  dedicated : Bool := false

namespace Options

def formatOfText? : String → Option Format
  | "json" => some .json
  | "text" => some .text
  | _ => none

-- Sets an option that takes a value. The value has to make sense, save for the level, and the
-- option must not have been set before.
def set (options : Options) (name : OptionName) (value : String) : Option Options :=
  match name with
  | .config =>
    if options.config.isSome || value = "" then none else some { options with config := value }
  | .level =>
    if options.level.isSome then none else some { options with level := Level.ofText value }
  | .tier =>
    if options.tier.isSome then none
    else (Tier.ofText? value).map fun tier => { options with tier }
  | .format =>
    if options.format.isSome then none
    else (formatOfText? value).map fun format => { options with format }
  | .dedicated => none

-- Sets an option with the value that is attached to it or that is the next argument, and gives the
-- arguments after it.
def read (options : Options) (name : OptionName) (attached : Option String) (rest : List String) :
    Option (Options × List String) :=
  match name, attached, rest with
  | .dedicated, none, rest =>
    if options.dedicated then none else some ({ options with dedicated := true }, rest)
  | .dedicated, some _, _ => none
  | name, some value, rest => (options.set name value).map (·, rest)
  | name, none, value :: rest =>
    match Word.ofText value with
    | .operand value => (options.set name value).map (·, rest)
    | _ => none
  | _, none, [] => none

theorem length_read {options : Options} {name : OptionName} {attached : Option String}
    {rest : List String} {found : Options × List String}
    (h : options.read name attached rest = some found) : found.2.length ≤ rest.length := by
  unfold read at h
  repeat' split at h
  all_goals simp at h
  all_goals grind

end Options

-- The options and operands of a command, which come in any order. After two dashes there are only
-- operands.
def readCommand (allowed : List OptionName) (options : Options) (operands : List String)
    (args : List String) : Option (Options × List String) :=
  match args with
  | [] => some (options, operands)
  | arg :: rest =>
    match Word.ofText arg with
    | .operand text => readCommand allowed options (operands ++ [text]) rest
    | .terminator => some (options, operands ++ rest)
    | .option name attached =>
      match OptionName.ofText? name with
      | none => none
      | some name =>
        if allowed.contains name then
          match _h : options.read name attached rest with
          | none => none
          | some (options, rest) => readCommand allowed options operands rest
        else none
termination_by args.length
decreasing_by
  · simp
  · exact Nat.lt_succ_of_le (Options.length_read ‹Options.read _ _ _ _ = some _›)

def globalOptions : List OptionName := [.config, .level]

def allowedOptions : String → List OptionName
  | "compile" => [.config, .level, .tier, .dedicated, .format]
  | "migrate" => globalOptions
  | _ => [.config, .level, .tier]

-- A query as an operand; a dash stands for the input.
def Source.ofOperands? : List String → Option Source
  | [] => some .input
  | ["-"] => some .input
  | [text] => some (.argument text)
  | _ => none

-- The action of a command with its options and operands.
def Action.ofCommand? (command : String) (options : Options) (operands : List String) :
    Option Action :=
  let tier := options.tier.getD .ql0
  match command with
  | "validate" => (Source.ofOperands? operands).map (.validate tier)
  | "parse" => (Source.ofOperands? operands).map (.parse tier)
  | "compile" =>
    (Source.ofOperands? operands).map
      (.compile tier options.dedicated (options.format.getD .json))
  | "stringify" => (Source.ofOperands? operands).map (.stringify tier)
  | "equals" =>
    match operands with
    | [left, right] => some (.equals tier left right)
    | _ => none
  | "migrate" => (Source.ofOperands? operands).map .migrate
  | _ => none

-- What the arguments ask for, or nothing if they are not understood. Options before the command
-- hold unless they are given again after it.
def readRequest (options : Options) (args : List String) : Option Request :=
  match args with
  | [] => none
  | arg :: rest =>
    match Word.ofText arg with
    | .terminator => none
    | .operand command => do
      let (own, operands) ← readCommand (allowedOptions command) {} [] rest
      let action ← Action.ofCommand? command own operands
      return .perform ⟨own.config.or options.config,
        (own.level.or options.level).getD .info, action⟩
    | .option "version" none => some .version
    | .option "V" _ => some .version
    | .option name attached =>
      match OptionName.ofText? name with
      | none => none
      | some name =>
        if globalOptions.contains name then
          match _h : options.read name attached rest with
          | none => none
          | some (options, rest) => readRequest options rest
        else none
termination_by args.length
decreasing_by
  exact Nat.lt_succ_of_le (Options.length_read ‹Options.read _ _ _ _ = some _›)

def Request.ofArguments? (args : List String) : Option Request :=
  readRequest {} args

end FeedFilter.CommandLine
