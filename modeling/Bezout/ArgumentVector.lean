import Bezout.Fault

/-!
Reading argument vectors. Options may stand anywhere, with their value behind them or attached;
long options may be shortened as long as only one fits. Positional arguments are taken in chunks,
as many as fit between two options; a double dash ends the options.
-/
namespace Bezout

/-- What an option does. -/
inductive OptionAction
  /-- Stores the value that follows. -/
  | store
  /-- Stores that it was given. -/
  | setTrue
  /-- Asks for help. -/
  | help
  deriving DecidableEq

/-- An option: its flags, the name that it stores its value under, and the value without it. -/
structure OptionSpec where
  flags : List String
  name : String
  action : OptionAction
  default : Value

/-- A positional argument, which may be optional or restricted to some choices. -/
structure PositionalSpec where
  name : String
  optional : Bool
  choices : Option (List String)

/-- What an argument vector is read by. -/
structure ArgumentSpec where
  options : List OptionSpec
  positionals : List PositionalSpec

/-- Values that were read, by name. -/
abbrev NamedValues := List (String × Value)

/-- The result of reading an argument vector. -/
inductive Reading
  | values (stored : NamedValues)
  /-- The vector cannot be read; the message says why. -/
  | usage (message : String)
  | help

namespace NamedValues

/-- Stores a value, in place of the earlier one. -/
def store (as : NamedValues) (name : String) (v : Value) : NamedValues :=
  match as with
  | [] => [(name, v)]
  | (other, w) :: rest =>
    if other = name then (name, v) :: rest else (other, w) :: store rest name v

/-- The first value under a name is its default. -/
def storeDefault (as : NamedValues) (name : String) (v : Value) : NamedValues :=
  if (as.lookup name).isSome then as else as.store name v

end NamedValues

namespace OptionSpec

/-- The flags of an option as messages show them. -/
def title (o : OptionSpec) : String := "/".intercalate o.flags

def takesValue (o : OptionSpec) : Bool := o.action = .store

end OptionSpec

namespace ArgumentSpec

/-- The option that asks for help. -/
def helpOption : OptionSpec := ⟨["-h", "--help"], "help", .help, .nothing⟩

/-- Every flag with its option, in the order of declaration. -/
def flags (spec : ArgumentSpec) : List (String × OptionSpec) :=
  spec.options.flatMap fun o => o.flags.map fun flag => (flag, o)

/-- An argument that was recognized as an option: the flag, the option unless it is unknown, and
    the text attached to it. -/
structure Match where
  flag : String
  option : Option OptionSpec
  attached : Option (List Char)

/-- What an argument is before positions are looked at. -/
inductive Class
  | option (found : Match)
  | argument
  | doubleDash

/-- An argument with what it is. -/
abbrev Classified := String × Class

def Classified.isOption (arg : Classified) : Bool := arg.2 matches .option _

def Classified.isDoubleDash (arg : Classified) : Bool := arg.2 matches .doubleDash

/-- The part of an argument before its first equals sign, and the part after it if there is one. -/
def splitEquals (arg : List Char) : List Char × Option (List Char) :=
  (arg.takeWhile (· != '='), (arg.dropWhile (· != '=')).tail?)

/-- The options that an argument may be short for. After two dashes, the name may be shortened;
    after one, the rest of the argument may be the value of the option. -/
def candidates (spec : ArgumentSpec) (arg : List Char) : List Match :=
  match arg with
  | '-' :: '-' :: _ =>
    let (name, attached) := splitEquals arg
    spec.flags.filterMap fun (flag, o) =>
      if name.isPrefixOf flag.toList then some ⟨flag, some o, attached⟩ else none
  | '-' :: c :: rest =>
    spec.flags.filterMap fun (flag, o) =>
      if flag.toList = ['-', c] then some ⟨flag, some o, some rest⟩
      else if arg.isPrefixOf flag.toList then some ⟨flag, some o, none⟩
      else none
  | _ => []

/-- Decimal digits of any script, one at least, before the end or a last line break. -/
def isDigits (s : List Char) : Bool :=
  let digits := if s.getLast? = some '\n' then s.dropLast else s
  !digits.isEmpty && digits.all Text.isDigit

/-- A dash before digits, or before a point with digits after it and possibly before it. -/
def isNegativeNumber : List Char → Bool
  | '-' :: rest =>
    isDigits rest ||
      match rest.dropWhile Text.isDigit with
      | '.' :: decimals => isDigits decimals
      | _ => false
  | _ => false

/-- Whether an argument is an option; it is an error if several options fit. -/
def classify (spec : ArgumentSpec) (text : String) : Except String Class :=
  let arg := text.toList
  match arg with
  | '-' :: _ :: _ =>
    let (name, attached) := splitEquals arg
    match spec.flags.lookup text, spec.flags.lookup (String.ofList name), attached with
    | some o, _, _ => .ok (.option ⟨text, some o, none⟩)
    | none, some o, some value => .ok (.option ⟨String.ofList name, some o, some value⟩)
    | none, _, _ =>
      match spec.candidates arg with
      | [found] => .ok (.option found)
      | [] =>
        if isNegativeNumber arg || arg.contains ' ' then .ok .argument
        else .ok (.option ⟨text, none, none⟩)
      | several =>
        .error (s!"ambiguous option: {text} could match " ++
          ", ".intercalate (several.map Match.flag))
  | _ => .ok .argument

/-- The classes of the arguments; after a double dash there are no options. -/
def classifyAll (spec : ArgumentSpec) : List String → Except String (List Classified)
  | [] => .ok []
  | "--" :: rest => .ok (("--", .doubleDash) :: rest.map fun arg => (arg, .argument))
  | arg :: rest => do
    let c ← spec.classify arg
    .ok ((arg, c) :: (← spec.classifyAll rest))

/-- What is still to be read, and what was read. -/
structure State where
  positionals : List PositionalSpec
  stored : NamedValues
  /-- Arguments that nothing has taken. -/
  extras : List String

/-- Why reading stopped before its end. -/
inductive Stop
  | usage (message : String)
  | help

/-- An option was at fault. -/
def optionFault {α : Type} (o : OptionSpec) (message : String) : Except Stop α :=
  .error (.usage s!"argument {o.title}: {message}")

/-- The value that a text gives an option. A double dash is left out, as it is between positional
    arguments, and an empty list is all that remains. -/
def valueOf (text : String) : Value := if text = "--" then .list [] else .text text

/-- Does what an option says. -/
def take (as : NamedValues) (o : OptionSpec) (value : Option String) : Except Stop NamedValues :=
  match o.action, value with
  | .store, some v => .ok (as.store o.name (valueOf v))
  | .store, none => .ok as
  | .setTrue, _ => .ok (as.store o.name (.boolean true))
  | .help, _ => .error .help

/-- Does what several options say, one after the other. -/
def takeAll (as : NamedValues) : List (OptionSpec × Option String) → Except Stop NamedValues
  | [] => .ok as
  | (o, value) :: rest => do takeAll (← take as o value) rest

/-- What was found in one argument: options with their values, and whether the argument behind it
    was used as a value. -/
structure Taken where
  options : List (OptionSpec × Option String)
  usesNext : Bool

/-- Puts an option before what was found. -/
def Taken.after (o : OptionSpec) (t : Taken) : Taken := { t with options := (o, none) :: t.options }

/-- An option with nothing attached: its value, if it takes one, is the next argument. -/
def takeDetached (o : OptionSpec) (next : Option Classified) : Except Stop Taken :=
  if o.takesValue then
    match next with
    | some (value, .argument) => .ok ⟨[(o, some value)], true⟩
    | _ => optionFault o "expected one argument"
  else .ok ⟨[(o, none)], false⟩

/-- An option without a value has a text attached that names no further options. -/
def ignored {α : Type} (o : OptionSpec) (attached : List Char) : Except Stop α :=
  optionFault o s!"ignored explicit argument {Text.quoted (String.ofList attached)}"

/-- An option with a text attached, which is its value if it takes one. A short option without a
    value is followed by further short options in the same argument. -/
def takeAttached (spec : ArgumentSpec) (next : Option Classified) (flag : String)
    (o : OptionSpec) : List Char → Except Stop Taken
  | [] => if o.takesValue then .ok ⟨[(o, some "")], false⟩ else ignored o []
  | c :: rest =>
    if o.takesValue then .ok ⟨[(o, some (String.ofList (c :: rest)))], false⟩
    else if flag.toList.take 2 = ['-', '-'] then ignored o (c :: rest)
    else
      let short := String.ofList ['-', c]
      match spec.flags.lookup short, rest with
      | none, _ => ignored o (c :: rest)
      | some other, [] => (takeDetached other next).map (Taken.after o)
      | some other, more => (takeAttached spec next short other more).map (Taken.after o)

/-- What an argument that was recognized as an option says; an unknown option says nothing. -/
def takeMatch (spec : ArgumentSpec) (found : Match) (next : Option Classified) :
    Except Stop (Option Taken) :=
  match found.option, found.attached with
  | none, _ => .ok none
  | some o, none => (takeDetached o next).map some
  | some o, some attached => (spec.takeAttached next found.flag o attached).map some

/-- How many arguments a positional takes: double dashes, the argument, double dashes. -/
def positionalCount (p : PositionalSpec) (args : List Classified) : Option Nat :=
  let before := args.takeWhile Classified.isDoubleDash
  match args.dropWhile Classified.isDoubleDash with
  | (_, .argument) :: rest =>
    some (before.length + 1 + (rest.takeWhile Classified.isDoubleDash).length)
  | _ => if p.optional then some before.length else none

/-- Stores a positional argument. One double dash is left out of what it takes. -/
def storePositional (as : NamedValues) (p : PositionalSpec) (args : List String) :
    Except Stop NamedValues :=
  match args.erase "--", p.optional with
  | [value], _ =>
    match p.choices with
    | some choices =>
      if choices.contains value then .ok (as.store p.name (.text value))
      else
        .error (.usage (s!"argument {p.name}: invalid choice: {Text.quoted value} (choose from " ++
          ", ".intercalate (choices.map Text.quoted) ++ ")"))
    | none => .ok (as.store p.name (.text value))
  | [], true => .ok (as.store p.name .nothing)
  | values, _ => .ok (as.store p.name (.list (values.map Value.text)))

/-- Takes as many positionals as the arguments allow, and gives back how many were used. -/
def takePositionals (s : State) (args : List Classified) : Except Stop (State × Nat) :=
  go s.positionals s.stored args 0
where
  go : List PositionalSpec → NamedValues → List Classified → Nat → Except Stop (State × Nat)
    | [], as, _, used => .ok ({ s with positionals := [], stored := as }, used)
    | p :: rest, as, args, used =>
      match positionalCount p args with
      | none => .ok ({ s with positionals := p :: rest, stored := as }, used)
      | some n => do
        let as ← storePositional as p ((args.take n).map Prod.fst)
        go rest as (args.drop n) (used + n)

/-- Reads arguments up to the last option: positionals as far as they fit, other arguments before
    an option are left over, and then the option. -/
def readArguments (spec : ArgumentSpec) (s : State) (args : List Classified) :
    Except Stop State :=
  match args with
  | [] => do
    let (s, _) ← takePositionals s []
    .ok s
  | (arg, .option found) :: rest => do
    match ← spec.takeMatch found rest.head? with
    | none => readArguments spec { s with extras := s.extras ++ [arg] } rest
    | some taken =>
      let as ← takeAll s.stored taken.options
      readArguments spec { s with stored := as } (if taken.usesNext then rest.tail else rest)
  | first :: rest => do
    let (s, used) ← takePositionals s (first :: rest)
    if 0 < used then readArguments spec s (rest.drop (used - 1))
    else
      let skipped := (first :: rest).takeWhile (!Classified.isOption ·)
      if skipped.length = rest.length + 1 then
        .ok { s with extras := s.extras ++ skipped.map Prod.fst }
      else
        readArguments spec { s with extras := s.extras ++ skipped.map Prod.fst }
          (rest.dropWhile (!Classified.isOption ·))
termination_by args.length
decreasing_by
  · simp
  · split <;> simp only [List.length_tail, List.length_cons] <;> omega
  · simp only [List.length_drop, List.length_cons]
    omega
  · have := (List.dropWhile_suffix (l := rest) (!Classified.isOption ·)).length_le
    simp only [List.length_cons]
    omega

/-- The values that are stored before anything is read. -/
def defaults (spec : ArgumentSpec) : NamedValues :=
  let options := spec.options.filter fun o => o.action ≠ .help
  let optionDefaults := options.map fun o => (o.name, o.default)
  let positionalDefaults := spec.positionals.map fun p => (p.name, Value.nothing)
  (optionDefaults ++ positionalDefaults).foldl (fun as d => NamedValues.storeDefault as d.1 d.2) []

/-- Reads an argument vector. -/
def read (spec : ArgumentSpec) (args : List String) : Reading :=
  match spec.classifyAll args with
  | .error message => .usage message
  | .ok classified =>
    match spec.readArguments ⟨spec.positionals, spec.defaults, []⟩ classified with
    | .error .help => .help
    | .error (.usage message) => .usage message
    | .ok s =>
      match s.positionals.filter (!·.optional), s.extras with
      | [], [] => .values s.stored
      | [], extras => .usage ("unrecognized arguments: " ++ " ".intercalate extras)
      | missing, _ =>
        .usage ("the following arguments are required: " ++
          ", ".intercalate (missing.map PositionalSpec.name))

/-- Adds an option, whose flag must not be taken. -/
def addOption (spec : ArgumentSpec) (o : OptionSpec) : Except Fault ArgumentSpec :=
  match o.flags.find? fun flag => (spec.flags.lookup flag).isSome with
  | some flag => .error (.conflictingOption flag)
  | none => .ok { spec with options := spec.options ++ [o] }

end ArgumentSpec
end Bezout
