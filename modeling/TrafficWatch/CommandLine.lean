import TrafficWatch.Decimal.Nearest

/-!
# Command line

What the arguments of the program ask for.  Options have long names behind two dashes, and some have
short ones behind one dash; a value follows an option, or stands in the same argument.  An option whose
value has come, or has not, is settled only when the next option is met or the arguments end
(`Reading.settle`), and an argument that means nothing is refused before that.
-/

namespace TrafficWatch

/-- What the arguments ask for. -/
structure CommandLine where
  /-- The file of the configuration. -/
  config : Option String := none
  /-- A file of events to begin with. -/
  replay : Option String := none
  logLevel : Option String := none
  /-- The seconds between two drains of the ledger. -/
  drainInterval : Nat := 5
  /-- The sample configuration is printed, and nothing else is done. -/
  printsSample : Bool := false
deriving Repr, DecidableEq

namespace CommandLine

/-- Why the arguments are not carried out. -/
inductive Refusal where
  | unknownArgument
  /-- An option lacks its value, or the value is empty. -/
  | invalidValue
  /-- A value is of the wrong kind. -/
  | valueValidation
  /-- A value is given to an option that takes none. -/
  | tooManyValues
  /-- An option is given twice. -/
  | argumentConflict
  /-- Help is asked for. -/
  | displayHelp
  /-- The version is asked for. -/
  | displayVersion
deriving Repr, DecidableEq

/-- The name of a refusal. -/
def Refusal.name : Refusal → String
  | unknownArgument => "UnknownArgument"
  | invalidValue => "InvalidValue"
  | valueValidation => "ValueValidation"
  | tooManyValues => "TooManyValues"
  | argumentConflict => "ArgumentConflict"
  | displayHelp => "DisplayHelp"
  | displayVersion => "DisplayVersion"

/-- Options that take a value. -/
inductive Valued where
  | config
  | replay
  | logLevel
  | drainInterval
deriving Repr, DecidableEq

/-- Options that take none. -/
inductive Flag where
  | printSample
  | help
  | version
deriving Repr, DecidableEq

/-- The option of a long name. -/
def ofLong? : String → Option (Valued ⊕ Flag)
  | "config" => some (.inl .config)
  | "replay" => some (.inl .replay)
  | "log-level" => some (.inl .logLevel)
  | "drain-interval" => some (.inl .drainInterval)
  | "print-sample-config" => some (.inr .printSample)
  | "help" => some (.inr .help)
  | "version" => some (.inr .version)
  | _ => none

/-- The option of a short name. -/
def ofShort? : Char → Option (Valued ⊕ Flag)
  | 'c' => some (.inl .config)
  | 'h' => some (.inr .help)
  | 'V' => some (.inr .version)
  | _ => none

/-- How far the arguments have been read. -/
structure Reading where
  /-- What they ask for, as far as it is settled. -/
  line : CommandLine
  /-- Options that have been settled. -/
  settled : List Valued
  /-- The last option and its value, if that has come. -/
  pending : Option (Valued × Option String)

/-- The number of seconds in a value: digits, after a plus sign if there is one, that fit a machine
word. -/
def seconds? (value : List Char) : Option Nat :=
  let digits := match value with
    | '+' :: rest => rest
    | cs => cs
  if digits.isEmpty || !digits.all Char.isDigit then none
  else
    let n := Decimal.digitsValue digits
    if n < twoTo 64 then some n else none

/-- The line with the value of an option. -/
def set (line : CommandLine) (value : String) : Valued → Except Refusal CommandLine
  | .config => if value.isEmpty then .error .invalidValue else .ok { line with config := some value }
  | .replay => if value.isEmpty then .error .invalidValue else .ok { line with replay := some value }
  | .logLevel => .ok { line with logLevel := some value }
  | .drainInterval =>
    match seconds? value.toList with
    | some n => .ok { line with drainInterval := n }
    | none => .error .valueValidation

namespace Reading

/-- Nothing has been read. -/
def start : Reading := ⟨{}, [], none⟩

/-- An option is given a value; no option is given two. -/
def give (r : Reading) (o : Valued) (value : String) : Except Refusal Reading :=
  if r.settled.contains o then .error .argumentConflict
  else do
    let line ← set r.line value o
    return { r with line, settled := o :: r.settled }

/-- The last option is settled. -/
def settle (r : Reading) : Except Refusal Reading :=
  match r.pending with
  | none => .ok r
  | some (_, none) => .error .invalidValue
  | some (o, some value) => { r with pending := none }.give o value

/-- An option without a value. -/
def raise (r : Reading) (f : Flag) : Except Refusal Reading := do
  let r ← r.settle
  match f with
  | .help => .error .displayHelp
  | .version => .error .displayVersion
  | .printSample =>
    if r.line.printsSample then .error .argumentConflict
    else return { r with line := { r.line with printsSample := true } }

/-- An option with a value, which may stand in the same argument. -/
def begin (r : Reading) (o : Valued) (value : Option String) : Except Refusal Reading := do
  let r ← r.settle
  match value with
  | some value => r.give o value
  | none => return { r with pending := some (o, none) }

/-- An argument behind two dashes: a name, and a value after an equals sign. -/
def long (r : Reading) (arg : List Char) : Except Refusal Reading :=
  let name := String.ofList (arg.takeWhile (· ≠ '='))
  let value := match arg.dropWhile (· ≠ '=') with
    | _ :: value => some (String.ofList value)
    | [] => none
  match ofLong? name with
  | none => .error .unknownArgument
  | some (.inl o) => r.begin o value
  | some (.inr f) => if value.isSome then .error .tooManyValues else r.raise f

/-- An argument behind one dash: a letter, and what is left as its value. -/
def short (r : Reading) (letter : Char) (rest : List Char) : Except Refusal Reading :=
  match ofShort? letter with
  | none => .error .unknownArgument
  | some (.inr f) => r.raise f
  | some (.inl o) =>
    match rest with
    | [] => r.begin o none
    | '=' :: value => r.begin o (some (String.ofList value))
    | value => r.begin o (some (String.ofList value))

/-- An argument without a dash is the value of the last option, if that still waits for one. -/
def bare (r : Reading) (arg : List Char) : Except Refusal Reading :=
  match r.pending with
  | some (o, none) => .ok { r with pending := some (o, some (String.ofList arg)) }
  | _ => .error .unknownArgument

/-- All arguments in order.  After two dashes alone no option and no value may follow. -/
def all : Reading → List (List Char) → Except Refusal Reading
  | r, [] => r.settle
  | r, ['-', '-'] :: rest => if rest.isEmpty then r.settle else .error .unknownArgument
  | r, ('-' :: '-' :: arg) :: rest => do (← r.long arg).all rest
  | r, ('-' :: letter :: arg) :: rest => do (← r.short letter arg).all rest
  | r, arg :: rest => do (← r.bare arg).all rest

end Reading

/-- What the arguments ask for. -/
def ofArguments (arguments : List String) : Except Refusal CommandLine :=
  (Reading.start.all (arguments.map String.toList)).map (·.line)

end CommandLine

end TrafficWatch
