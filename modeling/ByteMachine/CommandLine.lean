import ByteMachine.Config
import ByteMachine.Text.Hex

/-!
# Command lines

The arguments are settings of the machine, switches and at most one program. The value of a
setting is the next argument, or stands behind an equals sign. Each setting and each switch may
be given once, and two hyphens end them. No path is empty.

Key definitions: `CommandLine`, `Setting`, `Switch`, `CommandLine.parse`, `CommandLine.config`.
-/

namespace ByteMachine

/-- What the arguments ask for. -/
structure CommandLine where
  program : Option String := none
  word : Option Nat := none
  order : Option ByteOrder := none
  memorySize : Option Nat := none
  seed : Option Nat := none
  log : Option String := none
  scattered : Bool := false
  headless : Bool := false
deriving DecidableEq, Repr, Inhabited

/-- An argument that takes a value. -/
inductive Setting where
  | word
  | order
  | memory
  | seed
  | log
deriving DecidableEq, Repr

/-- An argument that takes none. -/
inductive Switch where
  | scattered
  | headless
deriving DecidableEq, Repr

def Setting.ofName? : String → Option Setting
  | "word-size" => some .word
  | "endian" => some .order
  | "memory" => some .memory
  | "seed" => some .seed
  | "log" => some .log
  | _ => none

def Switch.ofName? : String → Option Switch
  | "scattered" => some .scattered
  | "headless" => some .headless
  | _ => none

/-- An argument by its form. -/
inductive Argument where
  | plain (text : String)
  | switch (s : Switch)
  | setting (s : Setting) (value : Option String)
  | separator
  | unknown
deriving DecidableEq, Repr

/-- A name, with the value behind the first equals sign if there is one. -/
def splitValue (name : List Char) : String × Option String :=
  match name.dropWhile (· ≠ '=') with
  | [] => (String.ofList name, none)
  | _ :: value => (String.ofList (name.takeWhile (· ≠ '=')), some (String.ofList value))

/-- An argument that begins with two hyphens, by what stands behind them. -/
def Argument.ofName (name : List Char) : Argument :=
  let (name, value) := splitValue name
  match Setting.ofName? name, Switch.ofName? name, value with
  | some s, _, value => .setting s value
  | none, some s, none => .switch s
  | _, _, _ => .unknown

/-- What kind of argument a text is. A hyphen alone is a plain one. -/
def Argument.ofText (text : String) : Argument :=
  match text.toList with
  | ['-', '-'] => .separator
  | '-' :: '-' :: name => .ofName name
  | '-' :: _ :: _ => .unknown
  | _ => .plain text

/-- The number that a text writes in base ten, with a plus sign or without, if it is below
`Number.addressBound`. -/
def readCount? (text : String) : Option Nat :=
  let digits := match text.toList with
    | '+' :: digits => digits
    | digits => digits
  if digits.isEmpty || !digits.all Char.isDigit then none
  else
    let n := Text.digitsValue 10 digits
    if n < Number.addressBound then some n else none

def readOrder? : String → Option ByteOrder
  | "little" => some .little
  | "big" => some .big
  | _ => none

namespace CommandLine

/-- Gives a setting its value, unless it has one. -/
def set (line : CommandLine) (value : String) : Setting → Option CommandLine
  | .word =>
    if line.word.isSome then none
    else (readCount? value).map fun n => { line with word := some n }
  | .order =>
    if line.order.isSome then none
    else (readOrder? value).map fun o => { line with order := some o }
  | .memory =>
    if line.memorySize.isSome then none
    else (readCount? value).map fun n => { line with memorySize := some n }
  | .seed =>
    if line.seed.isSome then none
    else (readCount? value).map fun n => { line with seed := some n }
  | .log =>
    if line.log.isSome || value.isEmpty then none else some { line with log := some value }

/-- Throws a switch, unless it is thrown. -/
def throwSwitch (line : CommandLine) : Switch → Option CommandLine
  | .scattered => if line.scattered then none else some { line with scattered := true }
  | .headless => if line.headless then none else some { line with headless := true }

/-- Takes the program, unless there is one. -/
def takeProgram (line : CommandLine) (path : String) : Option CommandLine :=
  if line.program.isSome || path.isEmpty then none else some { line with program := some path }

/-- Adds arguments to what was asked for before. -/
def extend (line : CommandLine) : List String → Option CommandLine
  | [] => some line
  | text :: rest =>
    match Argument.ofText text with
    | .plain path => (line.takeProgram path).bind fun line => line.extend rest
    | .switch s => (line.throwSwitch s).bind fun line => line.extend rest
    | .setting s (some value) => (line.set value s).bind fun line => line.extend rest
    | .setting s none =>
      match rest with
      | value :: rest =>
        match Argument.ofText value with
        | .plain value => (line.set value s).bind fun line => line.extend rest
        | _ => none
      | [] => none
    | .separator => rest.foldlM takeProgram line
    | .unknown => none

/-- What the arguments ask for, unless they break a rule. -/
def parse (arguments : List String) : Option CommandLine := extend {} arguments

/-- The settings of the machine that is asked for. -/
def config (line : CommandLine) : Config :=
  let usual : Config := {}
  { usual with
    word := line.word.getD usual.word
    order := line.order.getD usual.order
    memorySize := line.memorySize.getD usual.memorySize
    placement := if line.scattered then .scattered else usual.placement
    seed := (line.seed.map UInt64.ofNat).getD usual.seed }

end CommandLine

end ByteMachine
