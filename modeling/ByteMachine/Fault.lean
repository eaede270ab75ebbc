import ByteMachine.Statement.Token
import ByteMachine.Types.Ty

/-!
# What can go wrong

Every failure of the machine is a value that names its cause. `SyntaxFault` holds the failures
found while a statement is read, before anything runs; `Fault` holds them all. The texts shown
to the user are the functions `message`.

Key definitions: `SyntaxCause`, `SyntaxFault`, `Fault`, `TypeFault.message`,
`SyntaxFault.message`, `Fault.message`, `Fault.isSyntax`.
-/

namespace ByteMachine

/-- What is wrong at a place of a statement. -/
inductive SyntaxCause where
  | unexpected (found : Token)
  | expectedIdentifier (found : Token)
  | expectedType (found : Token)
  | expectedLength (found : Token)
  | expectedValue (found : Token)
  | arrayOfReferences
  | expectedInitializer (name : String)
  | openLength
  | lengthNotPositive
  | lengthMissing (name : String)
  | textForOtherArray
  | expectedBrace
  | openBrace
  | tooManyInitializers (name : String) (given count : Nat)
  | expectedTypeAfterNew
  | openNew
  | openDelete
  | expectedAfterDelete
  | openIndex
  | openParenthesis
  | typeAsValue (name : String)
  | callOfVariable (name : String)
  | openCall (name : String)
  | badType (cause : TypeFault)
deriving DecidableEq, Repr

/-- Why a statement cannot be read. -/
inductive SyntaxFault where
  | misread (column : Nat) (cause : SyntaxCause)
  | uninitializedReference (name : String)
  | badName (name : String)
deriving DecidableEq, Repr

/-- Why the machine refuses what it was asked to do. -/
inductive Fault where
  | misread (fault : SyntaxFault)
  | invalidIdentifier (name : String)
  | typeMismatch (expected found : String)
  | badType (cause : TypeFault)
  | unknownVariable (name : String)
  | unknownFunction (name : String)
  | duplicateVariable (name : String)
  /-- Bytes outside memory, or an address at which there is no variable. -/
  | invalidAddress (address length : Nat)
  | memoryExhausted (requested : Nat)
  | invalidMemorySize (size : Nat)
  | invalidWordSize (size : Nat)
  | notHeapAddress (address : Nat)
  | parameterCount (function : String) (expected found : Nat)
  | parameterType (function : String) (position : Nat) (expected found : String)
  | divisionByZero
  | unsupportedWidth (what : String) (width : Nat)
  | notLatin (c : Char)
  | invalidTag (tag : UInt8)
  | registeredTemporary (name : String)
  | noHistoryEntry (index : Nat)
  | leftOver (count : Nat)
  | missingOperand
  | missingArguments (function : String)
  | addressOfTemporary
  | assignmentToTemporary
  | referenceToTemporary (name : String)
  | textTooLong (length capacity : Nat)
  | blockSizeNotPositive (size : Int)
  | arrayLengthNotPositive (length : Int)
  | inputClosed
deriving DecidableEq, Repr

/-- The text of two types, or descriptions of types, that do not go together. -/
def mismatchText (expected found : String) : String :=
  "type mismatch: expected " ++ expected ++ ", found " ++ found

def exhaustedText (requested : Nat) : String :=
  "memory exhausted: no free slot for " ++ toString requested ++ " bytes"

def runtimeText (what : String) : String := "runtime error: " ++ what

/-- The text of why a type cannot be built. The size of an array that has none is told as the
largest there is. -/
def TypeFault.message : TypeFault → String
  | tooManyStars t =>
    mismatchText ("at most " ++ toString Ty.maxStars ++ " levels of indirection") (t ++ "*")
  | referenceToReference t => mismatchText "a non-reference type" t
  | compoundElement e => mismatchText "a scalar element type" e
  | unsizedElement => mismatchText "a sized element type" "any"
  | emptyArray => runtimeText "array length must be positive"
  | tooLarge => exhaustedText (Number.addressBound - 1)

def SyntaxCause.message : SyntaxCause → String
  | unexpected t => "unexpected " ++ t.describe
  | expectedIdentifier t => "expected an identifier, found " ++ t.describe
  | expectedType t => "expected a type, found " ++ t.describe
  | expectedLength t => "expected an array length, found " ++ t.describe
  | expectedValue t => "expected a value, found " ++ t.describe
  | arrayOfReferences => "arrays of references are not allowed"
  | expectedInitializer name => "expected '=' after declaration of '" ++ name ++ "'"
  | openLength => "unmatched '[' in array declaration"
  | lengthNotPositive => "array length must be a positive integer"
  | lengthMissing name => "array '" ++ name ++ "' needs a length or an initializer"
  | textForOtherArray => "only char arrays can be initialized from a string"
  | expectedBrace => "expected '\x7b' to start an array initializer"
  | openBrace => "unmatched '\x7b' in array initializer"
  | tooManyInitializers name given count =>
    "too many initializers for '" ++ name ++ "': " ++ toString given ++ " for " ++
      toString count ++ " elements"
  | expectedTypeAfterNew => "expected a type after 'new'"
  | openNew => "unmatched '[' after 'new'"
  | openDelete => "expected ']' after 'delete['"
  | expectedAfterDelete => "expected an expression after 'delete'"
  | openIndex => "unmatched '['"
  | openParenthesis => "unmatched '('"
  | typeAsValue name => "type '" ++ name ++ "' used as a value"
  | callOfVariable name => "'" ++ name ++ "' is a variable, not a function"
  | openCall name => "unmatched '(' in call to '" ++ name ++ "'"
  | badType cause => cause.message

def invalidNameText (name : String) : String := "invalid identifier '" ++ name ++ "'"

def SyntaxFault.message : SyntaxFault → String
  | misread column cause => "syntax error at column " ++ toString column ++ ": " ++ cause.message
  | uninitializedReference name =>
    "reference '" ++ name ++ "' must be initialized where it is declared"
  | badName name => invalidNameText name

namespace Fault

/-- The text of a failure. -/
def message : Fault → String
  | misread fault => fault.message
  | invalidIdentifier name => invalidNameText name
  | typeMismatch expected found => mismatchText expected found
  | badType cause => cause.message
  | unknownVariable name => "unknown variable '" ++ name ++ "'"
  | unknownFunction name => "unknown function '" ++ name ++ "'"
  | duplicateVariable name => "variable '" ++ name ++ "' is already declared"
  | invalidAddress address length =>
    "invalid memory address 0x" ++ Text.hex address ++ " (length " ++ toString length ++ ")"
  | memoryExhausted requested => exhaustedText requested
  | invalidMemorySize size =>
    "invalid memory size " ++ toString size ++ ": must be larger than 16 and a multiple of 16"
  | invalidWordSize size => "invalid word size " ++ toString size ++ ": must be 2, 4 or 8"
  | notHeapAddress address => "address 0x" ++ Text.hex address ++ " is not a heap block"
  | parameterCount function expected found =>
    "function '" ++ function ++ "' expects " ++ toString expected ++ " argument" ++
      (if expected = 1 then "" else "s") ++ ", got " ++ toString found
  | parameterType function position expected found =>
    "argument " ++ toString position ++ " of '" ++ function ++ "' expects " ++ expected ++
      ", found " ++ found
  | divisionByZero => "division by zero"
  | unsupportedWidth what width =>
    runtimeText ("unsupported " ++ what ++ " width " ++ toString width)
  | notLatin c =>
    runtimeText ("character '" ++ String.singleton c ++ "' does not fit in a char")
  | invalidTag tag =>
    runtimeText ("byte 0x" ++ Text.hexPadded 2 tag.toNat ++ " is not a valid type tag")
  | registeredTemporary name => runtimeText ("temporary " ++ name ++ " cannot be registered")
  | noHistoryEntry index => runtimeText ("no history entry " ++ toString index)
  | leftOver count => runtimeText ("statement left " ++ toString count ++ " values behind")
  | missingOperand => runtimeText "missing operand"
  | missingArguments function => runtimeText ("missing arguments for '" ++ function ++ "'")
  | addressOfTemporary => runtimeText "cannot take the address of a temporary value"
  | assignmentToTemporary => runtimeText "cannot assign to a temporary value"
  | referenceToTemporary name =>
    runtimeText ("cannot bind reference '" ++ name ++ "' to a temporary value")
  | textTooLong length capacity =>
    runtimeText ("string of " ++ toString length ++ " characters does not fit in char[" ++
      toString capacity ++ "]")
  | blockSizeNotPositive size => runtimeText ("malloc size must be positive, got " ++ toString size)
  | arrayLengthNotPositive length =>
    runtimeText ("array length must be positive, got " ++ toString length)
  | inputClosed => runtimeText "input is closed"

/-- Whether the failure was found before anything ran. -/
def isSyntax : Fault → Bool
  | misread _ => true
  | _ => false

end Fault

end ByteMachine
