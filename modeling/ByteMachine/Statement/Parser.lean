import ByteMachine.Fault
import ByteMachine.Statement.Tree

/-!
# Reading statements

A recursive descent over the tokens of one statement:

    statement   := declaration | term '=' expression | expression
    declaration := type ['&'] name ['[' [count] ']'] ['=' initializer]
    type        := keyword '*'*
    initializer := expression | '{' expression (',' expression)* '}' | text
    expression  := term (('+' | '-' | '*' | '/' | '%') term)*
    term        := '-' term | '+' term | '*'+ term | '&' term
                 | 'new' type ['[' expression ']'] | 'delete' ['[' ']'] term | indexed
    indexed     := primary ('[' expression ']')*
    primary     := literal | 'null' | '(' expression ')' | name ['(' arguments ')']

An argument of a call may be a type. Reading changes nothing on the machine but the catalog of
types: the types that are built on the way are met, also where the statement then fails. The one
thing asked of the machine is which names are variables, since a variable cannot be called.

Key definitions: `Scope`, `Reading`, `Parser`, `Parser.term`, `Parser.expression`,
`Parser.declaration`, `Parser.statement`, `Statement.parse`.
-/

namespace ByteMachine

/-- What reading a statement depends on. -/
structure Scope where
  word : Nat
  isVariable : String → Bool

/-- The tokens still to be read, the last of which is `stop`, and the types met so far. -/
structure Reading where
  ahead : List Lexeme
  met : List Ty
deriving DecidableEq, Repr, Inhabited

/-- A reader of a part of a statement. -/
abbrev Parser := ExceptT SyntaxFault (StateM Reading)

namespace Parser

/-- The next token. -/
def peek : Parser Token := do
  match (← get).ahead with
  | l :: _ => return l.token
  | [] => return .stop

/-- The column of the next token. -/
def column : Parser Nat := do
  match (← get).ahead with
  | l :: _ => return l.column
  | [] => return 1

/-- How many tokens are still to be read. -/
def remaining : Parser Nat := do return (← get).ahead.length

/-- Goes on behind the next token; nothing is behind `stop`. -/
def advance : Parser Unit :=
  modify fun r =>
    match r.ahead with
    | ⟨.stop, _⟩ :: _ => r
    | _ :: rest => { r with ahead := rest }
    | [] => r

/-- Reads the next token. -/
def next : Parser Token := do
  let t ← peek
  advance
  return t

/-- Fails at the next token. -/
def fail {α : Type} (cause : SyntaxCause) : Parser α := do
  throw (.misread (← column) cause)

/-- Reads the character `c` if it comes next. -/
def accept (c : Char) : Parser Bool := do
  if (← peek) = .special c then
    advance
    return true
  else return false

/-- Reads the character `c`, which has to come next. -/
def expect (c : Char) (cause : SyntaxCause) : Parser Unit := do
  if (← accept c) then return () else fail cause

def atEnd : Parser Bool := do return (← peek) = .stop

/-- Notes that a type was met. -/
def meet (t : Ty) : Parser Unit := modify fun r => { r with met := r.met ++ [t] }

/-- Meets a type that was built, or fails with the reason why it could not be. -/
def built (t : Except TypeFault Ty) : Parser Ty := do
  match t with
  | .ok t => meet t; return t
  | .error cause => fail (.badType cause)

/-- Whether a type comes next that is not called as a function. -/
def atType : Parser Bool := do
  match (← get).ahead with
  | ⟨.identifier name, _⟩ :: rest =>
    return Ty.isKeyword name && (rest.head?.map Lexeme.token) != some (.special '(')
  | _ => return false

/-- Reads the stars behind a type. -/
def stars : Nat → Ty → Parser Ty
  | 0, t => return t
  | fuel + 1, t => do
    if (← accept '*') then stars fuel (← built t.pointerTo) else return t

/-- Reads a type. -/
def type : Parser Ty := do
  match ← next with
  | .identifier name =>
    match Ty.ofKeyword? name with
    | some t => stars (← remaining) t
    | none => fail (.expectedType (.identifier name))
  | found => fail (.expectedType found)

/-- Reads the name of a new variable. -/
def newName : Parser Identifier := do
  match ← next with
  | .identifier name =>
    if Ty.isKeyword name || Identifier.reserved.contains name then throw (.badName name)
    else
      match Identifier.ofName? name with
      | some id => return id
      | none => throw (.badName name)
  | found => fail (.expectedIdentifier found)

/-- Reads operators and terms behind the expression `left`. -/
def operations (term : Parser Expr) : Nat → Expr → Parser Expr
  | 0, left => return left
  | fuel + 1, left => do
    match ← peek with
    | .special c =>
      match Operator.ofSymbol? c with
      | some op =>
        advance
        let right ← term
        operations term fuel (.binary op left right)
      | none => return left
    | _ => return left

/-- Reads operators and terms behind the expression `left`, as many as there are. -/
def restOfExpression (term : Parser Expr) (left : Expr) : Parser Expr := do
  operations term (← remaining) left

/-- Reads an expression, given how to read a term. -/
def expressionOf (term : Parser Expr) : Parser Expr := do
  let left ← term
  restOfExpression term left

/-- Reads an argument of a call: a type or an expression. -/
def argument (term : Parser Expr) : Parser Expr := do
  if (← atType) then return .typeName (← type) else expressionOf term

/-- Reads the arguments of a call, at least one, up to the closing parenthesis. -/
def arguments (term : Parser Expr) (function : String) : Nat → Parser (List Expr)
  | 0 => fail (.openCall function)
  | fuel + 1 => do
    let first ← argument term
    if (← accept ',') then return first :: (← arguments term function fuel)
    else
      expect ')' (.openCall function)
      return [first]

/-- Reads a call behind its opening parenthesis. -/
def call (scope : Scope) (term : Parser Expr) (function : String) : Parser Expr := do
  if !Ty.isKeyword function && scope.isVariable function then fail (.callOfVariable function)
  else if (← accept ')') then return .call function []
  else return .call function (← arguments term function (← remaining))

/-- Reads a primary expression. -/
def primary (scope : Scope) (term : Parser Expr) : Parser Expr := do
  match ← next with
  | .integer n | .hexadecimal n => return .literal (.integer n)
  | .real x => return .literal (.float x)
  | .char b => return .literal (.char b)
  | .text s => return .literal (.text s)
  | .special c =>
    if c = '(' then
      let e ← expressionOf term
      expect ')' .openParenthesis
      return e
    else fail (.expectedValue (.special c))
  | .identifier name =>
    if name = "null" || name = "NULL" then
      meet Ty.anyPointer
      return .null
    else if (← accept '(') then call scope term name
    else if Ty.isKeyword name then fail (.typeAsValue name)
    else
      match Identifier.ofName? name with
      | some id => return .name id
      | none => throw (.badName name)
  | found => fail (.expectedValue found)

/-- Reads indices in brackets behind the expression `base`. -/
def indices (term : Parser Expr) : Nat → Expr → Parser Expr
  | 0, base => return base
  | fuel + 1, base => do
    if (← accept '[') then
      let position ← expressionOf term
      expect ']' .openIndex
      indices term fuel (.index base position)
    else return base

/-- Reads a primary expression and the indices behind it. -/
def indexed (scope : Scope) (term : Parser Expr) : Parser Expr := do
  let base ← primary scope term
  indices term (← remaining) base

/-- Reads what comes behind `new`. -/
def newTerm (term : Parser Expr) : Parser Expr := do
  if !(← atType) then fail .expectedTypeAfterNew
  else
    let t ← type
    if (← accept '[') then
      let count ← expressionOf term
      expect ']' .openNew
      return .newArray t count
    else return .newObject t

/-- Reads what comes behind `delete`. -/
def deleteTerm (term : Parser Expr) : Parser Expr := do
  if (← accept '[') then expect ']' .openDelete
  if (← atEnd) then fail .expectedAfterDelete
  else return .delete (← term)

/-- Reads a run of stars and counts them. -/
def starRun : Nat → Parser Nat
  | 0 => return 0
  | fuel + 1 => do
    if (← accept '*') then return (← starRun fuel) + 1 else return 0

/-- Reads a term. Each term inside of it comes behind a token of its own, so the number of tokens
bounds the depth. -/
def term (scope : Scope) : Nat → Parser Expr
  | 0 => fail (.expectedValue .stop)
  | fuel + 1 => do
    match ← peek with
    | .special c =>
      if c = '-' then
        advance
        return .negate (← term scope fuel)
      else if c = '+' then
        advance
        term scope fuel
      else if c = '*' then
        let levels ← starRun (← remaining)
        return .dereference levels (← term scope fuel)
      else if c = '&' then
        advance
        return .addressOf (← term scope fuel)
      else indexed scope (term scope fuel)
    | .identifier word =>
      if word = "new" then
        advance
        newTerm (term scope fuel)
      else if word = "delete" then
        advance
        deleteTerm (term scope fuel)
      else indexed scope (term scope fuel)
    | _ => indexed scope (term scope fuel)

/-- Reads a term, however deep. -/
def fullTerm (scope : Scope) : Parser Expr := do term scope ((← remaining) + 1)

/-- Reads an expression. -/
def expression (scope : Scope) : Parser Expr := expressionOf (fullTerm scope)

/-- Reads the elements of an initializer list, at least one, up to the closing brace. -/
def elements (scope : Scope) : Nat → Parser (List Expr)
  | 0 => fail .openBrace
  | fuel + 1 => do
    let first ← expression scope
    if (← accept ',') then return first :: (← elements scope fuel)
    else
      expect '\x7d' .openBrace
      return [first]

/-- Reads the length of an array behind the opening bracket, with the closing one; there may be
none. -/
def arrayLength : Parser (Option Nat) := do
  match ← next with
  | .special c => if c = ']' then return none else fail (.expectedLength (.special c))
  | .integer n | .hexadecimal n =>
    expect ']' .openLength
    if 0 < n && n < Number.addressBound then return some n else fail .lengthNotPositive
  | found => fail (.expectedLength found)

/-- Reads the declaration of an array behind the opening bracket. -/
def arrayDeclaration (scope : Scope) (element : Ty) (id : Identifier) : Parser Statement := do
  let count ← arrayLength
  if !(← accept '=') then
    match count with
    | none => fail (.lengthMissing id.text)
    | some count =>
      if !(← atEnd) then fail (.expectedInitializer id.text)
      else return .arrayDeclaration (← built (Ty.arrayOf scope.word element count)) id
  else
    match ← peek with
    | .text text =>
      if element.scalar? != some .char then fail .textForOtherArray
      else
        advance
        let t ← built (Ty.arrayOf scope.word element (count.getD (text.length + 1)))
        return .textDeclaration t id text
    | _ =>
      expect '\x7b' .expectedBrace
      let es ← elements scope (← remaining)
      let count := count.getD es.length
      if count < es.length then fail (.tooManyInitializers id.text es.length count)
      else return .listDeclaration (← built (Ty.arrayOf scope.word element count)) id es

/-- Reads a declaration. -/
def declaration (scope : Scope) : Parser Statement := do
  let base ← type
  let isReference ← accept '&'
  let id ← newName
  if (← accept '[') then
    if isReference then fail .arrayOfReferences else arrayDeclaration scope base id
  else if isReference then
    if (← accept '=') then
      let source ← expression scope
      return .referenceDeclaration (← built base.referenceTo) id source
    else if (← atEnd) then throw (.uninitializedReference id.text)
    else fail (.expectedInitializer id.text)
  else if (← accept '=') then
    return .scalarDeclaration base id (some (← expression scope))
  else if (← atEnd) then return .scalarDeclaration base id none
  else fail (.expectedInitializer id.text)

/-- Reads an assignment or an expression. Both start with a term; only what follows it tells
which one it is. -/
def assignmentOrExpression (scope : Scope) : Parser Statement := do
  let first ← fullTerm scope
  if (← accept '=') then return .assignment first (← expression scope)
  else return .expression (← restOfExpression (fullTerm scope) first)

/-- Reads a whole statement. A blank one is none. -/
def statement (scope : Scope) : Parser (Option Statement) := do
  if (← atEnd) then return none
  else
    let s ← if (← atType) then declaration scope else assignmentOrExpression scope
    if (← atEnd) then return some s else fail (.unexpected (← peek))

end Parser

/-- Reads a line as a statement, unless it is blank, and tells the types that were met, also if
the line cannot be read. -/
def Statement.parse (scope : Scope) (line : String) :
    Except SyntaxFault (Option Statement) × List Ty :=
  let (result, reading) := (Parser.statement scope).run.run ⟨lexemes line, []⟩
  (result, reading.met)

end ByteMachine
