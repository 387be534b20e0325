import Deadwood.Java.Grammar.Rule

/-!
# Symbols and words of the Java grammar

A word is a keyword only where the grammar could use it as one; elsewhere it is a name. So there is
no single list of keywords: each list here gives the words that a place keeps for itself.
-/

namespace Deadwood.Java.Grammar

/-- Where a type is written, which decides the words that cannot name it. -/
inductive Place where
  /-- Where only a type can stand. -/
  | plain
  /-- At the start of a member of a class or an interface. -/
  | member
  /-- At the start of a statement. -/
  | statement
  /-- At the start of an expression. -/
  | expression
  deriving DecidableEq, Repr

/-- The symbols of the grammar that are referred to by others. Where a `Bool` is given, it tells
whether a lambda may stand there without parentheses. -/
inductive Symbol where
  -- names and types
  | qualifiedName
  | type (place : Place)
  | unannotatedType (place : Place)
  | simpleType (place : Place)
  | typeArguments
  | typeParameters
  | dimensions
  -- annotations
  | annotationUse
  | elementValue
  | modifiers
  -- expressions
  | expression (lambda : Bool)
  | binary (level : Nat) (lambda : Bool)
  | unary (lambda : Bool)
  | postfixed (lambda : Bool)
  | primary
  | lambdaExpression
  | argumentList
  | parenthesized
  | stringLiteral
  | arrayInitializer
  | creation
  | switchExpression
  | recordPattern
  -- statements
  | statement
  | block
  | throwStatement
  | localVariable
  | catchClause
  | finallyClause
  -- declarations
  | classDeclaration
  | interfaceDeclaration
  | enumDeclaration
  | recordDeclaration
  | annotationTypeDeclaration
  | classBody
  | member
  | methodDeclaration (place : Place)
  | formalParameters
  deriving DecidableEq, Repr

/-- The names of the types that are not declared anywhere, with `void`. -/
def primitiveWords : List String :=
  ["byte", "short", "int", "long", "char", "float", "double", "boolean", "void"]

def modifierWords : List String :=
  ["public", "protected", "private", "abstract", "static", "final", "strictfp", "default",
    "synchronized", "native", "transient", "volatile"]

/-- Words that begin an expression and are no names in it. -/
def expressionWords : List String :=
  ["this", "super", "new", "true", "false", "null", "switch"] ++ primitiveWords

/-- Words that are keywords in some places and names in expressions, but never name a type where an
expression could stand. -/
def contextualWords : List String :=
  ["open", "module", "record", "with", "yield", "sealed"]

/-- Words that begin a statement that is not an expression. -/
def statementWords : List String :=
  ["assert", "break", "continue", "do", "for", "if", "return", "synchronized", "throw", "try",
    "while", "class", "interface", "enum", "import", "package"] ++ modifierWords

/-- Words that begin a member of a class. -/
def memberWords : List String :=
  ["class", "interface", "enum", "record", "sealed"] ++ modifierWords

/-- The words that cannot name a type. -/
def Place.reserved : Place → List String
  | .plain => primitiveWords
  | .member => memberWords ++ primitiveWords
  | .statement => statementWords ++ expressionWords ++ contextualWords
  | .expression => expressionWords ++ contextualWords

/-- A name where any word will do. -/
def anyName : Rule Symbol :=
  .name .identifier []

/-- The name of a declared variable. -/
def variableName : Rule Symbol :=
  .name .identifier ["this", "instanceof"]

/-- A name in an expression. -/
def expressionName : Rule Symbol :=
  .name .identifier expressionWords

/-- An expression where a lambda may stand. -/
def anyExpression : Rule Symbol :=
  .ref (.expression true)

/-- The name of a declaration, in its role. -/
def declaredName : Rule Symbol :=
  .role .name anyName

/-- The name of a variable in its role, and the brackets that may follow it. -/
def declaratorId : Rule Symbol :=
  .seq [.role .name variableName, (Rule.ref .dimensions).opt]

/-- The type of a declared variable or method, in its role. -/
def declaredType (place : Place) : Rule Symbol :=
  .role .type (.ref (.unannotatedType place))

def optModifiers : Rule Symbol :=
  (Rule.ref .modifiers).opt

def annotationUses : Rule Symbol :=
  .many (.ref .annotationUse)

end Deadwood.Java.Grammar
