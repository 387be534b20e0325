/-!
# Syntax trees of Java

A tree is a node with a kind, the text it covers, its lines and its children. Tokens without a name
of their own are nodes of kind `token`; white space and comments are no nodes, but they remain in
the texts of the nodes around them. Where a child's part in its parent matters, the child carries a
role.
-/

namespace Deadwood.Java

/-- What a node is. -/
inductive Kind where
  | program
  /-- A keyword, an operator or a bracket. -/
  | token
  /-- A stretch of text that fits no rule. -/
  | error
  -- names
  | identifier
  | scopedIdentifier
  | asterisk
  -- types
  | typeIdentifier
  | scopedTypeIdentifier
  | genericType
  | arrayType
  | annotatedType
  | primitiveType
  | typeArguments
  | wildcard
  | dimensions
  | typeParameters
  | typeParameter
  | typeBound
  | typeList
  -- expressions
  | literal
  | stringLiteral
  | stringFragment
  | stringInterpolation
  | thisWord
  | superWord
  | parenthesized
  | classLiteral
  | fieldAccess
  | arrayAccess
  | methodInvocation
  | argumentList
  | methodReference
  | objectCreation
  | arrayCreation
  | dimensionsExpression
  | arrayInitializer
  | templateExpression
  | castExpression
  | unaryExpression
  | updateExpression
  | binaryExpression
  | instanceofExpression
  | ternaryExpression
  | assignment
  | lambda
  | inferredParameters
  | switchExpression
  | switchBlock
  | switchGroup
  | switchRule
  | switchLabel
  | typePattern
  | recordPattern
  | recordPatternBody
  | recordPatternComponent
  | guardClause
  -- statements
  | block
  | expressionStatement
  | labeledStatement
  | ifStatement
  | whileStatement
  | forStatement
  | enhancedFor
  | doStatement
  | assertStatement
  | breakStatement
  | continueStatement
  | returnStatement
  | yieldStatement
  | synchronizedStatement
  | throwStatement
  | tryStatement
  | tryWithResources
  | resourceSpecification
  | resource
  | catchClause
  | catchParameter
  | catchType
  | finallyClause
  | localVariable
  | variableDeclarator
  -- annotations and modifiers
  | modifiers
  | plainAnnotated
  | argumentAnnotated
  | annotationArguments
  | elementValuePair
  | elementValueArray
  -- declarations
  | packageDeclaration
  | importDeclaration
  | moduleDeclaration
  | moduleBody
  | moduleDirective
  | classDeclaration
  | interfaceDeclaration
  | enumDeclaration
  | recordDeclaration
  | annotationTypeDeclaration
  | superclass
  | superInterfaces
  | extendsInterfaces
  | permits
  | classBody
  | interfaceBody
  | enumBody
  | enumBodyDeclarations
  | enumConstant
  | annotationTypeBody
  | annotationElement
  | fieldDeclaration
  | constantDeclaration
  | methodDeclaration
  | constructorDeclaration
  | compactConstructor
  | constructorBody
  | constructorCall
  | staticInitializer
  | formalParameters
  | formalParameter
  | spreadParameter
  | receiverParameter
  | throwsClause
  deriving DecidableEq, Repr

/-- The part a node plays in its parent. -/
inductive Role where
  | name
  | type
  | body
  | parameters
  | superclass
  | interfaces
  | object
  | arguments
  | field
  | declarator
  | right
  deriving DecidableEq, Repr

/-- A node of a syntax tree. Lines are counted from one. -/
inductive Node where
  | mk (kind : Kind) (role : Option Role) (text : String) (line endLine : Nat)
    (children : List Node)
  deriving Repr

namespace Node

def kind : Node → Kind
  | .mk k _ _ _ _ _ => k

def role : Node → Option Role
  | .mk _ r _ _ _ _ => r

/-- The source text a node covers. -/
def text : Node → String
  | .mk _ _ t _ _ _ => t

/-- The line on which a node starts. -/
def line : Node → Nat
  | .mk _ _ _ l _ _ => l

/-- The line on which a node ends. -/
def endLine : Node → Nat
  | .mk _ _ _ _ l _ => l

def children : Node → List Node
  | .mk _ _ _ _ _ cs => cs

/-- The same node in another role. -/
def withRole (r : Role) : Node → Node
  | .mk k _ t l e cs => .mk k (some r) t l e cs

/-- Whether a node is more than a bare token. -/
def isNamed (n : Node) : Bool :=
  n.kind != .token

/-- The children that are more than bare tokens. -/
def named (n : Node) : List Node :=
  n.children.filter (·.isNamed)

/-- The first child in a role. -/
def child? (n : Node) (r : Role) : Option Node :=
  n.children.find? fun c => c.role == some r

/-- All children in a role. -/
def childrenIn (n : Node) (r : Role) : List Node :=
  n.children.filter fun c => c.role == some r

/-- The first child of a kind. -/
def childOf? (n : Node) (k : Kind) : Option Node :=
  n.children.find? fun c => c.kind == k

/-- Whether some child is the bare token `text`. -/
def hasToken (n : Node) (text : String) : Bool :=
  n.children.any fun c => c.kind == .token && c.text == text

end Node

end Deadwood.Java
