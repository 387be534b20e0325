import Deadwood.Java.Grammar.Symbol

/-!
# Expressions and patterns of Java

Operators bind by level, the loosest at level zero. Assignments and lambdas are operands: what
follows the arrow or the assignment sign reaches as far as it can. Where a text could be a cast or
an operation on a value in parentheses, it is a cast; but after a plain name in parentheses a sign is
a binary operator.
-/

namespace Deadwood.Java.Grammar

open Rule

/-- A binary operator and how it is spelled. An operator that starts with `>` is made of adjacent
symbols. -/
def operator (text : String) : Rule Symbol :=
  if text.front == '>' then
    .glued (text.toList.map String.singleton) [">", "="]
  else .symbol text

/-- The operators of a level, loosest first. -/
def operatorsAt : Nat → List String
  | 0 => ["||"]
  | 1 => ["&&"]
  | 2 => ["|"]
  | 3 => ["^"]
  | 4 => ["&"]
  | 5 => ["==", "!="]
  | 6 => ["<", "<=", ">=", ">"]
  | 7 => ["<<", ">>>", ">>"]
  | 8 => ["+", "-"]
  | 9 => ["*", "/", "%"]
  | _ => []

/-- The level of the comparisons, to which `instanceof` belongs. -/
def comparisonLevel : Nat := 6

/-- The number of levels. -/
def levels : Nat := 10

/-- The operators of assignments. -/
def assignmentOperator : Rule Symbol :=
  .alt [symbols ["=", "+=", "-=", "*=", "/=", "&=", "|=", "^=", "%=", "<<="],
    .glued [">", ">", "="] [], .glued [">", ">", ">", "="] []]

/-- A conditional expression, or what binds tighter. -/
def expressionRule (lambda : Bool) : Rule Symbol :=
  .chain (.ref (.binary 0 lambda))
    [.of .ternaryExpression none
      [.symbol "?", anyExpression, .symbol ":", .ref (.expression lambda)]]

/-- The words that go on with an expression rather than begin one. In a case label, `when` begins the
guard. -/
def followingWords (lambda : Bool) : List String :=
  if lambda then ["instanceof"] else ["instanceof", "when"]

/-- What follows `instanceof`: a record pattern, or a type and perhaps a name for the value. -/
def instanceofSuffix (lambda : Bool) : Suffix Symbol :=
  .of .instanceofExpression none
    [.word "instanceof", opt (.word "final"),
     .alt
      [.ref .recordPattern,
       .seq [.role .right (.ref (.type .expression)),
        opt (.role .name (.name .identifier (followingWords lambda)))]]]

/-- Operations of a level, grouped to the left. -/
def binaryRule (level : Nat) (lambda : Bool) : Rule Symbol :=
  if level < levels then
    let operand := Rule.ref (.binary (level + 1) lambda)
    let operation := Suffix.of .binaryExpression none
      [.alt ((operatorsAt level).map operator), operand]
    .chain operand
      (if level = comparisonLevel then [instanceofSuffix lambda, operation] else [operation])
  else .ref (.unary lambda)

/-- A plain name in parentheses and a sign after it. -/
def signedValue : Rule Symbol :=
  .seq [parens expressionName, symbols ["+", "-"]]

/-- A cast to one type, or to several at once. -/
def castRule (lambda : Bool) : Rule Symbol :=
  let type : Rule Symbol := .ref (.type .expression)
  let operandAhead : Rule Symbol := .unless (words (followingWords lambda))
  let callable : Rule Symbol :=
    if lambda then .alt [.ref .lambdaExpression, .ref .primary] else .ref .primary
  .seq
    [.unless signedValue,
     .node .castExpression
      (.alt
        [.seq [parens type, operandAhead, .ref (.unary lambda)],
         .seq [parens (sepBy1 type (.symbol "&")), operandAhead, callable]])]

def unaryRule (lambda : Bool) : Rule Symbol :=
  .alt
    [form .updateExpression [symbols ["++", "--"], .ref (.unary lambda)],
     form .unaryExpression [symbols ["+", "-", "!", "~"], .ref (.unary lambda)],
     castRule lambda,
     .ref (.postfixed lambda)]

/-- Whether something of a kind can be assigned to. -/
def isAssignable (k : Kind) : Bool :=
  k == .identifier || k == .fieldAccess || k == .arrayAccess

/-- A primary expression, assigned to or updated. -/
def postfixedRule (lambda : Bool) : Rule Symbol :=
  .chain
    (.alt ((if lambda then [.ref .lambdaExpression] else [])
      ++ [.ref .switchExpression, .ref .primary]))
    [.mk .assignment none isAssignable (.seq [assignmentOperator, .ref (.expression lambda)]),
     .of .updateExpression none [symbols ["++", "--"]]]

def inferredParametersRule : Rule Symbol :=
  .node .inferredParameters (parens (commas1 expressionName))

def lambdaExpressionRule : Rule Symbol :=
  form .lambda
    [.role .parameters (.alt [expressionName, inferredParametersRule, .ref .formalParameters]),
     .symbol "->", .role .body (.alt [.ref .block, anyExpression])]

def parenthesizedRule : Rule Symbol :=
  .node .parenthesized (parens anyExpression)

def argumentListRule : Rule Symbol :=
  .node .argumentList (parens (commas anyExpression))

/-- A string literal or text block, with the expressions in it. -/
def stringLiteralRule : Rule Symbol :=
  form .stringLiteral
    [.lexeme .token .quote,
     .many (.alt
      [.lexeme .stringFragment .fragment,
       form .stringInterpolation [.symbol "\\\x7b", anyExpression, .symbol "\x7d"]]),
     .lexeme .token .quote]

def literalRule : Rule Symbol :=
  .alt
    [.lexeme .literal .number, .lexeme .literal .character,
     .alt (["true", "false", "null"].map (.leaf .literal)), .ref .stringLiteral]

def superLeaf : Rule Symbol :=
  .leaf .superWord "super"

/-- A name after a dot. -/
def memberName : Rule Symbol :=
  .name .identifier ["this", "super", "new"]

def optTypeArguments : Rule Symbol :=
  opt (.ref .typeArguments)

/-- The name of a called method and its arguments. -/
def namedCall : Rule Symbol :=
  .seq [optTypeArguments, .role .name memberName, .role .arguments (.ref .argumentList)]

/-- The name of a field after a dot. -/
def fieldName : Rule Symbol :=
  .role .field (.alt [.leaf .thisWord "this", memberName])

/-- What follows the left side of a method reference. -/
def referenceTail : Rule Symbol :=
  .seq [.symbol "::", optTypeArguments, .alt [.word "new", anyName]]

/-- Whether a type in front of `::` shows that it is a type and not a value: it has type arguments or
brackets, or ends in `super`. -/
def isPlainlyType (n : Node) : Bool :=
  match n.kind with
  | .scopedTypeIdentifier =>
    n.children.any fun c => c.kind == .genericType || c.text == "super"
  | .typeIdentifier => false
  | _ => true

/-- A new object, perhaps with a body of its own. -/
def newObject : Rule Symbol :=
  .seq
    [.word "new", .alt [.seq [annotationUses, .ref .typeArguments, annotationUses], annotationUses],
     .role .type (.ref (.simpleType .plain)), .role .arguments (.ref .argumentList),
     opt (.ref .classBody)]

/-- The forms that start with `super`. -/
def superRule : Rule Symbol :=
  .alt
    [form .methodInvocation [.role .object superLeaf, .symbol ".", namedCall],
     form .methodInvocation
      [.role .object superLeaf, .symbol ".", superLeaf, .symbol ".", namedCall],
     form .fieldAccess [.role .object superLeaf, .symbol ".", superLeaf, .symbol ".", fieldName],
     form .fieldAccess [.role .object superLeaf, .symbol ".", fieldName],
     form .methodReference [superLeaf, referenceTail]]

/-- A primary expression without suffixes. -/
def primaryBase : Rule Symbol :=
  .alt
    [literalRule,
     form .classLiteral [.ref (.unannotatedType .expression), .symbol ".", .word "class"],
     form .methodReference [.only isPlainlyType (.ref (.type .expression)), referenceTail],
     .leaf .thisWord "this",
     superRule,
     .ref .creation,
     form .methodInvocation [.role .name expressionName, .role .arguments (.ref .argumentList)],
     expressionName,
     .ref .parenthesized]

def primaryRule : Rule Symbol :=
  .chain primaryBase
    [.of .methodInvocation (some .object) [.symbol ".", namedCall],
     .of .methodInvocation (some .object) [.symbol ".", superLeaf, .symbol ".", namedCall],
     .of .fieldAccess (some .object) [.symbol ".", superLeaf, .symbol ".", fieldName],
     .of .fieldAccess (some .object) [.symbol ".", fieldName],
     .of .objectCreation none [.symbol ".", newObject],
     .of .templateExpression none [.symbol ".", .ref .stringLiteral],
     .of .arrayAccess none [brackets anyExpression],
     .of .methodReference none [referenceTail]]

def arrayInitializerRule : Rule Symbol :=
  .node .arrayInitializer (braces
    (.seq [commas (.alt [.ref .arrayInitializer, anyExpression]), opt (.symbol ",")]))

def dimensionsExpressionRule : Rule Symbol :=
  form .dimensionsExpression [annotationUses, brackets anyExpression]

/-- A new object or a new array. -/
def creationRule : Rule Symbol :=
  .alt
    [.node .objectCreation newObject,
     form .arrayCreation
      [.word "new", annotationUses, .role .type (.ref (.simpleType .plain)),
       .alt
        [.seq [many1 dimensionsExpressionRule, opt (.ref .dimensions)],
         .seq [.ref .dimensions, .ref .arrayInitializer]]]]

/-- The name of a value in a pattern. -/
def patternName : Rule Symbol :=
  .name .identifier ["instanceof", "when"]

def recordPatternRule : Rule Symbol :=
  let component := form .recordPatternComponent
    [.alt
      [.seq [.leaf .identifier "_", .ahead (symbols [",", ")"])],
       .seq [.ref (.unannotatedType .expression), patternName]]]
  form .recordPattern
    [.alt
      [.seq [.only (·.kind == .genericType) (.ref (.simpleType .expression)), .ahead (.symbol "(")],
       expressionName],
     .node .recordPatternBody (parens (commas (.alt [.ref .recordPattern, component])))]

def patternRule : Rule Symbol :=
  .alt
    [form .typePattern [.ref (.unannotatedType .expression), patternName],
     .ref .recordPattern]

def guardRule : Rule Symbol :=
  form .guardClause [.word "when", .ref (.expression false)]

/-- What can follow a case label. -/
def labelEnd : Rule Symbol :=
  symbols [":", "->"]

def switchLabelRule : Rule Symbol :=
  .node .switchLabel
    (.alt
      [.seq [.word "case", patternRule, opt guardRule, .ahead labelEnd],
       .seq [.word "case", commas1 (.ref (.expression false)), opt guardRule, .ahead labelEnd],
       .seq [.word "default", .ahead labelEnd]])

def expressionStatementRule : Rule Symbol :=
  form .expressionStatement [anyExpression, .symbol ";"]

def switchRuleRule : Rule Symbol :=
  form .switchRule
    [switchLabelRule, .symbol "->",
     .alt [.ref .block, .ref .throwStatement, expressionStatementRule]]

/-- Statements after labels with colons. A statement does not start where a label could. -/
def switchGroupRule : Rule Symbol :=
  form .switchGroup
    [many1 (.seq [switchLabelRule, .symbol ":"]),
     .many (.seq
      [.unless (.alt [.word "case", .seq [.word "default", labelEnd]]), .ref .statement])]

/-- The body of a switch: either all with arrows or all with colons. -/
def switchExpressionRule : Rule Symbol :=
  form .switchExpression
    [.word "switch", .ref .parenthesized,
     .node .switchBlock
      (.alt [braces (many1 switchRuleRule), braces (.many switchGroupRule)])]

end Deadwood.Java.Grammar
