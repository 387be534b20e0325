import Deadwood.Java.Token.Lexer
import Deadwood.Java.Grammar.Declarations

/-!
# The Java grammar, and reading a source file by it

A source file is a list of statements and methods. `Node.parse?` gives its syntax tree, or nothing
if any part of the text does not fit the grammar.
-/

namespace Deadwood.Java

namespace Grammar

/-- The rule of each symbol. -/
def rule : Symbol → Rule Symbol
  | .qualifiedName => qualifiedNameRule
  | .type place => typeRule place
  | .unannotatedType place => unannotatedTypeRule place
  | .simpleType place => simpleTypeRule place
  | .typeArguments => typeArgumentsRule
  | .typeParameters => typeParametersRule
  | .dimensions => dimensionsRule
  | .annotationUse => annotationUseRule
  | .elementValue => elementValueRule
  | .modifiers => modifiersRule
  | .expression lambda => expressionRule lambda
  | .binary level lambda => binaryRule level lambda
  | .unary lambda => unaryRule lambda
  | .postfixed lambda => postfixedRule lambda
  | .primary => primaryRule
  | .lambdaExpression => lambdaExpressionRule
  | .argumentList => argumentListRule
  | .parenthesized => parenthesizedRule
  | .stringLiteral => stringLiteralRule
  | .arrayInitializer => arrayInitializerRule
  | .creation => creationRule
  | .switchExpression => switchExpressionRule
  | .recordPattern => recordPatternRule
  | .statement => statementRule
  | .block => blockRule
  | .throwStatement => throwRule
  | .localVariable => localVariableRule
  | .catchClause => catchRule
  | .finallyClause => finallyRule
  | .classDeclaration => classRule
  | .interfaceDeclaration => interfaceRule
  | .enumDeclaration => enumRule
  | .recordDeclaration => recordRule
  | .annotationTypeDeclaration => annotationTypeRule
  | .classBody => classBodyRule
  | .member => memberRule
  | .methodDeclaration place => methodRule place
  | .formalParameters => formalParametersRule

/-- A whole source file. -/
def program : Rule Symbol :=
  .node .program (.many (.alt [.ref .statement, .ref (.methodDeclaration .statement)]))

/-- How deep rules may be nested for each token of a text. No rule of the grammar nests this deep
without reading a token. -/
def depthPerToken : Nat := 256

end Grammar

/-- The syntax tree of a source text, if the text has one. -/
def Node.parse? (source : String) : Option Node :=
  match Token.scan source with
  | none => none
  | some tokens =>
    let fuel := Grammar.depthPerToken * (tokens.length + 1)
    match Grammar.read Grammar.rule fuel Grammar.program tokens with
    | .ok (p :: _, []) => some p.node
    | _ => none

end Deadwood.Java
