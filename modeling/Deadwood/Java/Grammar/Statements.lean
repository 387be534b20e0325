import Deadwood.Java.Grammar.Expressions

/-!
# Statements of Java

A text that could be the declaration of a variable is one. Declarations of packages, imports,
modules and types are statements too, so a file is a list of statements.
-/

namespace Deadwood.Java.Grammar

open Rule

def blockRule : Rule Symbol :=
  .node .block (braces (.many (.ref .statement)))

def variableDeclarator : Rule Symbol :=
  form .variableDeclarator
    [declaratorId, opt (.seq [.symbol "=", .alt [.ref .arrayInitializer, anyExpression]])]

/-- A type and the variables declared with it. -/
def declarators (place : Place) : Rule Symbol :=
  .seq
    [optModifiers, declaredType place, commas1 (.role .declarator variableDeclarator), .symbol ";"]

def localVariableRule : Rule Symbol :=
  .node .localVariable (declarators .statement)

def ifRule : Rule Symbol :=
  form .ifStatement
    [.word "if", .ref .parenthesized, .ref .statement,
     opt (.seq [.word "else", .ref .statement])]

def whileRule : Rule Symbol :=
  form .whileStatement [.word "while", .ref .parenthesized, .ref .statement]

def enhancedForRule : Rule Symbol :=
  form .enhancedFor
    [.word "for", .symbol "(", optModifiers, declaredType .statement, declaratorId, .symbol ":",
     anyExpression, .symbol ")", .ref .statement]

def forRule : Rule Symbol :=
  form .forStatement
    [.word "for", .symbol "(",
     .alt [.ref .localVariable, .seq [commas anyExpression, .symbol ";"]],
     opt anyExpression, .symbol ";", commas anyExpression, .symbol ")", .ref .statement]

def doRule : Rule Symbol :=
  form .doStatement
    [.word "do", .ref .statement, .word "while", .ref .parenthesized, .symbol ";"]

def assertRule : Rule Symbol :=
  form .assertStatement
    [.word "assert", anyExpression, opt (.seq [.symbol ":", anyExpression]), .symbol ";"]

def breakRule : Rule Symbol :=
  form .breakStatement [.word "break", opt anyName, .symbol ";"]

def continueRule : Rule Symbol :=
  form .continueStatement [.word "continue", opt anyName, .symbol ";"]

def returnRule : Rule Symbol :=
  form .returnStatement [.word "return", opt anyExpression, .symbol ";"]

def throwRule : Rule Symbol :=
  form .throwStatement [.word "throw", anyExpression, .symbol ";"]

/-- The word `yield` followed by something that only an expression starts with. -/
def yieldStart : Rule Symbol :=
  .seq
    [.word "yield",
     .ahead (.alt
      [.name .identifier ["instanceof"], .lexeme .literal .number, .lexeme .literal .character,
       .lexeme .token .quote, symbols ["(", "!", "~", "+", "-", "++", "--", "@"]])]

def yieldRule : Rule Symbol :=
  form .yieldStatement [yieldStart, anyExpression, .symbol ";"]

def synchronizedRule : Rule Symbol :=
  form .synchronizedStatement [.word "synchronized", .ref .parenthesized, .ref .block]

def catchParameterRule : Rule Symbol :=
  form .catchParameter
    [optModifiers,
     .node .catchType (sepBy1 (.ref (.unannotatedType .plain)) (.symbol "|")), declaratorId]

def catchRule : Rule Symbol :=
  form .catchClause [.word "catch", parens catchParameterRule, .role .body (.ref .block)]

def finallyRule : Rule Symbol :=
  form .finallyClause [.word "finally", .ref .block]

def tryRule : Rule Symbol :=
  form .tryStatement
    [.word "try", .role .body (.ref .block),
     .alt
      [.seq [many1 (.ref .catchClause), opt (.ref .finallyClause)], .ref .finallyClause]]

/-- A resource is a variable with its value, or a variable or field that exists. -/
def resourceRule : Rule Symbol :=
  .node .resource
    (.alt
      [.seq [optModifiers, declaredType .expression, declaratorId, .symbol "=", anyExpression],
       .only (fun n => n.kind == .identifier || n.kind == .fieldAccess) (.ref .primary)])

def resourcesRule : Rule Symbol :=
  .node .resourceSpecification (parens
    (.seq [sepBy1 resourceRule (.symbol ";"), opt (.symbol ";")]))

def tryWithResourcesRule : Rule Symbol :=
  form .tryWithResources
    [.word "try", resourcesRule, .role .body (.ref .block), .many (.ref .catchClause),
     opt (.ref .finallyClause)]

def labeledRule : Rule Symbol :=
  form .labeledStatement
    [.name .identifier (statementWords ++ expressionWords), .symbol ":", .ref .statement]

/-- An expression as a statement does not start with a word that another statement starts with. -/
def plainExpressionRule : Rule Symbol :=
  .seq [.unless (words statementWords), .unless yieldStart, expressionStatementRule]

/-- The statements that are not declarations. -/
def activeStatements : List (Rule Symbol) :=
  [.ref .block, .symbol ";", ifRule, whileRule, enhancedForRule, forRule, doRule,
   tryWithResourcesRule, tryRule, .ref .switchExpression, synchronizedRule, returnRule,
   .ref .throwStatement, breakRule, continueRule, assertRule, yieldRule]

/-- The statements that are tried when no other fits. -/
def openStatements : List (Rule Symbol) :=
  [labeledRule, .ref .localVariable, plainExpressionRule]

end Deadwood.Java.Grammar
