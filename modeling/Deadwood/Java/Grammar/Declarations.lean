import Deadwood.Java.Grammar.Types
import Deadwood.Java.Grammar.Statements

/-!
# Declarations of Java
-/

namespace Deadwood.Java.Grammar

open Rule

/-! ## Packages, imports and modules -/

def packageRule : Rule Symbol :=
  form .packageDeclaration
    [annotationUses, .word "package", .ref .qualifiedName, .symbol ";"]

def importRule : Rule Symbol :=
  form .importDeclaration
    [.word "import", opt (.word "static"), .ref .qualifiedName,
     opt (.seq [.symbol ".", .leaf .asterisk "*"]), .symbol ";"]

def moduleTargets (w : String) : Rule Symbol :=
  opt (.seq [.word w, commas1 (.ref .qualifiedName)])

def moduleDirective : Rule Symbol :=
  .node .moduleDirective
    (.alt
      [.seq [.word "requires", .many (words ["transitive", "static"]), .ref .qualifiedName,
        .symbol ";"],
       .seq [words ["exports", "opens"], .ref .qualifiedName, moduleTargets "to", .symbol ";"],
       .seq [.word "uses", .ref .qualifiedName, .symbol ";"],
       .seq [.word "provides", .ref .qualifiedName, .word "with",
        commas1 (.ref .qualifiedName), .symbol ";"]])

def moduleRule : Rule Symbol :=
  form .moduleDeclaration
    [annotationUses, opt (.word "open"), .word "module", .role .name (.ref .qualifiedName),
     .role .body (.node .moduleBody (braces (.many moduleDirective)))]

/-! ## Types -/

def superInterfaces : Rule Symbol :=
  opt (.role .interfaces (form .superInterfaces [.word "implements", typeListRule]))

def permitted : Rule Symbol :=
  opt (form .permits [.word "permits", typeListRule])

def optTypeParameters : Rule Symbol :=
  opt (.ref .typeParameters)

def classBodyRule : Rule Symbol :=
  .node .classBody (braces (.many (.ref .member)))

def classRule : Rule Symbol :=
  form .classDeclaration
    [optModifiers, .word "class", declaredName, optTypeParameters,
     opt (.role .superclass (form .superclass [.word "extends", .ref (.type .plain)])),
     superInterfaces, permitted, .role .body (.ref .classBody)]

def constantRule : Rule Symbol :=
  .node .constantDeclaration (declarators .member)

def interfaceBody : Rule Symbol :=
  .node .interfaceBody (braces (.many
    (.alt
      [.symbol ";", .ref .enumDeclaration, .ref .classDeclaration, .ref .interfaceDeclaration,
       .ref .recordDeclaration, .ref .annotationTypeDeclaration,
       .ref (.methodDeclaration .member), constantRule])))

def interfaceRule : Rule Symbol :=
  form .interfaceDeclaration
    [optModifiers, .word "interface", declaredName, optTypeParameters,
     opt (form .extendsInterfaces [.word "extends", typeListRule]), permitted,
     .role .body interfaceBody]

def enumConstant : Rule Symbol :=
  form .enumConstant
    [optModifiers, .role .name (.name .identifier modifierWords),
     opt (.role .arguments (.ref .argumentList)), opt (.role .body (.ref .classBody))]

def enumBody : Rule Symbol :=
  .node .enumBody (braces
    (.seq [commas enumConstant, opt (.symbol ","),
      opt (form .enumBodyDeclarations [.symbol ";", .many (.ref .member)])]))

def enumRule : Rule Symbol :=
  form .enumDeclaration
    [optModifiers, .word "enum", declaredName, superInterfaces, .role .body enumBody]

def recordRule : Rule Symbol :=
  form .recordDeclaration
    [optModifiers, .word "record", .role .name (.name .identifier ["instanceof"]),
     optTypeParameters, .role .parameters (.ref .formalParameters), superInterfaces,
     .role .body (.ref .classBody)]

def annotationElement : Rule Symbol :=
  form .annotationElement
    [optModifiers, declaredType .member, declaredName, .symbol "(", .symbol ")",
     opt (.ref .dimensions), opt (.seq [.word "default", .ref .elementValue]), .symbol ";"]

def annotationTypeRule : Rule Symbol :=
  form .annotationTypeDeclaration
    [optModifiers, .symbol "@interface", declaredName,
     .role .body (.node .annotationTypeBody (braces (.many
      (.alt
        [.symbol ";", .ref .classDeclaration, .ref .interfaceDeclaration, .ref .enumDeclaration,
         .ref .annotationTypeDeclaration, annotationElement, constantRule]))))]

/-! ## Members -/

def throwsRule : Rule Symbol :=
  opt (form .throwsClause [.word "throws", commas1 (.ref (.type .plain))])

def receiverParameter : Rule Symbol :=
  form .receiverParameter
    [annotationUses, .ref (.unannotatedType .plain), .many (.seq [anyName, .symbol "."]),
     .leaf .thisWord "this"]

def spreadParameter : Rule Symbol :=
  form .spreadParameter
    [optModifiers, .ref (.unannotatedType .plain), .symbol "...", variableDeclarator]

def formalParameter : Rule Symbol :=
  form .formalParameter [optModifiers, declaredType .plain, declaratorId]

def formalParametersRule : Rule Symbol :=
  .node .formalParameters
    (.alt
      [parens receiverParameter,
       parens (.seq
        [opt (.seq [receiverParameter, .symbol ","]),
         commas (.alt [spreadParameter, formalParameter])])])

def methodRule (place : Place) : Rule Symbol :=
  form .methodDeclaration
    [optModifiers, opt (.seq [.ref .typeParameters, annotationUses]), declaredType place,
     .role .name variableName, .role .parameters (.ref .formalParameters), opt (.ref .dimensions),
     throwsRule, .alt [.role .body (.ref .block), .symbol ";"]]

/-- The name of a constructor, where a member starts. -/
def constructorName : Rule Symbol :=
  .role .name (.name .identifier (Place.reserved .member))

/-- A call of another constructor, which stands first in the body of one. -/
def constructorCall : Rule Symbol :=
  form .constructorCall
    [.alt
      [.seq [opt (.ref .typeArguments), .alt [.leaf .thisWord "this", superLeaf],
        .role .arguments (.ref .argumentList), .symbol ";"],
       .seq [.role .object (.ref .primary), .symbol ".", opt (.ref .typeArguments),
        superLeaf, .role .arguments (.ref .argumentList), .symbol ";"]]]

def constructorRule : Rule Symbol :=
  form .constructorDeclaration
    [optModifiers, optTypeParameters, constructorName,
     .role .parameters (.ref .formalParameters), throwsRule,
     .role .body (.node .constructorBody (braces
      (.seq [opt constructorCall, .many (.ref .statement)])))]

def compactConstructorRule : Rule Symbol :=
  form .compactConstructor [optModifiers, constructorName, .role .body (.ref .block)]

def fieldRule : Rule Symbol :=
  .node .fieldDeclaration (declarators .member)

def memberRule : Rule Symbol :=
  .alt
    [.symbol ";", form .staticInitializer [.word "static", .ref .block], .ref .block,
     .ref .recordDeclaration, .ref .classDeclaration, .ref .interfaceDeclaration,
     .ref .annotationTypeDeclaration, .ref .enumDeclaration, .ref (.methodDeclaration .member),
     constructorRule, compactConstructorRule, fieldRule]

/-- The statements that declare something other than variables. -/
def declarations : List (Rule Symbol) :=
  [packageRule, importRule, moduleRule, .ref .classDeclaration, .ref .recordDeclaration,
   .ref .interfaceDeclaration, .ref .annotationTypeDeclaration, .ref .enumDeclaration]

def statementRule : Rule Symbol :=
  .alt (activeStatements ++ declarations ++ openStatements)

end Deadwood.Java.Grammar
