import Deadwood.Java.Grammar.Symbol

/-!
# Names, types, annotations and modifiers of Java
-/

namespace Deadwood.Java.Grammar

open Rule

/-- A name with dots. The dot before an asterisk is not part of it. -/
def qualifiedNameRule : Rule Symbol :=
  .chain anyName [.of .scopedIdentifier none [.symbol ".", anyName]]

/-- A simple type with brackets after it, or without. -/
def unannotatedTypeRule (place : Place) : Rule Symbol :=
  .chain (.ref (.simpleType place)) [.of .arrayType none [.ref .dimensions]]

def annotatedTypeRule : Rule Symbol :=
  form .annotatedType [many1 (.ref .annotationUse), .ref (.unannotatedType .plain)]

def typeRule (place : Place) : Rule Symbol :=
  .alt [annotatedTypeRule, .ref (.unannotatedType place)]

/-- A primitive type, or names with dots, each of which may have type arguments. -/
def simpleTypeRule (place : Place) : Rule Symbol :=
  .alt
    [.node .primitiveType (words primitiveWords),
     .chain (.name .typeIdentifier place.reserved)
      [.mk .genericType none (· != .genericType) (.ref .typeArguments),
       .of .scopedTypeIdentifier none
        [.symbol ".", annotationUses, .name .typeIdentifier ["class", "this", "new"]]]]

def wildcardRule : Rule Symbol :=
  form .wildcard
    [annotationUses, .symbol "?",
     opt (.alt
      [.seq [.word "extends", .ref (.type .plain)],
       .seq [.leaf .superWord "super", .ref (.type .plain)]])]

def typeArgumentsRule : Rule Symbol :=
  .node .typeArguments (between "<" ">" (commas (.alt [wildcardRule, .ref (.type .plain)])))

def typeBoundRule : Rule Symbol :=
  form .typeBound [.word "extends", sepBy1 (.ref (.type .plain)) (.symbol "&")]

def typeParametersRule : Rule Symbol :=
  .node .typeParameters (between "<" ">" (commas1
    (form .typeParameter [annotationUses, .name .typeIdentifier [], opt typeBoundRule])))

def typeListRule : Rule Symbol :=
  .node .typeList (commas1 (.ref (.type .plain)))

def dimensionsRule : Rule Symbol :=
  .node .dimensions (many1 (.seq [annotationUses, .symbol "[", .symbol "]"]))

def elementValuePairRule : Rule Symbol :=
  form .elementValuePair [anyName, .symbol "=", .ref .elementValue]

/-- The arguments of an annotation: named values, or one value. -/
def annotationArgumentsRule : Rule Symbol :=
  .node .annotationArguments
    (.alt [parens (commas elementValuePairRule), parens (.ref .elementValue)])

def annotationUseRule : Rule Symbol :=
  .alt
    [form .argumentAnnotated
      [.symbol "@", .role .name (.ref .qualifiedName), .role .arguments annotationArgumentsRule],
     form .plainAnnotated [.symbol "@", .role .name (.ref .qualifiedName)]]

def elementValueArrayRule : Rule Symbol :=
  .node .elementValueArray (braces (.seq [commas (.ref .elementValue), opt (.symbol ",")]))

def elementValueRule : Rule Symbol :=
  .alt [elementValueArrayRule, .ref .annotationUse, anyExpression]

/-- The word `sealed` is a modifier only in front of something that a declaration goes on with. -/
def sealedModifier : Rule Symbol :=
  .seq
    [.word "sealed",
     .ahead (.alt [.name .identifier ["instanceof"], symbols ["@", "@interface"]])]

/-- The modifier that is written with a hyphen. -/
def nonSealedModifier : Rule Symbol :=
  .glued ["non", "-", "sealed"] []

def modifiersRule : Rule Symbol :=
  .node .modifiers (many1
    (.alt [.ref .annotationUse, words modifierWords, sealedModifier, nonSealedModifier]))

end Deadwood.Java.Grammar
