import Deadwood.Code.Scope
import Deadwood.Code.Unit
import Deadwood.Java.Grammar
import Deadwood.Sorted
import Deadwood.Text.Alphabetic
import Deadwood.Text.Uppercase
import Deadwood.Text.Word

/-!
# Declarations and calls of a syntax tree

One walk over a tree collects the named types, their methods, the calls with their receivers and the
type names that each type mentions. The walk keeps the variables in scope, so that a receiver can be
told apart: a variable with its declared type, a type, or any other expression. Methods of anonymous
classes are not declarations, but calls in them are calls of the named type around them.

The walk is defined on every tree, whether or not a source text has it.
-/

namespace Deadwood.Code

open Java (Kind Role Node)

namespace Extraction

/-! ## What a node says by itself -/

/-- Whether a name starts with an upper-case letter. -/
def startsUppercase (name : String) : Bool :=
  name.toList.head?.any Text.isUppercase

/-- The text of the first name among some nodes. -/
def writtenName? (nodes : List Node) : Option String :=
  (nodes.find? fun n => n.kind == .scopedIdentifier || n.kind == .identifier).map (·.text)

/-- The package that a file declares first. -/
def package? (root : Node) : Option String :=
  root.children.findSome? fun n =>
    if n.kind == .packageDeclaration then writtenName? n.children else none

/-- An import as declared: of a type or of members, and of one or of all. -/
inductive Import where
  | type (name : String)
  | members (imported : StaticImport)

/-- The import that a node declares. A static import of one member names the type before the last
dot. -/
def import? (n : Node) : Option Import :=
  if n.kind == .importDeclaration then
    (writtenName? n.children).bind fun name =>
      match n.hasToken "static", (n.childOf? .asterisk).isSome with
      | false, false => some (.type name)
      | false, true => some (.type (Text.joinDot name "*"))
      | true, true => some (.members ⟨name, none⟩)
      | true, false =>
        (Text.splitLastDot name).map fun (type, member) => .members ⟨type, some member⟩
  else none

/-- Package and imports of a file. -/
def unitInfo (path : Path) (root : Node) : UnitInfo :=
  let imports := root.children.filterMap import?
  { path := path
    package := package? root
    imports := imports.filterMap fun
      | .type name => some name
      | .members _ => none
    staticImports := imports.filterMap fun
      | .members imported => some imported
      | .type _ => none }

/-- The parameters of a parameter list. A parameter of variable arity counts as an array. -/
def parameters (list : Node) : List Parameter :=
  list.named.filterMap fun p =>
    match p.kind with
    | .formalParameter =>
      match p.child? .type, p.child? .name with
      | some type, some name => some ⟨name.text, type.text⟩
      | _, _ => none
    | .spreadParameter =>
      let type := p.named.find? fun c => c.kind != .modifiers && c.kind != .variableDeclarator
      let name := (p.named.find? (·.kind == .variableDeclarator)).bind (·.child? .name)
      match type, name with
      | some type, some name => some ⟨name.text, type.text ++ "[]"⟩
      | _, _ => none
    | _ => none

/-- The parameters of a declaration, if it has a parameter list. -/
def parametersOf (decl : Node) : List Parameter :=
  ((decl.child? .parameters).map parameters).getD []

/-- The superclass that a declaration names. -/
def superclass? (decl : Node) : Option String :=
  ((decl.child? .superclass).bind (·.named.head?)).map fun t => Java.eraseGenerics t.text

/-- The interfaces that a declaration names. An interface names those it extends. -/
def interfaces (decl : Node) (kind : TypeKind) : List String :=
  let clause :=
    if kind = .interface then decl.childOf? .extendsInterfaces else decl.child? .interfaces
  match clause with
  | none => []
  | some clause =>
    ((clause.named.filter (·.kind == .typeList)).flatMap (·.named)).map fun t =>
      Java.eraseGenerics t.text

def isAnnotationUse (n : Node) : Bool :=
  n.kind == .plainAnnotated || n.kind == .argumentAnnotated

/-- The qualified name of an annotation: as written if it has dots, and else by the first import of
a single type that ends in it. -/
def qualifiedAnnotationName? (imports : List String) (name : String) : Option String :=
  if Text.isDotted name then some name
  else
    imports.find? fun i => (Text.wildcardPackage? i).isNone && Text.lastSegment i == name

/-- The annotations among the modifiers of a declaration. -/
def annotations (imports : List String) (decl : Node) : List AnnotationUse :=
  match decl.childOf? .modifiers with
  | none => []
  | some modifiers =>
    ((modifiers.named.filter isAnnotationUse).filterMap (·.child? .name)).map fun n =>
      ⟨n.text, qualifiedAnnotationName? imports n.text⟩

/-- Whether a declaration has a modifier. -/
def hasModifier (decl : Node) (modifier : String) : Bool :=
  decl.children.any fun c => c.kind == .modifiers && c.hasToken modifier

/-- Whether a type has no members. A record with components has some. -/
def isEmptyBody (decl body : Node) : Bool :=
  ((decl.child? .parameters).map fun p => p.named.isEmpty).getD true
    && body.named.all fun m => m.kind == .enumBodyDeclarations && m.named.isEmpty

/-- The type of a variable as declared; none if it is left to inference. -/
def declaredType? (type : Node) : Option String :=
  if type.text == "var" then none else some type.text

/-- The names that the declarators of a node declare. -/
def declaratorNames (n : Node) : List String :=
  ((n.childrenIn .declarator).filterMap (·.child? .name)).map (·.text)

/-- A scope with parameters declared in order. -/
def withParameters (scope : Scope) (ps : List Parameter) : Scope :=
  ps.foldl (fun s p => s.declare p.name (some p.typeName)) scope

/-- The fields declared directly in a body, which all its members see. -/
def memberScope (body : Node) : Scope :=
  let inner := ((body.childOf? .enumBodyDeclarations).map (·.named)).getD []
  let fields := (body.named ++ inner).filter fun m =>
    m.kind == .fieldDeclaration || m.kind == .constantDeclaration
  fields.foldl (fun scope m =>
    (declaratorNames m).foldl (fun s name => s.declare name ((m.child? .type).map (·.text))) scope) []

/-- The parameters of a lambda. -/
def lambdaScope (n : Node) : Scope :=
  match n.child? .parameters with
  | none => []
  | some ps =>
    match ps.kind with
    | .identifier => [(ps.text, none)]
    | .formalParameters => withParameters [] (parameters ps)
    | _ => ((ps.named.filter (·.kind == .identifier)).map fun i => (i.text, none)).reverse

/-- The variable of a loop over elements. -/
def loopScope (n : Node) : Scope :=
  match n.child? .name with
  | none => []
  | some name => [(name.text, (n.child? .type).bind declaredType?)]

/-- The variable that a caught exception or a resource declares. -/
def boundVariable? (n : Node) : Option (String × Option String) :=
  (n.child? .name).map fun name =>
    (name.text, ((n.child? .type).or (n.childOf? .catchType)).bind declaredType?)

/-- The variable that a type test declares, with the type on its right. -/
def testedVariable? (n : Node) : Option (String × Option String) :=
  (n.child? .name).map fun name => (name.text, (n.child? .right).bind declaredType?)

/-! ## Receivers -/

/-- Whether a text is segments of letters, digits and underscores, joined by dots. -/
def isPlainDottedName (text : String) : Bool :=
  (Text.splitAtChar '.' text.toList).all fun seg =>
    !seg.isEmpty && seg.all fun c => Text.isAlphanumeric c || c == '_'

/-- What a single name is: a variable in scope, a type if it starts with an upper-case letter, and
else a variable of unknown type. -/
def nameReceiver (scopes : Scopes) (name : String) : Receiver :=
  match scopes.find? name with
  | some type => .variable name type
  | none => if startsUppercase name then .type name else .variable name none

/-- What a field access is: a field of `this`, a qualified type name, or an expression. -/
def fieldReceiver (scopes : Scopes) (n : Node) : Receiver :=
  let ofThis := match n.child? .object, n.child? .field with
    | some object, some field => if object.kind == .thisWord then some field.text else none
    | _, _ => none
  match ofThis with
  | some name => .variable name (scopes.find? name).join
  | none =>
    if isPlainDottedName n.text && !scopes.declares (Text.firstSegment n.text)
        && startsUppercase (Text.lastSegment n.text) then
      .type n.text
    else .expression

mutual

/-- What a call on an expression is invoked on. -/
def receiver (scopes : Scopes) : Node → Receiver
  | .mk kind role text line endLine children =>
    match kind with
    | .thisWord => .this
    | .superWord => .super
    | .identifier => nameReceiver scopes text
    | .fieldAccess => fieldReceiver scopes (.mk kind role text line endLine children)
    | .parenthesized => innerReceiver scopes children
    | _ => .expression

/-- The receiver that the first node inside parentheses gives. -/
def innerReceiver (scopes : Scopes) : List Node → Receiver
  | [] => .expression
  | n :: ns => if n.isNamed then receiver scopes n else innerReceiver scopes ns

end

/-- The receiver of an invocation. A `super` behind the object makes it a call of an outer
supertype. -/
def invocationReceiver (scopes : Scopes) (n : Node) : Receiver :=
  let object := n.child? .object
  let hasSuper := n.children.any (·.kind == .superWord)
  if hasSuper && (object.map (·.kind)) != some .superWord then .super
  else
    match object with
    | none => .implicit
    | some object => receiver scopes object

/-- The receiver of a method reference, from what stands in front of the colons. -/
def referenceReceiver (scopes : Scopes) (front : List Node) : Receiver :=
  match front.find? (·.isNamed) with
  | none => .expression
  | some target =>
    match target.kind with
    | .typeIdentifier | .scopedTypeIdentifier | .genericType =>
      .type (Java.eraseGenerics target.text)
    | _ => receiver scopes target

/-! ## The walk -/

/-- Where the walk stands. -/
structure Context where
  path : Path
  /-- The imports of the file. -/
  imports : List String
  /-- The innermost named type. -/
  enclosing : Option TypeId
  /-- The qualified name of that type, or the package. -/
  scopeName : Option String
  /-- Whether an anonymous class stands between here and that type. -/
  anonymous : Bool

/-- What the walk has collected, and the open scopes. -/
structure State where
  types : List TypeDecl
  methods : List MethodDecl
  calls : List CallSite
  scopes : Scopes

namespace State

def start : State :=
  ⟨[], [], [], [[]]⟩

/-- Changes a type that was collected. -/
def modifyType (s : State) (id : TypeId) (f : TypeDecl → TypeDecl) : State :=
  { s with types := s.types.modify id f }

def openScope (s : State) (scope : Scope) : State :=
  { s with scopes := scope :: s.scopes }

def closeScope (s : State) : State :=
  { s with scopes := s.scopes.tail }

def declare (s : State) (name : String) (type : Option String) : State :=
  { s with scopes := s.scopes.declare name type }

/-- Closes the scope of a type, whose mentions are all known now: they are put in order, each once.
-/
def leaveType (s : State) (id : TypeId) : State :=
  s.closeScope.modifyType id fun t => { t with typeRefs := sortedSet t.typeRefs }

end State

/-- Notes that the enclosing type mentions a type name. -/
def mention (ctx : Context) (name : String) (s : State) : State :=
  match ctx.enclosing with
  | none => s
  | some id => s.modifyType id fun t => { t with typeRefs := t.typeRefs ++ [name] }

/-- Collects a call. A type that is called on is mentioned. -/
def addCall (ctx : Context) (kind : CallKind) (name : String) (args : Option Nat)
    (recv : Receiver) (line : Nat) (s : State) : State :=
  let s := match recv with
    | .type type => mention ctx type s
    | _ => s
  let call : CallSite :=
    { id := s.calls.length, kind := kind, methodName := name, argCount := args, receiver := recv
      enclosingType := ctx.enclosing, unit := 0, line := line, binding := none }
  { s with calls := s.calls ++ [call] }

/-- Collects an invocation. -/
def addInvocation (ctx : Context) (n : Node) (s : State) : State :=
  match n.child? .name with
  | none => s
  | some name =>
    let args := ((n.child? .arguments).map fun a => a.named.length).getD 0
    addCall ctx .invocation name.text (some args) (invocationReceiver s.scopes n) n.line s

/-- Collects a method reference. A reference to a constructor is none. -/
def addReference (ctx : Context) (n : Node) (s : State) : State :=
  let isSeparator (c : Node) : Bool := c.kind == .token && c.text == "::"
  let front := n.children.takeWhile fun c => !isSeparator c
  let back := n.children.dropWhile fun c => !isSeparator c
  match back.find? (·.kind == .identifier) with
  | none => s
  | some name =>
    addCall ctx .methodReference name.text none (referenceReceiver s.scopes front) n.line s

/-- The name of a declaration inside the scope of the context. -/
def Context.qualify (ctx : Context) (name : String) : String :=
  match ctx.scopeName with
  | some scope => Text.joinDot scope name
  | none => name

def Context.location (ctx : Context) (n : Node) : Location :=
  ⟨ctx.path, n.line, n.endLine⟩

/-- Collects a type. -/
def addType (ctx : Context) (kind : TypeKind) (name : String) (n : Node) (s : State) : State :=
  let decl : TypeDecl :=
    { id := s.types.length
      name := name
      qualifiedName := ctx.qualify name
      kind := kind
      unit := 0
      enclosing := ctx.enclosing
      superclass := superclass? n
      interfaces := interfaces n kind
      annotations := annotations ctx.imports n
      methods := []
      typeRefs := []
      emptyBody := ((n.child? .body).map (isEmptyBody n)).getD true
      location := ctx.location n }
  { s with types := s.types ++ [decl] }

/-- The scope inside a type: its fields, and the components of a record. -/
def typeScope (n : Node) : Scope :=
  withParameters (((n.child? .body).map memberScope).getD []) (parametersOf n)

/-- Collects a method, unless it belongs to an anonymous class or to no type. -/
def addMethod (ctx : Context) (n : Node) (s : State) : State :=
  match n.kind == .methodDeclaration && !ctx.anonymous, ctx.enclosing, n.child? .name with
  | true, some type, some name =>
    let id := s.methods.length
    let returnType := ((n.child? .type).map (·.text)).filter (· != "void")
    let decl : MethodDecl :=
      { id := id, name := name.text, declaringType := type, parameters := parametersOf n
        returnType := returnType, annotations := annotations ctx.imports n
        isStatic := hasModifier n "static", location := ctx.location n }
    { s with methods := s.methods ++ [decl] }.modifyType type fun t =>
      { t with methods := t.methods ++ [id] }
  | _, _, _ => s

/-- The kind of type that a node declares. -/
def typeKind? : Kind → Option TypeKind
  | .classDeclaration => some .classType
  | .interfaceDeclaration => some .interface
  | .enumDeclaration => some .enum
  | .recordDeclaration => some .record
  | .annotationTypeDeclaration => some .annotationType
  | _ => none

/-- The scope that a node opens around its children, if it opens one. A class body opens one where
its class has no name. -/
def scopeOf? (parent : Kind) (n : Node) : Option Scope :=
  match n.kind with
  | .methodDeclaration | .constructorDeclaration | .compactConstructor =>
    some (withParameters [] (parametersOf n))
  | .classBody =>
    if parent == .objectCreation || parent == .enumConstant then some (memberScope n) else none
  | .block | .forStatement | .catchClause | .tryWithResources | .switchGroup => some []
  | .enhancedFor => some (loopScope n)
  | .lambda => some (lambdaScope n)
  | _ => none

/-- What a node adds before its children are visited. -/
def enter (ctx : Context) (n : Node) (s : State) : State :=
  match n.kind with
  | .methodDeclaration => addMethod ctx n s
  | .localVariable =>
    (declaratorNames n).foldl
      (fun s name => s.declare name ((n.child? .type).bind declaredType?)) s
  | .catchParameter | .resource =>
    match boundVariable? n with
    | some (name, type) => s.declare name type
    | none => s
  | .instanceofExpression =>
    match testedVariable? n with
    | some (name, type) => s.declare name type
    | none => s
  | .methodInvocation => addInvocation ctx n s
  | .methodReference => addReference ctx n s
  | .fieldAccess =>
    match n.child? .object with
    | some object =>
      if object.kind == .identifier && !s.scopes.declares object.text
          && startsUppercase object.text then mention ctx object.text s
      else s
    | none => s
  | .typeIdentifier => if n.text == "var" then s else mention ctx n.text s
  | .scopedTypeIdentifier => mention ctx (Java.eraseGenerics n.text) s
  | .plainAnnotated | .argumentAnnotated =>
    match n.child? .name with
    | some name => mention ctx name.text s
    | none => s
  | _ => s

/-- The context inside a class body without a name. -/
def Context.within (ctx : Context) (n : Node) : Context :=
  if n.kind == .classBody then { ctx with anonymous := true } else ctx

mutual

/-- Walks over a node, whose parent has the kind `parent`. Of an annotation only the arguments are
walked over, and nothing of a type name. -/
def visit (ctx : Context) (parent : Kind) : Node → State → State
  | .mk kind role text line endLine children, s =>
    let n := Node.mk kind role text line endLine children
    match typeKind? kind, n.child? .name with
    | some typeKind, some name =>
      let id := s.types.length
      let inner := { ctx with
        enclosing := some id, scopeName := some (ctx.qualify name.text), anonymous := false }
      let s := (addType ctx typeKind name.text n s).openScope (typeScope n)
      (visitAll inner kind children s).leaveType id
    | _, _ =>
      let s := enter ctx n s
      if isAnnotationUse n then visitFirst ctx kind .arguments children s
      else if kind == .typeIdentifier then s
      else
        match scopeOf? parent n with
        | some scope => (visitAll (ctx.within n) kind children (s.openScope scope)).closeScope
        | none => visitAll ctx kind children s

/-- Walks over nodes in order. -/
def visitAll (ctx : Context) (parent : Kind) : List Node → State → State
  | [], s => s
  | n :: ns, s => visitAll ctx parent ns (visit ctx parent n s)

/-- Walks over the first node in a role. -/
def visitFirst (ctx : Context) (parent : Kind) (role : Role) : List Node → State → State
  | [], s => s
  | n :: ns, s =>
    if n.role == some role then visit ctx parent n s else visitFirst ctx parent role ns s

end

end Extraction

/-- The declarations and calls of the file at `path` with the syntax tree `root`. -/
def SourceUnit.ofTree (path : Path) (root : Node) : SourceUnit :=
  let info := Extraction.unitInfo path root
  let ctx : Extraction.Context := ⟨path, info.imports, none, info.package, false⟩
  let s := Extraction.visit ctx .program root .start
  ⟨info, s.types, s.methods, s.calls⟩

/-- The file at `path` with the text `source`, if the text can be parsed. -/
def SourceUnit.parse? (path : Path) (source : String) : Option SourceUnit :=
  (Node.parse? source).map (SourceUnit.ofTree path)

end Deadwood.Code
