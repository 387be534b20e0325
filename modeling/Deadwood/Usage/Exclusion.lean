import Deadwood.Code.Declaration

/-!
# Exclusions

Which declarations are looked at and which findings are dropped. Every rule goes by a table;
settings can add to most tables but take nothing away.
-/

namespace Deadwood.Usage

open Code

/-- Additions to the tables. -/
structure Exclusions where
  /-- Ends of file names, without the extension, that are no candidates of the textual scan. -/
  fileSuffixes : List String
  /-- Annotations of types that a framework instantiates. -/
  beanAnnotations : List String
  /-- Annotations of types whose methods are not reported. -/
  typeAnnotations : List String
  /-- Annotations of methods that are called by a framework. -/
  lifecycleAnnotations : List String
  /-- Names of methods that are called by a framework. -/
  lifecycleMethods : List String
  /-- Names of methods of containers, whose calls are passed over. -/
  containerMethods : List String
  /-- Parts of type names whose calls are looked at all the same. -/
  infrastructureMarkers : List String
  deriving DecidableEq, Repr

/-- No additions. -/
def Exclusions.none : Exclusions :=
  ⟨[], [], [], [], [], [], []⟩

/-- The tables of a scan. -/
structure Policy where
  fileSuffixes : List String
  beanAnnotations : List String
  /-- Annotations of types that implement nothing for others. -/
  configurationAnnotations : List String
  typeAnnotations : List String
  /-- Parts of qualified type names whose methods are not reported. -/
  nameFragments : List String
  lifecycleAnnotations : List String
  /-- Beginnings of the full names of a mapping framework's annotations. -/
  mappingPackages : List String
  /-- The end of the qualified name of a builder. -/
  builderSuffix : String
  lifecycleMethods : List String
  containerMethods : List String
  infrastructureMarkers : List String
  deriving DecidableEq, Repr

/-- The built-in tables. -/
def Policy.builtIn : Policy where
  fileSuffixes :=
    ["Impl", "Controller", "Configuration", "Pointcut", "Aspect", "Test", "Tester", "Strategy"]
  beanAnnotations :=
    ["Component", "Service", "Controller", "RestController", "Aspect", "Configuration",
      "Repository", "Mapper"]
  configurationAnnotations := ["Configuration", "ConfigurationProperties"]
  typeAnnotations :=
    ["Controller", "RestController", "RestControllerAdvice", "ControllerAdvice", "Aspect",
      "Configuration"]
  nameFragments := ["Controller", "Test", "FallbackFactory"]
  lifecycleAnnotations := ["PostConstruct", "PreDestroy"]
  mappingPackages := ["org.mapstruct"]
  builderSuffix := "Builder"
  lifecycleMethods := ["afterPropertiesSet"]
  containerMethods :=
    ["get", "set", "add", "remove", "contains", "size", "clear", "isEmpty", "put", "getOrDefault",
      "computeIfAbsent", "computeIfPresent", "compute", "merge", "replaceAll", "forEach",
      "entrySet", "values", "keySet", "stream", "parallelStream"]
  infrastructureMarkers := ["redis", "Redis"]

/-- The built-in tables with additions behind them. -/
def Policy.extend (extra : Exclusions) : Policy :=
  { Policy.builtIn with
    fileSuffixes := Policy.builtIn.fileSuffixes ++ extra.fileSuffixes
    beanAnnotations := Policy.builtIn.beanAnnotations ++ extra.beanAnnotations
    typeAnnotations := Policy.builtIn.typeAnnotations ++ extra.typeAnnotations
    lifecycleAnnotations := Policy.builtIn.lifecycleAnnotations ++ extra.lifecycleAnnotations
    lifecycleMethods := Policy.builtIn.lifecycleMethods ++ extra.lifecycleMethods
    containerMethods := Policy.builtIn.containerMethods ++ extra.containerMethods
    infrastructureMarkers := Policy.builtIn.infrastructureMarkers ++ extra.infrastructureMarkers }

/-- Why a method that is not used is left out of the report. -/
inductive MethodExclusion where
  /-- The declaring type's qualified name has an excluded part. -/
  | excludedName
  /-- The declaring type has an excluded annotation. -/
  | excludedTypeAnnotated
  /-- The method has an annotation of the lifecycle. -/
  | lifecycleAnnotated
  /-- The declaring type has an annotation of a mapping framework. -/
  | mappingFramework
  /-- The declaring type is a builder. -/
  | builder
  /-- The declaring type is an interface or annotation interface. -/
  | notAClass
  /-- The method's name is one of the lifecycle. -/
  | lifecycleMethod
  deriving DecidableEq, Repr

/-- Whether `part` stands somewhere in `text`. -/
def containsText (text part : String) : Bool :=
  Text.occursIn part.toList text.toList

def endsWithText (text suffix : String) : Bool :=
  suffix.toList.isSuffixOf text.toList

def startsWithText (text start : String) : Bool :=
  start.toList.isPrefixOf text.toList

namespace Policy

/-- Whether some annotation of a table is among those of a declaration. -/
def hasAny (table : List String) (annotations : List AnnotationUse) : Bool :=
  table.any (isAnnotatedWith annotations)

/-- Whether a file is no candidate of the textual scan because of how its name ends. -/
def excludesFile (p : Policy) (path : Path) : Bool :=
  match path.stem? with
  | none => false
  | some stem => p.fileSuffixes.any (endsWithText stem)

/-- Whether a type is a candidate of the class scan: it has members and no framework
instantiates it. -/
def isCandidate (p : Policy) (t : TypeDecl) : Bool :=
  !t.emptyBody && !hasAny p.beanAnnotations t.annotations

/-- Whether calls through supertypes can reach a type. -/
def isImplementer (p : Policy) (t : TypeDecl) : Bool :=
  t.kind.isClassLike && !t.emptyBody && !hasAny p.configurationAnnotations t.annotations

/-- Whether a call is passed over as one on a container. A call whose declaring type is not known is
looked at. -/
def skipsCall (p : Policy) (method : String) (declaring : Option String) : Bool :=
  p.containerMethods.contains method
    && declaring.any fun type => !p.infrastructureMarkers.any (containsText type)

/-- The first rule that leaves a method of the type `declaring` out of the report. -/
def exclusion? (p : Policy) (m : MethodDecl) (declaring : TypeDecl) : Option MethodExclusion :=
  if p.nameFragments.any (containsText declaring.qualifiedName) then some .excludedName
  else if hasAny p.typeAnnotations declaring.annotations then some .excludedTypeAnnotated
  else if hasAny p.lifecycleAnnotations m.annotations then some .lifecycleAnnotated
  else if declaring.annotations.any fun a => p.mappingPackages.any (startsWithText a.fullName) then
    some .mappingFramework
  else if endsWithText declaring.qualifiedName p.builderSuffix then some .builder
  else if !declaring.kind.isClassLike then some .notAClass
  else if p.lifecycleMethods.contains m.name then some .lifecycleMethod
  else none

end Policy

end Deadwood.Usage
