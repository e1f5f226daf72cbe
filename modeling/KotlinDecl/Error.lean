import KotlinDecl.Kind
import KotlinDecl.Text.Lasting
import KotlinDecl.Text.Quoted

namespace KotlinDecl

inductive NamePlace
  | className
  | typeVariable
  | parameter
  | property
  | function
  | typeDecl
  deriving DecidableEq, Repr

def NamePlace.rule : NamePlace → String
  | className => "class_name"
  | typeVariable => "type_variable"
  | parameter => "parameter_name"
  | property => "property_name"
  | function => "function_name"
  | typeDecl => "name"

inductive Violation
  | invalidName (place : NamePlace) (name : String)
  | noSimpleName
  | noGuess (name : String)
  | noTypeArguments (raw : String)
  | notVariance (given : String)
  | notAnnotationType (given : String)
  | parameterModifier (given : String)
  | initializerTwice
  | notGetter (name : String)
  | notSetter (name : String)
  | setterOfConstant
  | getterParameter
  | secondSetterParameter
  | delegationOutsideConstructor
  | notInFunctionShape (name what : String)
  | namedAnonymous (name : String)
  | featureRefused (kind : Kind) (feature : Feature)
  | onAnonymous (what : String)
  | notCompanion (kind name : String)
  | notConstructor (name : String)
  | superclassTwice (present : String)
  | anonymousDelegate (supertype : String) (delegate : String)
  | nullableDelegate (supertype : String)
  | delegateTwice (owner supertype delegate present : String)
  | delegateWithoutConstructor
  | noSuchParameter (parameter : String) (owner : String)
  | constantBody
  | constantName (name : String)
  | expectInitializer
  | expectAccessor
  | accessorInAnnotationClass (kind : Kind) (owner : String) (property : String)
  | expectInitializerBlock (kind : Kind)
  | interfaceVisibility (kind : Kind) (owner : String) (function : String) (modifier : Modifier)
  | abstractAndPrivate (kind : Kind) (owner : String) (function : String)
  | annotationFunctionModifiers (kind : Kind) (owner : String) (function : String)
  | annotationFunctionBody (kind : Kind) (owner : String) (function : String)
  | expectFunctionBody
  | nestedInAnnotationClass (kind : Kind) (owner : String)
  deriving DecidableEq, Repr

namespace Violation

def rule : Violation → String
  | invalidName place _ => place.rule
  | noSimpleName | noGuess _ => "class_name"
  | noTypeArguments _ => "type_arguments"
  | notVariance _ => "type_variable"
  | notAnnotationType _ => "annotation_type"
  | parameterModifier _ => "parameter_modifier"
  | initializerTwice => "property_initializer"
  | notGetter _ | notSetter _ | setterOfConstant => "property_accessor"
  | getterParameter | secondSetterParameter => "accessor_parameters"
  | delegationOutsideConstructor => "constructor_delegation"
  | notInFunctionShape _ _ => "function_shape"
  | namedAnonymous _ => "anonymous_name"
  | featureRefused _ feature => feature.rule
  | onAnonymous _ => "anonymous_type"
  | notCompanion _ _ => "companion_shape"
  | notConstructor _ => "primary_constructor_shape"
  | superclassTwice _ => "superclass_set"
  | anonymousDelegate _ _ => "anonymous_delegate"
  | nullableDelegate _ => "delegate_nullable"
  | delegateTwice _ _ _ _ => "delegate_duplicate"
  | delegateWithoutConstructor | noSuchParameter _ _ => "delegate_parameter"
  | constantBody => "enum_constant_body"
  | constantName _ => "enum_constant_name"
  | expectInitializer => "expect_initializer"
  | expectAccessor => "expect_accessor"
  | accessorInAnnotationClass _ _ _ | annotationFunctionBody _ _ _ | nestedInAnnotationClass _ _ =>
    "annotation_body"
  | expectInitializerBlock _ => "expect_initializer_block"
  | interfaceVisibility _ _ _ _ | abstractAndPrivate _ _ _ => "interface_function_modifier"
  | annotationFunctionModifiers _ _ _ => "annotation_function_modifiers"
  | expectFunctionBody => "expect_function_body"

def message : Violation → String
  | invalidName _ name => "not a valid name: " ++ name
  | noSimpleName => "a class name needs at least one simple name"
  | noGuess name => "couldn't make a guess for " ++ name
  | noTypeArguments raw => "no type arguments: " ++ raw
  | notVariance given => given ++ " is not a variance"
  | notAnnotationType given => "expected a type name but was " ++ given
  | parameterModifier given => "unexpected parameter modifier " ++ given
  | initializerTwice => "initializer was already set"
  | notGetter name => name ++ " is not a getter"
  | notSetter name => name ++ " is not a setter"
  | setterOfConstant => "only a mutable property can have a setter"
  | getterParameter => "getters cannot have parameters"
  | secondSetterParameter => "setters can have only one parameter"
  | delegationOutsideConstructor => "only constructors can delegate to other constructors!"
  | notInFunctionShape name what => name ++ " cannot have " ++ what
  | namedAnonymous name => "anonymous types have no name, but got " ++ name
  | featureRefused kind feature => kind.name ++ " can't have " ++ feature.phrase
  | onAnonymous what => what ++ " forbidden on anonymous types."
  | notCompanion kind name => "expected a companion object but was " ++ kind ++ " " ++ name
  | notConstructor name => "expected a constructor but was " ++ name
  | superclassTwice present => "superclass already set to " ++ present
  | anonymousDelegate supertype delegate =>
    "anonymous objects can't delegate " ++ supertype ++ " to " ++ delegate
  | nullableDelegate supertype => "expected non-nullable type but was '" ++ supertype ++ "'"
  | delegateTwice owner supertype delegate present =>
    "'" ++ owner ++ "' can not delegate to " ++ supertype ++ " by " ++ delegate ++
      " with existing declaration by " ++ present
  | delegateWithoutConstructor =>
    "delegating to constructor parameter requires not-null constructor"
  | noSuchParameter parameter owner =>
    "no such constructor parameter '" ++ parameter ++ "' to delegate to for type '" ++ owner ++ "'"
  | constantBody => "enum constants must have anonymous type arguments"
  | constantName name => "not a valid enum constant: " ++ name
  | expectInitializer => "properties in expect classes can't have initializers"
  | expectAccessor => "properties in expect classes can't have getters and setters"
  | accessorInAnnotationClass kind owner property =>
    kind.name ++ " " ++ owner ++ "." ++ property ++ " can't have getters and setters"
  | expectInitializerBlock kind => "expect " ++ kind.name ++ " can't have initializer blocks"
  | interfaceVisibility kind owner function modifier =>
    kind.name ++ " " ++ owner ++ "." ++ function ++ " can't be " ++ modifier.keyword
  | abstractAndPrivate kind owner function =>
    kind.name ++ " " ++ owner ++ "." ++ function ++ " can't be both abstract and private"
  | annotationFunctionModifiers kind owner function =>
    kind.name ++ " " ++ owner ++ "." ++ function ++ " requires modifiers ['abstract', 'public']"
  | annotationFunctionBody kind owner function =>
    kind.name ++ " " ++ owner ++ "." ++ function ++ " can't have a body"
  | expectFunctionBody => "functions in expect classes can't have bodies"
  | nestedInAnnotationClass kind owner => kind.name ++ " " ++ owner ++ " can't have nested types"

end Violation

inductive Defect
  | noConstants
  | unnamed
  | abstractFunction (function : String)
  | secondaryConstructor
  | expectInitializer (kind property : String)
  | expectAccessor (kind property : String)
  | expectFunctionBody (kind function : String)
  | expectInitializerBlock (kind : String)
  | notConstructorProperty (kind : Kind) (property : String)
  deriving DecidableEq, Repr

namespace Defect

def rule : Defect → String
  | noConstants => "enum_constants"
  | unnamed => "name"
  | abstractFunction _ => "abstract_function"
  | secondaryConstructor => "secondary_constructor"
  | expectInitializer _ _ => "expect_initializer"
  | expectAccessor _ _ => "expect_accessor"
  | expectFunctionBody _ _ => "expect_function_body"
  | expectInitializerBlock _ => "expect_initializer_block"
  | notConstructorProperty _ _ => "annotation_body"

def message (owner : String) : Defect → String
  | noConstants => "at least one enum constant is required for " ++ owner
  | unnamed => "only companion objects may be unnamed"
  | abstractFunction function =>
    "non-abstract type " ++ owner ++ " cannot declare abstract function " ++ function
  | secondaryConstructor =>
    "types without a primary constructor cannot specify secondary constructors " ++
      "and superclass constructor parameters"
  | expectInitializer kind property =>
    "property " ++ property ++ " in expect " ++ kind ++ " " ++ owner ++
      " can't have an initializer"
  | expectAccessor kind property =>
    "property " ++ property ++ " in expect " ++ kind ++ " " ++ owner ++ " can't have accessors"
  | expectFunctionBody kind function =>
    "function " ++ function ++ " in expect " ++ kind ++ " " ++ owner ++ " can't have a body"
  | expectInitializerBlock kind =>
    "expect " ++ kind ++ " " ++ owner ++ " can't have initializer blocks"
  | notConstructorProperty kind property =>
    kind.name ++ " " ++ owner ++ "." ++ property ++ " must be a primary constructor property"

end Defect

inductive FormatFault
  | dangling
  | outOfRange (index : Nat) (placeholder : Char)
  | notName (given : String)
  | notType (given : String)
  | invalidPlaceholder (placeholder : String)
  | unusedArguments (count : Nat)
  | blockWithArguments
  | unindent (levels : String) (level : Int)
  | statementTwice
  | statementNotOpen
  deriving DecidableEq, Repr

def FormatFault.message : FormatFault → String
  | dangling => "dangling format characters"
  | outOfRange index placeholder =>
    "index " ++ toString index ++ " for '%" ++ placeholder.toString ++ "' is out of range"
  | notName given => "expected name but was " ++ given
  | notType given => "expected type but was " ++ given
  | invalidPlaceholder placeholder => "invalid format placeholder '%" ++ placeholder ++ "'"
  | unusedArguments count => toString count ++ " unused arguments"
  | blockWithArguments => "a code block takes no arguments"
  | unindent levels level => "cannot unindent " ++ levels ++ " from " ++ toString level
  | statementTwice => "statement enter %[ followed by statement enter %["
  | statementNotOpen => "statement exit %] has no matching statement enter %["

inductive Error
  /-- A builder call broke a rule; `kind` is the kind of the declaration being built, if any, as a
  message shows it. -/
  | configuration (violation : Violation) (kind : Option String)
  | validation (defect : Defect) (name : Option String)
  | codeFormat (fault : FormatFault) (format : Option String)
  | notModifier (given : String)
  | unsuited
  /-- A value that has no such part. -/
  | lacking
  | absent
  | emptyStack
  | argumentsExhausted
  | notNumeral
  | noUnit
  | noSuchFile
  | malformedJson
  | malformedYaml
  deriving DecidableEq, Repr

structure Report where
  message : String
  details : List (String × String) := []
  deriving DecidableEq, Repr

def Report.text (r : Report) : String :=
  if r.details.isEmpty then r.message
  else r.message ++ " (" ++ ", ".intercalate (r.details.map fun d => d.1 ++ "=" ++ d.2) ++ ")"

def ownerText (name : Option String) : String := name.getD "None"

namespace Error

def report : Error → Option Report
  | configuration violation kind =>
    some ⟨violation.message,
      (kind.map fun k => ("kind", k)).toList ++ [("rule", violation.rule)]⟩
  | validation defect name =>
    some ⟨defect.message (ownerText name),
      (name.map fun n => ("name", n)).toList ++ [("rule", defect.rule)]⟩
  | codeFormat fault format =>
    some ⟨fault.message, (format.map fun f => ("format", f)).toList⟩
  | notModifier given => some ⟨"expected a KModifier but was " ++ given, []⟩
  | _ => none

/-- The wording of an error. One that would differ from run to run is not given. -/
def message (e : Error) : Option String :=
  (e.report.map Report.text).filter Text.isLasting

end Error

end KotlinDecl
