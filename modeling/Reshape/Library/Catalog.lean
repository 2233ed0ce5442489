import Reshape.Expect
import Reshape.Library.Composites
import Reshape.Library.Naturals
import Reshape.Library.Sequences
import Reshape.Library.Signatures
import Reshape.Library.Texts
import Reshape.Rule.Validity

/-!
# The catalog of the library

Every rule of the library by its name, with the parameters that it takes. A rule
is built from one term for each parameter; some parameters have to be texts or
sequences. A built rule is always valid, or building it fails.
-/

namespace Reshape

/-- How a library rule is made from its parameters. -/
inductive Recipe where
  | plain (rule : Rule)
  | one (parameter : String) (make : Term → Except Failure Rule)
  | two (first second : String) (make : Term → Term → Except Failure Rule)

namespace Recipe

def parameters : Recipe → List String
  | plain _ => []
  | one parameter _ => [parameter]
  | two first second _ => [first, second]

/-- The rule for a list of arguments, if their number is right. -/
def make? : Recipe → List Term → Option (Except Failure Rule)
  | plain rule, [] => some (.ok rule)
  | one _ make, [a] => some (make a)
  | two _ _ make, [a, b] => some (make a b)
  | _, _ => none

/-- A rule whose parameter is any term. -/
def ofTerm (parameter : String) (make : Term → Rule) : Recipe :=
  one parameter fun a => .ok (make a)

/-- A rule whose parameter is a text. -/
def ofText (parameter : String) (make : String → Rule) : Recipe :=
  one parameter fun a => return make (← a.needText)

/-- A rule whose parameters are two texts. -/
def ofTexts (first second : String) (make : String → String → Rule) : Recipe :=
  two first second fun a b => return make (← a.needText) (← b.needText)

/-- A rule whose parameter is a sequence. -/
def ofSeq (parameter : String) (make : List Term → Rule) : Recipe :=
  one parameter fun a => return make (← a.needSeq)

end Recipe

/-- The rules of the library. -/
inductive LibraryRule where
  | first | last | slice | promiseValue | parameters | returnType | thisParameter
  | instanceType | constructorParameters | propType | startsWith | replace
  | push | unshift | zip | capitalize | camelCase | dropSubstr | appendArgument
  | mappingTriple | uppercaseKeys | readonly | partialFields | mutable | required
  | filterByValueType
  | deepPromise | reverse | includes | removeAll | replaceAll | trimLeft | trimRight
  | trim | reverseStr | deepReadonly
  | toUnary | buildArray | add | subtract | multiply | divide | greaterThan | fibonacci
  | strLen
  deriving DecidableEq, Repr, Inhabited

namespace LibraryRule

/-- All rules, in the order of the catalog. -/
def all : List LibraryRule :=
  [first, last, slice, promiseValue, parameters, returnType, thisParameter,
    instanceType, constructorParameters, propType, startsWith, replace,
    push, unshift, zip, capitalize, camelCase, dropSubstr, appendArgument,
    mappingTriple, uppercaseKeys, readonly, partialFields, mutable, required,
    filterByValueType,
    deepPromise, reverse, includes, removeAll, replaceAll, trimLeft, trimRight,
    trim, reverseStr, deepReadonly,
    toUnary, buildArray, add, subtract, multiply, divide, greaterThan, fibonacci,
    strLen]

/-- The name under which a rule is looked up. The rule that is built carries the
same name. -/
def name : LibraryRule → String
  | first => "first"
  | last => "last"
  | slice => "slice"
  | promiseValue => "promise_value"
  | parameters => "parameters"
  | returnType => "return_type"
  | thisParameter => "this_parameter"
  | instanceType => "instance_type"
  | constructorParameters => "constructor_parameters"
  | propType => "prop_type"
  | startsWith => "starts_with"
  | replace => "replace"
  | push => "push"
  | unshift => "unshift"
  | zip => "zip"
  | capitalize => "capitalize"
  | camelCase => "camel_case"
  | dropSubstr => "drop_substr"
  | appendArgument => "append_argument"
  | mappingTriple => "mapping_triple"
  | uppercaseKeys => "uppercase_keys"
  | readonly => "readonly"
  | partialFields => "partial"
  | mutable => "mutable"
  | required => "required"
  | filterByValueType => "filter_by_value_type"
  | deepPromise => "deep_promise"
  | reverse => "reverse"
  | includes => "includes"
  | removeAll => "remove_all"
  | replaceAll => "replace_all"
  | trimLeft => "trim_left"
  | trimRight => "trim_right"
  | trim => "trim"
  | reverseStr => "reverse_str"
  | deepReadonly => "deep_readonly"
  | toUnary => "to_unary"
  | buildArray => "build_array"
  | add => "add"
  | subtract => "subtract"
  | multiply => "multiply"
  | divide => "divide"
  | greaterThan => "greater_than"
  | fibonacci => "fibonacci"
  | strLen => "str_len"

/-- The rule with a name. -/
def ofName? (name : String) : Option LibraryRule := all.find? (·.name == name)

theorem mem_all (rule : LibraryRule) : rule ∈ all := by
  cases rule <;> decide

/-- Names are distinct: every rule is found under its name. -/
theorem ofName?_name (rule : LibraryRule) : ofName? rule.name = some rule := by
  cases rule <;> decide

/-- How each rule is made. -/
def recipe : LibraryRule → Recipe
  | first => .plain Library.first
  | last => .plain Library.last
  | slice => .plain Library.slice
  | promiseValue => .plain Library.promiseValue
  | parameters => .plain Library.parameters
  | returnType => .plain Library.returnType
  | thisParameter => .plain Library.thisParameter
  | instanceType => .plain Library.instanceType
  | constructorParameters => .plain Library.constructorParameters
  | propType => .ofText "key" Library.propType
  | startsWith => .ofText "prefix" Library.startsWith
  | replace => .ofTexts "from" "to" Library.replace
  | push => .ofTerm "item" Library.push
  | unshift => .ofTerm "item" Library.unshift
  | zip => .ofSeq "other" Library.zip
  | capitalize => .plain Library.capitalize
  | camelCase => .plain Library.camelCase
  | dropSubstr => .ofText "sub" Library.dropSubstr
  | appendArgument => .ofTerm "arg" Library.appendArgument
  | mappingTriple => .plain Library.mappingTriple
  | uppercaseKeys => .plain Library.uppercaseKeys
  | readonly => .plain Library.readonly
  | partialFields => .plain Library.partialFields
  | mutable => .plain Library.mutable
  | required => .plain Library.required
  | filterByValueType => .ofTerm "value_type" Library.filterByValueType
  | deepPromise => .plain Library.deepPromise
  | reverse => .plain Library.reverse
  | includes => .ofTerm "target" Library.includes
  | removeAll => .ofTerm "item" Library.removeAll
  | replaceAll => .ofTexts "from" "to" Library.replaceAll
  | trimLeft => .plain Library.trimLeft
  | trimRight => .plain Library.trimRight
  | trim => .plain Library.trim
  | reverseStr => .plain Library.reverseStr
  | deepReadonly => .plain Library.deepReadonly
  | toUnary => .plain Library.toUnary
  | buildArray => .ofTerm "element" Library.buildArray
  | add => .plain Library.add
  | subtract => .plain Library.subtract
  | multiply => .plain Library.multiply
  | divide => .plain Library.divide
  | greaterThan => .plain Library.greaterThan
  | fibonacci => .plain Library.fibonacci
  | strLen => .plain Library.strLen

/-- The rule for a list of arguments. -/
def build (rule : LibraryRule) (args : List Term) : Except Failure Rule := do
  match rule.recipe.make? args with
  | none => .error ⟨.wrongArity rule.name rule.recipe.parameters.length args.length, []⟩
  | some made =>
    let built ← made
    built.validate
    return built

end LibraryRule

end Reshape
