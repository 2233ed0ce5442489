import Reshape.Rule.Basic

/-!
# Rules on signatures and promises

The parts of call and construct signatures, a further parameter, and the value
inside a promise.
-/

namespace Reshape.Library

/-- One part of a signature of the given kind, bound by its pattern as `part`. -/
def partOfSignature (name : String) (kind : SignatureKind) (params result : Pattern) : Rule where
  name
  arms := [{ pattern := .function kind none params result, body := .capture "part" }]
  terminal := .unmatched

/-- The parameters of a call signature. -/
def parameters : Rule := partOfSignature "parameters" .call (.bind "part") .any

/-- The result of a call signature. -/
def returnType : Rule := partOfSignature "return_type" .call .any (.bind "part")

/-- The parameters of a construct signature. -/
def constructorParameters : Rule :=
  partOfSignature "constructor_parameters" .construct (.bind "part") .any

/-- What a construct signature makes. -/
def instanceType : Rule := partOfSignature "instance_type" .construct .any (.bind "part")

/-- The receiver of a call signature; `unknown` if it has none. -/
def thisParameter : Rule where
  name := "this_parameter"
  arms := [
    { pattern := .function .call (some (.bind "this")) .any .any, body := .capture "this" }]
  terminal := .unmatched

/-- Adds a last parameter to a call signature. -/
def appendArgument (arg : Term) : Rule where
  name := "append_argument"
  arms := [
    { pattern := .function .call none (.bind "params") (.bind "ret")
      body := .function .call none
        (.seq [.splice (.capture "params"), .element (.literal arg)]) (.capture "ret") }]
  terminal := .unmatched

/-- `Promise<value>` with the value bound. -/
def promise : Pattern := .apply "Promise" [.bind "value"]

/-- The value of a promise. -/
def promiseValue : Rule where
  name := "promise_value"
  arms := [{ pattern := promise, body := .capture "value" }]
  terminal := .unmatched

/-- The innermost value of nested promises. -/
def deepPromise : Rule where
  name := "deep_promise"
  arms := [{ pattern := promise, body := .reduce (.capture "value") }]
  recursion := .shrinking

end Reshape.Library
