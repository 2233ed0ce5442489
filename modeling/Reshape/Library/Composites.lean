import Reshape.Rule.Basic

/-!
# Rules on composites

One field of a composite, and composites mapped field by field.
-/

namespace Reshape.Library

/-- The value of a field, optional or not. -/
def propType (key : String) : Rule where
  name := "prop_type"
  arms := [
    { pattern := .composite [⟨key, .declared, .bind "value"⟩], body := .capture "value" }]
  terminal := .unmatched

/-- The value of the field that is being mapped. -/
def mappedValue : Template := .capture Captures.valueName

/-- Any composite, bound as `obj`. -/
def anyComposite : Pattern := .named "obj" (.kind .composite)

/-- A rule that maps the fields of a composite; by default nothing changes. -/
def mapped (name : String) (key : Option Template := none) (filter : Option Guard := none)
    (value : Template := mappedValue) (readonly optional : FlagEdit := .keep) : Rule where
  name
  arms := [
    { pattern := anyComposite
      body := .mapFields (.capture "obj") key filter value readonly optional }]

/-- Every value `v` becomes `[v, v, v]`. -/
def mappingTriple : Rule :=
  mapped "mapping_triple" none none
    (.seq [.element mappedValue, .element mappedValue, .element mappedValue])

/-- Keys in upper case. -/
def uppercaseKeys : Rule :=
  mapped "uppercase_keys" (some (.recase .upper (.capture Captures.keyName)))

/-- All fields readonly. -/
def readonly : Rule := mapped "readonly" none none mappedValue .add .keep

/-- All fields optional. -/
def partialFields : Rule := mapped "partial" none none mappedValue .keep .add

/-- No field readonly. -/
def mutable : Rule := mapped "mutable" none none mappedValue .remove .keep

/-- No field optional. -/
def required : Rule := mapped "required" none none mappedValue .keep .remove

/-- Only the fields whose value is fitted by the given type. -/
def filterByValueType (valueType : Term) : Rule :=
  mapped "filter_by_value_type" none (some (.fits (.literal valueType) mappedValue))

/-- All fields readonly, and those of the composites in them. A value behind a
reference may be larger than the reference, so progress is not asked for; the
declarations have no cycles, which bounds the walk. -/
def deepReadonly : Rule where
  name := "deep_readonly"
  arms := [
    { pattern := anyComposite
      body := .mapFields (.capture "obj") none none (.reduce mappedValue) .add .keep }]
  recursion := .bounded

end Reshape.Library
