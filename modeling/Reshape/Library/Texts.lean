import Reshape.Rule.Basic

/-!
# Rules on texts

Affixes, replacement, case, trimming and reversal.
-/

namespace Reshape.Library

/-- The characters that trimming takes off. -/
def blanks : List String := [" ", "\n", "\t"]

/-- Whether the text starts with a literal. -/
def startsWith (literal : String) : Rule where
  name := "starts_with"
  arms := [
    { pattern := .text [.literal [literal], .run none], body := .literal (.bool true) }]
  terminal := .term (.bool false)

/-- A text around a literal, as `prefix` and `suffix`. -/
def aroundLiteral (literal : String) : Pattern :=
  .text [.run (some "prefix"), .literal [literal], .run (some "suffix")]

/-- Replaces the first occurrence of a literal. -/
def replace (literal replacement : String) : Rule where
  name := "replace"
  arms := [
    { pattern := aroundLiteral literal
      body := .text [
        .insert (.capture "prefix"), .literal replacement, .insert (.capture "suffix")] }]
  terminal := .unmatched

/-- Replaces every occurrence of a literal from left to right. Replacements are
not looked at again: only the text after a match is fed back. -/
def replaceAll (literal replacement : String) : Rule where
  name := "replace_all"
  arms := [
    { pattern := aroundLiteral literal
      body := .text [
        .insert (.capture "prefix"), .literal replacement,
        .insert (.reduce (.capture "suffix"))] }]
  recursion := .shrinking

/-- Upper case for the first character. -/
def capitalize : Rule where
  name := "capitalize"
  arms := [
    { pattern := .firstChar (.bind "first") (.bind "rest")
      body := .text [.insert (.recase .upper (.capture "first")), .insert (.capture "rest")] }]

/-- `snake_case_text` becomes `snakeCaseText`. -/
def camelCase : Rule where
  name := "camel_case"
  arms := [
    { pattern := .text [.run (some "left"), .literal ["_"], .run (some "right")]
      body := .text [
        .insert (.capture "left"),
        .insert (.recase .capitalize (.reduce (.capture "right")))] }]
  recursion := .shrinking

/-- Drops every occurrence of a literal at the end. -/
def dropSubstr (literal : String) : Rule where
  name := "drop_substr"
  arms := [
    { pattern := .text [.run (some "prefix"), .literal [literal]]
      body := .reduce (.capture "prefix") }]
  recursion := .shrinking

/-- Drops blanks at the start. -/
def trimLeft : Rule where
  name := "trim_left"
  arms := [
    { pattern := .text [.literal blanks, .run (some "rest")], body := .reduce (.capture "rest") }]
  recursion := .shrinking

/-- Drops blanks at the end. -/
def trimRight : Rule where
  name := "trim_right"
  arms := [
    { pattern := .text [.run (some "rest"), .literal blanks], body := .reduce (.capture "rest") }]
  recursion := .shrinking

/-- Drops blanks at both ends, first at the start. -/
def trim : Rule where
  name := "trim"
  arms := [
    { pattern := .named "text" (.kind .text)
      body := .call trimRight (.call trimLeft (.capture "text")) }]

/-- Puts the characters in the opposite order. -/
def reverseStr : Rule where
  name := "reverse_str"
  arms := [
    { pattern := .firstChar (.bind "first") (.bind "rest")
      body := .text [.insert (.reduce (.capture "rest")), .insert (.capture "first")] }]
  recursion := .shrinking

end Reshape.Library
