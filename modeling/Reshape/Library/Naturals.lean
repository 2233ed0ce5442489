import Reshape.Rule.Basic

/-!
# Natural numbers as sequences

A number `n` is a sequence of `n` placeholders, and a rule computes with numbers
by building, peeling and counting such sequences. Integer atoms are the inputs,
and lengths are the results.

A rule with two operands takes the pair `[a, b]`. What it accumulates is threaded
through the same rule as a longer tuple, so the arm that starts and those that
loop never both match. No accumulator reaches a negative number: a rule that counts
up to one runs into the limits. `greater_than` counts up to either of its operands, so
one that is not negative ends it.
-/

namespace Reshape.Library

/-- A sequence template of single elements. -/
def tupleOf (items : List Template) : Template := .seq (items.map .element)

/-- Feeds a tuple back into the rule. -/
def loop (items : List Template) : Template := .reduce (tupleOf items)

def emptySeq : Template := .literal (.seq [])

/-- One element of a number. -/
def tally : SeqItem Template := .element (.literal .unknown)

/-- Whether a captured sequence has as many elements as a captured atom says. -/
def lengthIs (items number : String) : Guard :=
  .equal (.length (.capture items)) (.capture number)

/-- Repeats an element as often as the input says. -/
def repeated (name : String) (element : Term) : Rule where
  name
  arms := [
    { pattern := .named "n" (.kind .atom), body := loop [.capture "n", emptySeq] },
    { pattern := .tuple [.bind "n", .bind "acc"]
      guard := some (lengthIs "acc" "n")
      body := .capture "acc" },
    { pattern := .tuple [.bind "n", .bind "acc"]
      body := loop [
        .capture "n", .seq [.splice (.capture "acc"), .element (.literal element)]] }]
  terminal := .unmatched
  recursion := .bounded

/-- `n` becomes a sequence of `n` placeholders. -/
def toUnary : Rule := repeated "to_unary" .unknown

/-- `n` becomes a sequence of `n` copies of an element. -/
def buildArray (element : Term) : Rule := repeated "build_array" element

/-- The captured number as a sequence. -/
def asUnary (name : String) : Template := .call toUnary (.capture name)

/-- Takes one element off both sides until the second is empty; what is left of
the first is the difference. -/
def peel : Rule where
  name := "peel"
  arms := [
    { pattern := .tuple [.head .any (.bind "a"), .head .any (.bind "b")]
      body := loop [.capture "a", .capture "b"] },
    { pattern := .tuple [.bind "rest", .tuple []], body := .capture "rest" }]
  terminal := .undefined "subtrahend exceeds minuend"
  recursion := .shrinking

/-- The operands of a rule. -/
def pair : Pattern := .tuple [.bind "a", .bind "b"]

/-- `a + b` -/
def add : Rule where
  name := "add"
  arms := [
    { pattern := pair, body := .length (.seq [.splice (asUnary "a"), .splice (asUnary "b")]) }]
  terminal := .unmatched

/-- `a - b`, undefined if `b` is greater. -/
def subtract : Rule where
  name := "subtract"
  arms := [
    { pattern := pair, body := .length (.call peel (tupleOf [asUnary "a", asUnary "b"])) }]
  terminal := .unmatched

/-- `a * b`: puts `a` in front of an accumulator `b` times. -/
def multiply : Rule where
  name := "multiply"
  arms := [
    { pattern := pair, body := loop [asUnary "a", asUnary "b", emptySeq] },
    { pattern := .tuple [.any, .tuple [], .bind "acc"], body := .length (.capture "acc") },
    { pattern := .tuple [.bind "a", .bind "b", .bind "acc"]
      body := loop [
        .capture "a",
        .call peel (tupleOf [.capture "b", .seq [tally]]),
        .seq [.splice (.capture "a"), .splice (.capture "acc")]] }]
  terminal := .unmatched
  recursion := .bounded

/-- `a / b`: counts how often `b` can be taken off `a`. Dividing by zero and
division with a remainder are undefined. -/
def divide : Rule where
  name := "divide"
  arms := [
    { pattern := pair, body := loop [asUnary "a", asUnary "b", emptySeq] },
    { pattern := .tuple [.any, .tuple [], .any], body := .undefined "division by zero" },
    { pattern := .tuple [.tuple [], .any, .bind "count"], body := .length (.capture "count") },
    { pattern := .tuple [.bind "a", .bind "b", .bind "count"]
      body := loop [
        .call peel (tupleOf [.capture "a", .capture "b"]),
        .capture "b",
        .seq [tally, .splice (.capture "count")]] }]
  terminal := .unmatched
  recursion := .bounded

/-- Whether `a` is greater than `b`: counts up until one of them is reached. -/
def greaterThan : Rule where
  name := "greater_than"
  arms := [
    { pattern := pair, body := loop [.capture "a", .capture "b", emptySeq] },
    { pattern := counting
      guard := some (.equal (.capture "a") (.capture "b"))
      body := .literal (.bool false) },
    { pattern := counting, guard := some (lengthIs "count" "b"), body := .literal (.bool true) },
    { pattern := counting, guard := some (lengthIs "count" "a"), body := .literal (.bool false) },
    { pattern := counting
      body := loop [
        .capture "a", .capture "b", .seq [tally, .splice (.capture "count")]] }]
  terminal := .unmatched
  recursion := .bounded
where
  counting : Pattern := .tuple [.bind "a", .bind "b", .bind "count"]

/-- The Fibonacci number with index `n`: `0` for `0`, then `1, 1, 2, 3, 5, …`. The
tuple is `[previous, current, index, n]`. -/
def fibonacci : Rule where
  name := "fibonacci"
  arms := [
    { pattern := .named "n" (.kind .atom)
      body := loop [.seq [tally], emptySeq, emptySeq, .capture "n"] },
    { pattern := .tuple [.any, .bind "current", .bind "index", .bind "n"]
      guard := some (lengthIs "index" "n")
      body := .length (.capture "current") },
    { pattern := .tuple [.bind "previous", .bind "current", .bind "index", .bind "n"]
      body := loop [
        .capture "current",
        .seq [.splice (.capture "previous"), .splice (.capture "current")],
        .seq [.splice (.capture "index"), tally],
        .capture "n"] }]
  terminal := .unmatched
  recursion := .bounded

/-- The number of characters of a text. -/
def strLen : Rule where
  name := "str_len"
  arms := [
    { pattern := .named "text" (.kind .text), body := loop [.capture "text", emptySeq] },
    { pattern := .tuple [.firstChar .any (.bind "rest"), .bind "count"]
      body := loop [.capture "rest", .seq [tally, .splice (.capture "count")]] },
    { pattern := .tuple [.any, .bind "count"], body := .length (.capture "count") }]
  terminal := .unmatched
  recursion := .bounded

end Reshape.Library
