import Reshape.Rule.Basic

/-!
# Rules on sequences

Elements at the ends, joining, pairing, reversing, searching and filtering.
Elements count as equal to a given term when the two fit each other.
-/

namespace Reshape.Library

/-- `[first, ...]` gives `first`. -/
def first : Rule where
  name := "first"
  arms := [{ pattern := .head (.bind "first") .any, body := .capture "first" }]
  terminal := .unmatched

/-- `[..., last]` gives `last`. -/
def last : Rule where
  name := "last"
  arms := [{ pattern := .tail .any (.bind "last"), body := .capture "last" }]
  terminal := .unmatched

/-- `[_, ...middle, _]` gives `middle`. -/
def slice : Rule where
  name := "slice"
  arms := [{ pattern := .slice [.any] (.bind "middle") [.any], body := .capture "middle" }]
  terminal := .unmatched

/-- Appends an item. -/
def push (item : Term) : Rule where
  name := "push"
  arms := [
    { pattern := .named "items" (.kind .seq)
      body := .seq [.splice (.capture "items"), .element (.literal item)] }]
  terminal := .unmatched

/-- Puts an item in front. -/
def unshift (item : Term) : Rule where
  name := "unshift"
  arms := [
    { pattern := .named "items" (.kind .seq)
      body := .seq [.element (.literal item), .splice (.capture "items")] }]
  terminal := .unmatched

/-- Pairs the elements of two sequences of one length. -/
def zipPairs : Rule where
  name := "zip_pairs"
  arms := [
    { pattern := .tuple [.head (.bind "x") (.bind "xs"), .head (.bind "y") (.bind "ys")]
      body := .seq [
        .element (.seq [.element (.capture "x"), .element (.capture "y")]),
        .splice (.reduce (.seq [.element (.capture "xs"), .element (.capture "ys")]))] }]
  terminal := .term (.seq [])
  recursion := .shrinking

/-- Pairs the elements of the input with those of another sequence. Sequences of
different lengths give `[]`. -/
def zip (other : List Term) : Rule where
  name := "zip"
  arms := [
    { pattern := .named "left" (.kind .seq)
      guard := some (.equal (.length (.capture "left")) (.literal (.count other.length)))
      body := .call zipPairs
        (.seq [.element (.capture "left"), .element (.literal (.seq other))]) },
    { pattern := .kind .seq, body := .literal (.seq []) }]
  terminal := .unmatched

/-- Puts the elements in the opposite order. -/
def reverse : Rule where
  name := "reverse"
  arms := [
    { pattern := .tail (.bind "init") (.bind "last")
      body := .seq [.element (.capture "last"), .splice (.reduce (.capture "init"))] }]
  recursion := .shrinking

/-- Whether some element equals the target. -/
def includes (target : Term) : Rule where
  name := "includes"
  arms := [
    { pattern := .head (.bind "first") .any
      guard := some (.equal (.capture "first") (.literal target))
      body := .literal (.bool true) },
    { pattern := .head .any (.bind "rest"), body := .reduce (.capture "rest") }]
  terminal := .term (.bool false)
  recursion := .shrinking

/-- Moves the elements of `[items, kept]` that differ from the item from `items`
to the end of `kept`. -/
def removeAllInto (item : Term) : Rule where
  name := "remove_all_into"
  arms := [
    { pattern := .tuple [.head (.bind "first") (.bind "rest"), .bind "kept"]
      guard := some (.equal (.capture "first") (.literal item))
      body := .reduce (.seq [.element (.capture "rest"), .element (.capture "kept")]) },
    { pattern := .tuple [.head (.bind "first") (.bind "rest"), .bind "kept"]
      body := .reduce (.seq [
        .element (.capture "rest"),
        .element (.seq [.splice (.capture "kept"), .element (.capture "first")])]) },
    { pattern := .tuple [.tuple [], .bind "kept"], body := .capture "kept" }]
  recursion := .bounded

/-- Drops the elements that equal the item. -/
def removeAll (item : Term) : Rule where
  name := "remove_all"
  arms := [
    { pattern := .named "items" (.kind .seq)
      body := .call (removeAllInto item)
        (.seq [.element (.capture "items"), .element (.literal (.seq []))]) }]
  terminal := .unmatched

end Reshape.Library
