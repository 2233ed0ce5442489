import Reshape.Arithmetic
import Reshape.Assignable
import Reshape.Captures
import Reshape.Declarations.Basic
import Reshape.Declarations.Cycle
import Reshape.Engine
import Reshape.Expect
import Reshape.Failure
import Reshape.Instantiation
import Reshape.Library.Catalog
import Reshape.Library.Composites
import Reshape.Library.Naturals
import Reshape.Library.Sequences
import Reshape.Library.Signatures
import Reshape.Library.Texts
import Reshape.Pattern.Basic
import Reshape.Pattern.Cut
import Reshape.Pattern.Equality
import Reshape.Pattern.Match
import Reshape.Proofs.Arithmetic.Fibonacci
import Reshape.Proofs.Arithmetic.Operations
import Reshape.Proofs.Arithmetic.Products
import Reshape.Proofs.Arithmetic.Sums
import Reshape.Proofs.Captures.Consistency
import Reshape.Proofs.Declarations.Acyclic
import Reshape.Proofs.Declarations.Aliases
import Reshape.Proofs.Declarations.Assignability
import Reshape.Proofs.Declarations.Counts
import Reshape.Proofs.Declarations.Cycles
import Reshape.Proofs.Declarations.Equivalence
import Reshape.Proofs.Declarations.Expansion
import Reshape.Proofs.Declarations.Fitting
import Reshape.Proofs.Declarations.Normal
import Reshape.Proofs.Declarations.Ordering
import Reshape.Proofs.Engine.Acyclic
import Reshape.Proofs.Engine.Contracts
import Reshape.Proofs.Engine.Memo
import Reshape.Proofs.Engine.Operations
import Reshape.Proofs.Library.CamelCase
import Reshape.Proofs.Library.Contracts
import Reshape.Proofs.Library.Counting
import Reshape.Proofs.Library.DeepReadonly
import Reshape.Proofs.Library.Encoding
import Reshape.Proofs.Library.Equality
import Reshape.Proofs.Library.Expansion
import Reshape.Proofs.Library.Filtering
import Reshape.Proofs.Library.Likeness
import Reshape.Proofs.Library.Lockstep
import Reshape.Proofs.Library.Pairing
import Reshape.Proofs.Library.Products
import Reshape.Proofs.Library.Recipes
import Reshape.Proofs.Library.Replacement
import Reshape.Proofs.Library.Reversal
import Reshape.Proofs.Library.Signatures
import Reshape.Proofs.Library.Trimming
import Reshape.Proofs.Library.Unary
import Reshape.Proofs.Library.UppercaseKeys
import Reshape.Proofs.Pattern.Binding
import Reshape.Proofs.Pattern.Choices
import Reshape.Proofs.Pattern.Cut
import Reshape.Proofs.Pattern.Ends
import Reshape.Proofs.Pattern.Equality
import Reshape.Proofs.Pattern.Expansion
import Reshape.Proofs.Pattern.Gathering
import Reshape.Proofs.Pattern.Hereditary
import Reshape.Proofs.Pattern.Likeness
import Reshape.Proofs.Pattern.Names
import Reshape.Proofs.Pattern.Normal
import Reshape.Proofs.Pattern.References
import Reshape.Proofs.Pattern.Resemblance
import Reshape.Proofs.Pattern.Scope
import Reshape.Proofs.Pattern.Sizes
import Reshape.Proofs.Pattern.Visits
import Reshape.Proofs.Reduction.Accounting
import Reshape.Proofs.Reduction.Conclusion
import Reshape.Proofs.Reduction.Conditions
import Reshape.Proofs.Reduction.Contracts
import Reshape.Proofs.Reduction.Descent
import Reshape.Proofs.Reduction.Determinism
import Reshape.Proofs.Reduction.Equality
import Reshape.Proofs.Reduction.Fuel
import Reshape.Proofs.Reduction.Hereditary
import Reshape.Proofs.Reduction.Levels
import Reshape.Proofs.Reduction.Limits
import Reshape.Proofs.Reduction.Lockstep
import Reshape.Proofs.Reduction.Loops
import Reshape.Proofs.Reduction.Memo
import Reshape.Proofs.Reduction.Mirror
import Reshape.Proofs.Reduction.Nesting
import Reshape.Proofs.Reduction.Results
import Reshape.Proofs.Reduction.Settling
import Reshape.Proofs.Reduction.Termination
import Reshape.Proofs.Reduction.Trails
import Reshape.Proofs.Reduction.Validated
import Reshape.Proofs.Rule.Contracts
import Reshape.Proofs.Rule.Normal
import Reshape.Proofs.Rule.Parts
import Reshape.Proofs.Rule.Validity
import Reshape.Proofs.Template.Calls
import Reshape.Proofs.Template.Contracts
import Reshape.Proofs.Template.Folding
import Reshape.Proofs.Template.Hereditary
import Reshape.Proofs.Template.Instantiation
import Reshape.Proofs.Template.Likeness
import Reshape.Proofs.Template.Mapping
import Reshape.Proofs.Template.Rebuilding
import Reshape.Proofs.Template.Requests
import Reshape.Proofs.Template.Simulation
import Reshape.Proofs.Term.Equality
import Reshape.Proofs.Term.Fields
import Reshape.Proofs.Term.Flags
import Reshape.Proofs.Term.Induction
import Reshape.Proofs.Term.Insertion
import Reshape.Proofs.Term.Normal
import Reshape.Proofs.Term.Outline
import Reshape.Proofs.Term.References
import Reshape.Proofs.Term.Size
import Reshape.Proofs.Term.Substitution
import Reshape.Proofs.Text.Case
import Reshape.Proofs.Text.Occurrence
import Reshape.Proofs.Text.Scan
import Reshape.Reduction.Frames
import Reshape.Reduction.Memo
import Reshape.Reduction.Meter
import Reshape.Reduction.Session
import Reshape.Reduction.Step
import Reshape.Rule.Basic
import Reshape.Rule.Equality
import Reshape.Rule.Validity
import Reshape.Table
import Reshape.Template.Build
import Reshape.Template.Plan
import Reshape.Term.Basic
import Reshape.Term.Composite
import Reshape.Term.Digest
import Reshape.Term.Display
import Reshape.Term.Equality
import Reshape.Text.Affix
import Reshape.Text.Case
import Reshape.Text.CaseTable
import Reshape.Text.Properties
