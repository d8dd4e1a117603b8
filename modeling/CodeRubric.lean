import CodeRubric.Tree.Equality
import CodeRubric.Tree.Layers
import CodeRubric.Json.Printer
import CodeRubric.Tree.Encoding
import CodeRubric.Analysis.Json
import CodeRubric.Rubric.Load
import CodeRubric.Proofs.Tree.Occurrence
import CodeRubric.Proofs.Tree.Replacement
import CodeRubric.Proofs.Scope.Transitive
import CodeRubric.Proofs.Scope.Intransitive
import CodeRubric.Proofs.Inspection.Covering
import CodeRubric.Proofs.Scope.Hiding
import CodeRubric.Proofs.Expectation.Spelling
import CodeRubric.Proofs.Scope.Widening
import CodeRubric.Proofs.Expectation.Loosening
import CodeRubric.Proofs.Expectation.Grammar
import CodeRubric.Proofs.Decimal.Text
import CodeRubric.Proofs.Expectation.Skeleton
import CodeRubric.Proofs.Json.Text
import CodeRubric.Proofs.Tree.RoundTrip
import CodeRubric.Proofs.Tree.Generations
import CodeRubric.Proofs.Tree.PreOrder
import CodeRubric.Proofs.Tree.Shallow
import CodeRubric.Proofs.Tree.Surface
import CodeRubric.Proofs.Expectation.Statements
import CodeRubric.Proofs.Inspection.Containment
import CodeRubric.Proofs.Expectation.Negation
import CodeRubric.Proofs.Scope.Composition
import CodeRubric.Proofs.Expectation.Composite
import CodeRubric.Proofs.Expectation.Recursion
import CodeRubric.Proofs.Scope.Spelling
import CodeRubric.Proofs.Name.Conventions
import CodeRubric.Proofs.Name.Styles
import CodeRubric.Proofs.Name.Segmentation
import CodeRubric.Proofs.Name.Likeness
import CodeRubric.Proofs.Analysis.Truncation
import CodeRubric.Proofs.Tree.Layout
import CodeRubric.Proofs.Json.Fields
import CodeRubric.Proofs.Rubric.Forms
