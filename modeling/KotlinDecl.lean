import KotlinDecl.Draft
import KotlinDecl.Folding.Values
import KotlinDecl.Log
import KotlinDecl.ModifierSet.Run
import KotlinDecl.Notice
import KotlinDecl.Proofs.Balance
import KotlinDecl.Proofs.CodeBlock.Composition
import KotlinDecl.Proofs.CodeBlock.Language
import KotlinDecl.Proofs.CodeBlock.Parsing
import KotlinDecl.Proofs.Copying
import KotlinDecl.Proofs.Drafting
import KotlinDecl.Proofs.Edit
import KotlinDecl.Proofs.Format
import KotlinDecl.Proofs.Forms
import KotlinDecl.Proofs.Induction
import KotlinDecl.Proofs.Layout.Frame
import KotlinDecl.Proofs.Layout.Indentation
import KotlinDecl.Proofs.Layout.Laws
import KotlinDecl.Proofs.Layout.Lines
import KotlinDecl.Proofs.Layout.Pieces
import KotlinDecl.Proofs.Layout.Steady
import KotlinDecl.Proofs.Rendering
import KotlinDecl.Proofs.Restoring
import KotlinDecl.Proofs.Results
import KotlinDecl.Proofs.Sorts
import KotlinDecl.Proofs.Steps
import KotlinDecl.Proofs.TypeDecl.Body
import KotlinDecl.Proofs.TypeDecl.Consistency
import KotlinDecl.Proofs.TypeDecl.Members
import KotlinDecl.Proofs.TypeDecl.Steps
import KotlinDecl.Proofs.TypeDecl.Superinterfaces
import KotlinDecl.Proofs.Writer
import KotlinDecl.Settings.Session
import KotlinDecl.TypeDecl.Build
import KotlinDecl.Writer.Command
import KotlinDecl.Proofs.CodeBlock.Pairing
import KotlinDecl.Proofs.Layout.Scopes
import KotlinDecl.Proofs.ModifierOrder
import KotlinDecl.Proofs.TypeDecl.Unread
import KotlinDecl.Proofs.TypeDecl.Expecting
import KotlinDecl.Proofs.TypeDecl.Facets
import KotlinDecl.Proofs.MarkerFaults
import KotlinDecl.Proofs.TypeDecl.Inlining
import KotlinDecl.Proofs.TypeDecl.FoldedContent
import KotlinDecl.Proofs.TypeDecl.Functions
import KotlinDecl.Proofs.Failures.Basic
import KotlinDecl.Proofs.Failures.Pieces
import KotlinDecl.Proofs.Failures.Values
import KotlinDecl.Proofs.Failures.Calls
import KotlinDecl.Proofs.Atomicity
import KotlinDecl.Proofs.FormatFaults
import KotlinDecl.Proofs.TypeDecl.Delegation
import KotlinDecl.Proofs.TypeDecl.Initializers
import KotlinDecl.Proofs.CodeBlock.Equality
import KotlinDecl.Proofs.Brackets.Declarations
import KotlinDecl.Proofs.Writer.Lines
import KotlinDecl.Proofs.TypeName.Lookup
import KotlinDecl.Proofs.TypeDecl.Implementing
import KotlinDecl.Proofs.FunDecl.Signature
import KotlinDecl.Proofs.Text.Literal
import KotlinDecl.Proofs.Writer.Comments
import KotlinDecl.Proofs.Folding.Values
import KotlinDecl.Proofs.Layout.Comments
import KotlinDecl.Proofs.TypeName.Bounds
import KotlinDecl.Proofs.TypeDecl.Supertypes
import KotlinDecl.Proofs.Layout.Lockstep
import KotlinDecl.Proofs.TypeDecl.InitBlocks
import KotlinDecl.Proofs.TypeDecl.WhereClause
import KotlinDecl.Proofs.CodeBlock.ControlFlow
import KotlinDecl.Proofs.PropertyDecl.Mutability
import KotlinDecl.Proofs.TypeName.Guessing
import KotlinDecl.Proofs.ModifierSet.Arrivals
import KotlinDecl.Proofs.Settings.Override
import KotlinDecl.Proofs.TypeName.OneLine
