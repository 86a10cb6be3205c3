import BlockSketch.Text.Lines
import BlockSketch.Text.Quoted
import BlockSketch.Text.Substitute
import BlockSketch.Identifier
import BlockSketch.Table
import BlockSketch.Order
import BlockSketch.Statement
import BlockSketch.Kind
import BlockSketch.Block.Basic
import BlockSketch.Block.FieldValue
import BlockSketch.Block.Build
import BlockSketch.Block.Variables
import BlockSketch.Board
import BlockSketch.Finding
import BlockSketch.Block.Code
import BlockSketch.Sketch.Program
import BlockSketch.Main
import BlockSketch.Proofs.Table
import BlockSketch.Proofs.Block.Fold
import BlockSketch.Proofs.Block.Within
import BlockSketch.Proofs.Evaluation.Role
import BlockSketch.Proofs.Evaluation.Plan
import BlockSketch.Proofs.Evaluation.Written
import BlockSketch.Proofs.Evaluation.Perform
import BlockSketch.Proofs.Evaluation.Outcome
import BlockSketch.Proofs.Evaluation.Pass
import BlockSketch.Proofs.Evaluation.Program
import BlockSketch.Proofs.Draft.Steps
import BlockSketch.Proofs.Draft.Log
import BlockSketch.Proofs.Draft.Operations
import BlockSketch.Proofs.Draft.Filed
import BlockSketch.Proofs.Names.Fresh
import BlockSketch.Proofs.Names.Draft
import BlockSketch.Proofs.Draft.Columns
import BlockSketch.Proofs.Names.Allotment
import BlockSketch.Proofs.Compiler.Pure
import BlockSketch.Proofs.Names.Hygiene
import BlockSketch.Proofs.Compiler.Simulation
import BlockSketch.Proofs.Formula.Tokens
import BlockSketch.Proofs.Formula.Grammar
import BlockSketch.Proofs.Formula.Meaning
import BlockSketch.Proofs.Formula.Reading
import BlockSketch.Proofs.Names.Capture
import BlockSketch.Proofs.Calls.Meaning
import BlockSketch.Proofs.Calls.Order
import BlockSketch.Proofs.Calls.Text
import BlockSketch.Proofs.Calls.Reach
import BlockSketch.Proofs.Execution.Trace
import BlockSketch.Proofs.Execution.Selection
import BlockSketch.Proofs.Findings.Doubts
import BlockSketch.Proofs.Findings.Repetition
import BlockSketch.Proofs.Draft.Replay
import BlockSketch.Proofs.Findings.Acceptance
import BlockSketch.Proofs.Evaluation.Again
import BlockSketch.Proofs.Draft.Moved
import BlockSketch.Proofs.Evaluation.Variants
import BlockSketch.Proofs.Evaluation.Faults
import BlockSketch.Proofs.Draft.Setups
import BlockSketch.Proofs.Sketch.Setup
import BlockSketch.Proofs.Block.Anonymous
import BlockSketch.Proofs.Findings.Modes
import BlockSketch.Proofs.Draft.SameCode
import BlockSketch.Proofs.Sketch.Independence
import BlockSketch.Proofs.Sketch.Stacking
import BlockSketch.Proofs.Draft.Growth
import BlockSketch.Proofs.Text.Lines
import BlockSketch.Proofs.Evaluation.Tidy
import BlockSketch.Proofs.Draft.Tidy
import BlockSketch.Proofs.Sketch.Sections
import BlockSketch.Proofs.CommandLine.Delivery
import BlockSketch.Proofs.Draft.Reservations
import BlockSketch.Proofs.Helpers.Synthesis
import BlockSketch.Proofs.Names.Search
import BlockSketch.Proofs.Helpers.Naming
import BlockSketch.Proofs.Draft.SetupCalls
import BlockSketch.Proofs.Names.Supply
