import ShiftBarrier.CommandLine.Directory
import ShiftBarrier.Evaluator
import ShiftBarrier.Main
import ShiftBarrier.Proofs.Editing
import ShiftBarrier.Proofs.Barrier.Errors
import ShiftBarrier.Proofs.Barrier.Reparsing
import ShiftBarrier.Proofs.Barrier.Managing
import ShiftBarrier.Proofs.Barrier.Repetition
import ShiftBarrier.Proofs.Barrier.Sharing
import ShiftBarrier.Proofs.Barrier.Spelling
import ShiftBarrier.Proofs.Barrier.Values
import ShiftBarrier.Proofs.BitVectors
import ShiftBarrier.Proofs.CommandLine
import ShiftBarrier.Proofs.DefUse
import ShiftBarrier.Proofs.Grammar
import ShiftBarrier.Proofs.Listing.Diagnosis
import ShiftBarrier.Proofs.Listing.Fidelity
import ShiftBarrier.Proofs.Listing.Pattern
import ShiftBarrier.Proofs.Nesting
import ShiftBarrier.Proofs.Numbering
import ShiftBarrier.Proofs.Objects
import ShiftBarrier.Proofs.Operations
import ShiftBarrier.Proofs.Rereading
import ShiftBarrier.Proofs.Scoping
import ShiftBarrier.Proofs.Serving
import ShiftBarrier.Proofs.SingleDefinition
import ShiftBarrier.Proofs.Spacing.Edit
import ShiftBarrier.Proofs.Supplying
import ShiftBarrier.Proofs.Typing
import ShiftBarrier.Proofs.Zeros
