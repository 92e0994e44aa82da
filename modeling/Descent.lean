import Descent.Description.Build
import Descent.Feeding
import Descent.Grammar.Demonstration
import Descent.Main
import Descent.Proofs.Built
import Descent.Proofs.Leaves
import Descent.Proofs.Outcome
import Descent.Proofs.Passage
import Descent.Proofs.Advance
import Descent.Proofs.Progress
import Descent.Proofs.Locality
import Descent.Proofs.Course
import Descent.Proofs.Chunks
import Descent.Proofs.Conversation
import Descent.Proofs.Finality
import Descent.Proofs.Answers
import Descent.Proofs.Rows
import Descent.Proofs.Numerals
import Descent.Proofs.Tables
import Descent.Proofs.Documents
import Descent.Proofs.Settling
import Descent.Proofs.Expressions
import Descent.Proofs.Gains
import Descent.Proofs.NumberWords
import Descent.Proofs.Endings
import Descent.Proofs.Streams
import Descent.Proofs.Decoding
import Descent.Proofs.Splitting
import Descent.Proofs.Leftovers
import Descent.Proofs.UserState
import Descent.Proofs.Substitution
import Descent.Proofs.Wording
import Descent.Proofs.NumberTexts
import Descent.Proofs.Spoken
import Descent.Proofs.Waiting
import Descent.Proofs.Openings
import Descent.Proofs.Unfinished
import Descent.Proofs.GivingUp
import Descent.Proofs.Interrupted
import Descent.Proofs.Merging
import Descent.Proofs.Grouping
import Descent.Proofs.Binding
import Descent.Proofs.Lengthening
import Descent.Proofs.Builders
import Descent.Proofs.Iteration
import Descent.Proofs.Separated
import Descent.Proofs.Unterminated
import Descent.Proofs.Matching
import Descent.Proofs.Folding
import Descent.Proofs.Bases
import Descent.Proofs.Suffixes
import Descent.Proofs.Peeking
import Descent.Proofs.Manners
import Descent.Proofs.Starts
import Descent.Proofs.EqualRuns
import Descent.Proofs.UnclosedCells
import Descent.Proofs.Escapes
import Descent.Proofs.Decimals
import Descent.Proofs.LastWords
import Descent.Proofs.Recasing
