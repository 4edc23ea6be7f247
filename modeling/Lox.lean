import Lox.Main
import Lox.Proofs.Grammar.Acceptance
import Lox.Proofs.Printing.RoundTrip
import Lox.Proofs.Source.Joint
import Lox.Proofs.Grammar.Locality
import Lox.Proofs.Evaluation.Hosted
import Lox.Proofs.Session.Interpret
import Lox.Proofs.Session.Pieces
import Lox.Proofs.Evaluation.Chains
import Lox.Proofs.Evaluation.Refinement
import Lox.Proofs.Session.Frames
import Lox.Proofs.Grammar.Forms
import Lox.Proofs.Grammar.Rows
import Lox.Proofs.Session.Escapes
import Lox.Proofs.Session.Trace
import Lox.Proofs.Source.Partition
import Lox.Proofs.Evaluation.Footprint
import Lox.Proofs.Session.Dump
import Lox.Proofs.Session.Order
import Lox.Proofs.Session.Gate
import Lox.Proofs.Session.Renaming
import Lox.Proofs.Session.Parse
import Lox.Proofs.Shell.Arguments
import Lox.Proofs.Shell.File
import Lox.Proofs.Grammar.Segments
import Lox.Proofs.Session.Enclosed
import Lox.Proofs.Session.ForStatement
import Lox.Proofs.Source.Separated
import Lox.Proofs.Evaluation.History
import Lox.Proofs.Shell.Prompt
import Lox.Proofs.Number.Printed
import Lox.Proofs.Evaluation.Equality
import Lox.Proofs.Grammar.Visits
import Lox.Proofs.Grammar.Balance
