import StringRewriting.Main
import StringRewriting.Proofs.Exploration.Discovery
import StringRewriting.Proofs.Exploration.Observation
import StringRewriting.Walk
import StringRewriting.Proofs.Exploration.Trace
import StringRewriting.Proofs.Exploration.Course
import StringRewriting.Proofs.Exploration.Cutting
import StringRewriting.Proofs.Exploration.Levels
import StringRewriting.Proofs.Exploration.Reachability
import StringRewriting.Proofs.Exploration.WordLimit
import StringRewriting.Proofs.Exploration.DepthBound
import StringRewriting.Proofs.Text.Lines
import StringRewriting.Proofs.Grammar.RuleLine
import StringRewriting.Proofs.Grammar.Reading
import StringRewriting.Proofs.Grammar.Printing
import StringRewriting.Proofs.Grammar.RoundTrip
import StringRewriting.Proofs.Exploration.Agreement
import StringRewriting.Proofs.Exploration.Derivation
import StringRewriting.Proofs.Exploration.Timing
import StringRewriting.Proofs.Text.Quoted
import StringRewriting.Proofs.Exploration.Frontier
import StringRewriting.Proofs.CommandLine.Output
import StringRewriting.Proofs.Exploration.Lockstep
import StringRewriting.Proofs.Exploration.Renaming
import StringRewriting.Proofs.Exploration.RuleSets
import StringRewriting.Proofs.Exploration.InertChanges
import StringRewriting.Proofs.Exploration.Termination
import StringRewriting.Proofs.CommandLine.ClosedOutput
import StringRewriting.Proofs.Exploration.Ancestry
import StringRewriting.Proofs.Grammar.Reprinting
import StringRewriting.Proofs.Successors
import StringRewriting.Proofs.Cursors
import StringRewriting.Proofs.Exploration.Declarations
import StringRewriting.Proofs.Exploration.Standing
import StringRewriting.Proofs.CommandLine.Spelling
import StringRewriting.Proofs.Boundaries
import StringRewriting.Proofs.Grammar.LineReader
import StringRewriting.Proofs.CommandLine.Warnings
