import ShellWalk.Host.Bare
import ShellWalk.Json.Printer
import ShellWalk.Limits.Reader
import ShellWalk.Node.Outline
import ShellWalk.Run
import ShellWalk.Tree.Node
import ShellWalk.Proofs.Interference
import ShellWalk.Proofs.Termination
import ShellWalk.Proofs.Transparency
import ShellWalk.Proofs.Faults
import ShellWalk.Proofs.Recast
import ShellWalk.Proofs.Strictness
import ShellWalk.Proofs.Comments
import ShellWalk.Proofs.Checked.Echo
import ShellWalk.Proofs.Checked.Printf
import ShellWalk.Proofs.Checked.Test
import ShellWalk.Proofs.Panics
import ShellWalk.Proofs.Changes
import ShellWalk.Proofs.Written
import ShellWalk.Proofs.Retelling
import ShellWalk.Proofs.Simulation
import ShellWalk.Proofs.ExitCodes
import ShellWalk.Proofs.Image
import ShellWalk.Proofs.Metadata
import ShellWalk.Proofs.Positions
import ShellWalk.Proofs.Rollback
import ShellWalk.Proofs.Unfolding
import ShellWalk.Proofs.Alternatives
import ShellWalk.Proofs.Loops
import ShellWalk.Proofs.Temporary
import ShellWalk.Proofs.Sequences
import ShellWalk.Proofs.Selection
import ShellWalk.Proofs.Recursion
import ShellWalk.Proofs.Conditions
import ShellWalk.Proofs.Numerals
import ShellWalk.Proofs.Comparisons
import ShellWalk.Proofs.Passes
import ShellWalk.Proofs.Spellings
import ShellWalk.Proofs.Padding
import ShellWalk.Proofs.Logging
import ShellWalk.Proofs.Visibility
import ShellWalk.Proofs.Specifiers
import ShellWalk.Proofs.Parameters
