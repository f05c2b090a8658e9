import CheckGate.Main
import CheckGate.Session
import CheckGate.Proofs.Executor
import CheckGate.Proofs.Gate
import CheckGate.Proofs.Shell.Split
import CheckGate.Proofs.Delimiter
import CheckGate.Proofs.Shell.Scan
import CheckGate.Proofs.Shell.Active
import CheckGate.Proofs.Rounding
import CheckGate.Proofs.Elapsed
import CheckGate.Proofs.Ending
import CheckGate.Proofs.RunReport.Faithful
import CheckGate.Proofs.Script
import CheckGate.Proofs.Session
import CheckGate.Proofs.Host.Executable
import CheckGate.Proofs.Host.Console
import CheckGate.Proofs.Host.Attempt
import CheckGate.Proofs.Host.Input
import CheckGate.Proofs.Host.SharedInput
import CheckGate.Proofs.RunReport.LineBreaks
import CheckGate.Proofs.RunReport.Printed
import CheckGate.Proofs.Outcome
import CheckGate.Proofs.JoinedGates
import CheckGate.Proofs.ReorderedGates
import CheckGate.Proofs.MeasuredTimes
import CheckGate.Proofs.RunReport.Totals
import CheckGate.Proofs.CommandLine
import CheckGate.Proofs.Utf8
import CheckGate.Proofs.Arguments
