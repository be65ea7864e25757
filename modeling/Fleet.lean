import Fleet.CommandLine.Answer
import Fleet.Config.Override
import Fleet.Config.Read
import Fleet.Config.Write
import Fleet.Main
import Fleet.Proofs.CommandLine.Outcome
import Fleet.Proofs.Execution
import Fleet.Proofs.FanOut.Barrier
import Fleet.Proofs.FanOut.Concurrency
import Fleet.Proofs.FanOut.Joining
import Fleet.Proofs.FileTree.Crew
import Fleet.Proofs.NodeFile.Layout
import Fleet.Proofs.Override.Flags
import Fleet.Proofs.Override.Order
import Fleet.Proofs.Override.Restated
import Fleet.Proofs.Path.Label
import Fleet.Proofs.Path.Stable
import Fleet.Proofs.Plan.Confinement
import Fleet.Proofs.Plan.Contacts
import Fleet.Proofs.Plan.LeaderStep
import Fleet.Proofs.Plan.Logs
import Fleet.Proofs.Plan.Offline
import Fleet.Proofs.Plan.Topology
import Fleet.Proofs.Plan.Transfer
import Fleet.Proofs.RoundTrip
import Fleet.Proofs.Severity
import Fleet.Proofs.Shell.Relay
import Fleet.Rehearsal
import Fleet.Shell
