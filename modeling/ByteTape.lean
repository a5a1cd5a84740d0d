import ByteTape.Cli.Session
import ByteTape.Main
import ByteTape.Proofs.Block.Refinement
import ByteTape.Proofs.Checked.Machine
import ByteTape.Proofs.Machine.Resume
import ByteTape.Volume
import ByteTape.Proofs.Bracket.Diagnosis
import ByteTape.Proofs.Machine.Mode
import ByteTape.Proofs.Bracket.Comment
import ByteTape.Proofs.Machine.Comment
import ByteTape.Proofs.Tape.Refinement
import ByteTape.Proofs.Machine.Bound
import ByteTape.Proofs.Machine.Delivery
import ByteTape.Proofs.Machine.Failure
import ByteTape.Proofs.Machine.Input
import ByteTape.Proofs.Machine.Itinerary
import ByteTape.Proofs.Machine.Replay
import ByteTape.Proofs.Cli.Options
import ByteTape.Proofs.Cli.Session
import ByteTape.Proofs.Bracket.Pair
import ByteTape.Proofs.Listing
import ByteTape.Proofs.Cli.Disassembly
import ByteTape.Proofs.Cli.Interference
import ByteTape.Proofs.Listing.Nesting
import ByteTape.Proofs.Source.Lines
import ByteTape.Proofs.Machine.Transfer
import ByteTape.Proofs.Machine.Progress
import ByteTape.Proofs.Machine.Calls
import ByteTape.Proofs.Machine.Tally
import ByteTape.Proofs.Cli.Stepping
import ByteTape.Proofs.Record
