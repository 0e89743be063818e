import ControlFile.Main
import ControlFile.Proofs.Attribution
import ControlFile.Proofs.Collection
import ControlFile.Proofs.Composition
import ControlFile.Proofs.Interruption
import ControlFile.Proofs.RoundTrip
import ControlFile.Proofs.Actions
import ControlFile.Proofs.Footprint
import ControlFile.Proofs.Partition
import ControlFile.Proofs.Registers
import ControlFile.Proofs.Writability
import ControlFile.Proofs.Versions
import ControlFile.Proofs.Answers
import ControlFile.Proofs.Dispatch
import ControlFile.Proofs.Numerals
import ControlFile.Proofs.States
import ControlFile.Proofs.Environment
import ControlFile.Proofs.Relations
import ControlFile.Proofs.Names
import ControlFile.Proofs.Sharing
