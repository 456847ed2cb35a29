import Datapath.Main
import Datapath.Proofs.Cleaning
import Datapath.Proofs.ControlLines
import Datapath.Proofs.Drivers
import Datapath.Proofs.EncodedStep
import Datapath.Proofs.ForwardProgram
import Datapath.Proofs.MemorySize
import Datapath.Proofs.NamePattern
import Datapath.Proofs.Refinement
import Datapath.Proofs.Rejection
import Datapath.Proofs.RunningFlag
import Datapath.Proofs.SourceLayout
import Datapath.Proofs.Watchpoint
import Datapath.Proofs.WordMap
