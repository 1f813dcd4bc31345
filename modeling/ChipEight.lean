import ChipEight.Headless
import ChipEight.Proofs.Erasure
import ChipEight.Proofs.Faults
import ChipEight.Proofs.MemoryHistory
import ChipEight.Proofs.Resumption
import ChipEight.Proofs.SkippedWords
import ChipEight.Proofs.TimeSlices
import ChipEight.Proofs.Unattended
import ChipEight.Proofs.Unseen
import ChipEight.Value.Json
import ChipEight.Web.Session
import ChipEight.Web.Standard
import ChipEight.Proofs.Beeps
import ChipEight.Proofs.ModeChanges
import ChipEight.Proofs.RefusedRequests
import ChipEight.Proofs.SessionCounters
import ChipEight.Proofs.CallStack
import ChipEight.Proofs.Drawings
import ChipEight.Proofs.FatalFaults
import ChipEight.Proofs.RegisterArithmetic
import ChipEight.Proofs.Transfers
import ChipEight.Proofs.StepLimits
import ChipEight.Proofs.KeyWaits
import ChipEight.Proofs.LoadRequests
