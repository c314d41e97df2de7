import FieldScript.Config
import FieldScript.Session
import FieldScript.Report
import FieldScript.Syntax.Same
import FieldScript.Syntax.Unplaced
import FieldScript.Proofs.Progress
import FieldScript.Proofs.Trace
import FieldScript.Proofs.Runs
import FieldScript.Proofs.Scopes
import FieldScript.Proofs.Balance
import FieldScript.Proofs.BlockExit
import FieldScript.Proofs.Sessions
import FieldScript.Proofs.Natives
import FieldScript.Proofs.Unwinding
import FieldScript.Proofs.NestedFailure
import FieldScript.Proofs.MissedRead
import FieldScript.Proofs.Emits
import FieldScript.Proofs.Timeline
import FieldScript.Proofs.FieldExistence
import FieldScript.Proofs.ScopeDiscipline
import FieldScript.Proofs.CallHistory
import FieldScript.Proofs.ScopeTable
import FieldScript.Proofs.InStep
import FieldScript.Proofs.AlikeHosts
import FieldScript.Proofs.AlikeNatives
import FieldScript.Proofs.Composition
import FieldScript.Proofs.Fallback
import FieldScript.Proofs.Inclusion
import FieldScript.Proofs.Unplaced
import FieldScript.Proofs.Purity
import FieldScript.Proofs.Faults
import FieldScript.Proofs.Identity
import FieldScript.Proofs.Copies
import FieldScript.Proofs.RunLog
import FieldScript.Proofs.Signature
import FieldScript.Proofs.Positions
import FieldScript.Proofs.Extracts
import FieldScript.Proofs.Variables
import FieldScript.Proofs.OneLevel
import FieldScript.Proofs.SignsOfZero
import FieldScript.Proofs.Colors
import FieldScript.Proofs.FieldOrder
import FieldScript.Proofs.Strictness
