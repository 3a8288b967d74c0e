import TouchGame.Check.Validation
import TouchGame.Play.Report
import TouchGame.Proofs.Check.Bounds
import TouchGame.Proofs.Check.Faults
import TouchGame.Proofs.Check.Locations
import TouchGame.Proofs.Check.Opposition
import TouchGame.Proofs.Check.Player
import TouchGame.Proofs.Check.Resolution
import TouchGame.Proofs.Check.Sections
import TouchGame.Proofs.Number.Rounding
import TouchGame.Proofs.Play.Attendance
import TouchGame.Proofs.Play.Choice
import TouchGame.Proofs.Play.Clashes
import TouchGame.Proofs.Play.Enlargement
import TouchGame.Proofs.Play.Fewest
import TouchGame.Proofs.Play.Gap
import TouchGame.Proofs.Play.Instant
import TouchGame.Proofs.Play.Redeclared
import TouchGame.Proofs.Play.Refired
import TouchGame.Proofs.Play.Renamed
import TouchGame.Proofs.Play.Runs
import TouchGame.Proofs.Play.Steady
import TouchGame.Proofs.Play.Totality
import TouchGame.Proofs.Play.Trimming
import TouchGame.Proofs.Play.Verdict
import TouchGame.Proofs.Reordering.Validation
import TouchGame.Proofs.Repair.AnyOrder
import TouchGame.Proofs.Repair.Cycles
import TouchGame.Proofs.Repair.Fences
import TouchGame.Proofs.Repair.Idempotent
import TouchGame.Proofs.Repair.Invention
import TouchGame.Proofs.Repair.Reported
import TouchGame.Proofs.Repair.Returns
import TouchGame.Proofs.Signature.Trigger
import TouchGame.Proofs.Wire.Roundtrip
import TouchGame.Repair.Cycle
import TouchGame.Repair.Service
