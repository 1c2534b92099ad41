import MetricUnits.Main
import MetricUnits.Proofs.Construction
import MetricUnits.Proofs.Literal.LetterCase
import MetricUnits.Proofs.Literal.Spellings
import MetricUnits.Proofs.Program.Framing
import MetricUnits.Proofs.Program.Streams
import MetricUnits.Proofs.Protocol.Fields
import MetricUnits.Proofs.Protocol.Unchanged
import MetricUnits.Proofs.Scaling.Samples
import MetricUnits.Proofs.Scaling.ShortCut
import MetricUnits.Proofs.Scaling.Temperatures
import MetricUnits.Proofs.Schema
