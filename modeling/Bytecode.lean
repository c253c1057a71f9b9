import Bytecode.Proofs.Session.WriteOnce
import Bytecode.DescriptorSet.Printer
import Bytecode.Proofs.Rejection
import Bytecode.Proofs.Walk.Agreement
import Bytecode.Proofs.Walk.Assembly
import Bytecode.Proofs.Walk.Places
import Bytecode.Proofs.Session.Reports
import Bytecode.Proofs.Session.Installation
import Bytecode.Proofs.Session.CallerLoop
import Bytecode.Proofs.Session.Readers
import Bytecode.Proofs.Session.SettledLimits
import Bytecode.Proofs.Walk.Limit
import Bytecode.Proofs.Walk.Truncation
import Bytecode.Word
import Bytecode.Word.Decoder
import Bytecode.Proofs.Word
import Bytecode.Proofs.DescriptorSet.RoundTrip
import Bytecode.Proofs.Continuation
import Bytecode.Proofs.Table.Overrides
import Bytecode.Proofs.DescriptorSet.Spellings
import Bytecode.Proofs.Table.Description
import Bytecode.Proofs.Operand.Packing
import Bytecode.Proofs.Limits
import Bytecode.Proofs.Environment
import Bytecode.Proofs.Operand.Text
import Bytecode.Proofs.Walk.Traces
import Bytecode.Proofs.DescriptorSet.Extent
import Bytecode.Proofs.Table.Inspection
