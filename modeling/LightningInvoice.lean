import LightningInvoice.Invoice.Json
import LightningInvoice.Invoice.Semantics
import LightningInvoice.Request.Layout
import LightningInvoice.Secp256k1
import LightningInvoice.Proofs.Invoice.Json
import LightningInvoice.Sha256
import LightningInvoice.Proofs.Regroup.Bits
import LightningInvoice.Proofs.Regroup.Inverse
import LightningInvoice.Proofs.Checksum.Creation
import LightningInvoice.Proofs.Checksum.Detection
import LightningInvoice.Proofs.Checksum.Head
import LightningInvoice.Proofs.Request.Characters
import LightningInvoice.Proofs.Request.Head
import LightningInvoice.Proofs.Request.Fields
import LightningInvoice.Proofs.Request.Stream
import LightningInvoice.Proofs.Request.Reading
import LightningInvoice.Proofs.Request.Bounds
import LightningInvoice.Proofs.Request.Decomposition
import LightningInvoice.Proofs.Request.Commitment
import LightningInvoice.Proofs.Request.Corruption
import LightningInvoice.Proofs.Request.HeadCorruption
import LightningInvoice.Proofs.Request.Insertion
import LightningInvoice.Proofs.Request.Log
import LightningInvoice.Proofs.Guarded.Request
import LightningInvoice.Proofs.Tag.Outcome
import LightningInvoice.Proofs.Tag.RoundTrip
import LightningInvoice.Proofs.Features.Number
import LightningInvoice.Proofs.Invoice.Expiry
import LightningInvoice.Proofs.Invoice.Semantics
import LightningInvoice.Proofs.Request.Semantics
import LightningInvoice.Proofs.Route.Channel
import LightningInvoice.Proofs.Regroup.Calls
import LightningInvoice.Proofs.Regroup.Pauses
import LightningInvoice.Proofs.Regroup.SizeHint
import LightningInvoice.Proofs.Radix.Overflow
