import Splice.Main
import Splice.Proofs.Precedence
import Splice.Proofs.Sweep
import Splice.Proofs.Splicing
import Splice.Proofs.Survival
import Splice.Proofs.Crossing
import Splice.Proofs.Cutting
import Splice.Proofs.Sessions
import Splice.Proofs.Course
import Splice.Proofs.Stopping
import Splice.Proofs.Agreement
import Splice.Proofs.Reordering
import Splice.Proofs.Charsets
import Splice.Proofs.Octets
import Splice.Proofs.Encoded
import Splice.Proofs.Files
import Splice.Proofs.Loading
import Splice.Proofs.Numerals
import Splice.Proofs.Applying
import Splice.Proofs.Rewriting
import Splice.Proofs.Streamed
import Splice.Proofs.BesideUtf8
import Splice.Proofs.Emptied
import Splice.Proofs.Omission
import Splice.Proofs.Printed
import Splice.Proofs.Halting
import Splice.Proofs.Previewing
import Splice.Proofs.Endings
import Splice.Proofs.Renumbering
import Splice.Proofs.Pruning
import Splice.Proofs.Restoring
import Splice.Proofs.Registering
import Splice.Proofs.Untouched
import Splice.Proofs.Batches
import Splice.Proofs.Escaping
import Splice.Proofs.Acceptance
import Splice.Proofs.Lexemes
import Splice.Proofs.Documents
import Splice.Proofs.Extents
import Splice.Proofs.Reporting
import Splice.Proofs.Misfits
import Splice.Proofs.Bindings
import Splice.Proofs.Magnitudes
import Splice.Proofs.Straying
import Splice.Proofs.Verbosity
import Splice.Proofs.Journaling
