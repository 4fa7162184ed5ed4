import InlineCache.ArrayHandle
import InlineCache.Assignment
import InlineCache.Binary.Format
import InlineCache.Binary.LeadingWord
import InlineCache.Binary.Rounding
import InlineCache.Binary.Shortest
import InlineCache.Binary.Text
import InlineCache.Coercion
import InlineCache.Dispatcher
import InlineCache.Element
import InlineCache.ElementType
import InlineCache.Entry
import InlineCache.Fault
import InlineCache.Handler
import InlineCache.Heap
import InlineCache.Index
import InlineCache.Inspect
import InlineCache.Linking
import InlineCache.Narrowing
import InlineCache.Payload
import InlineCache.Proofs.Assignments
import InlineCache.Proofs.Boxing
import InlineCache.Proofs.CallForms
import InlineCache.Proofs.Cells
import InlineCache.Proofs.CharacterCodes
import InlineCache.Proofs.Characters
import InlineCache.Proofs.CoercionFaults
import InlineCache.Proofs.Consultations
import InlineCache.Proofs.Defects
import InlineCache.Proofs.Effectiveness
import InlineCache.Proofs.Entries
import InlineCache.Proofs.Exactness
import InlineCache.Proofs.GuardSoundness
import InlineCache.Proofs.Handles
import InlineCache.Proofs.Idempotence
import InlineCache.Proofs.IndexLaw
import InlineCache.Proofs.Indices
import InlineCache.Proofs.Interchange
import InlineCache.Proofs.Lifecycle
import InlineCache.Proofs.NamedFaults
import InlineCache.Proofs.NonInterference
import InlineCache.Proofs.Overflow
import InlineCache.Proofs.PartialEquivalence
import InlineCache.Proofs.Plans
import InlineCache.Proofs.Policies
import InlineCache.Proofs.Readings
import InlineCache.Proofs.Redefinitions
import InlineCache.Proofs.Relinking
import InlineCache.Proofs.Reordering
import InlineCache.Proofs.Residues
import InlineCache.Proofs.Rounding
import InlineCache.Proofs.Runs
import InlineCache.Proofs.Shortcut
import InlineCache.Proofs.Transparency
import InlineCache.Proofs.Truncation
import InlineCache.Proofs.Versions
import InlineCache.Proofs.WholeTexts
import InlineCache.Registry
import InlineCache.Site
import InlineCache.Storage
import InlineCache.Store
import InlineCache.Text.DefaultIgnorable
import InlineCache.Text.GraphemeExtend
import InlineCache.Text.Quoted
import InlineCache.Text.Ranges
import InlineCache.Text.Unprintable
import InlineCache.Value
import InlineCache.Value.Display
import InlineCache.Value.Equality
import InlineCache.Word
import InlineCache.World
