import Bulletin.Main
import Bulletin.Tarball.Packing
import Bulletin.Trigger
import Bulletin.Proofs.Interchange
import Bulletin.Proofs.Packing
import Bulletin.Proofs.Isolation
import Bulletin.Proofs.EntryNames
import Bulletin.Proofs.Gathering
import Bulletin.Proofs.Arrangement
import Bulletin.Proofs.Ingestion
import Bulletin.Proofs.Loading
import Bulletin.Proofs.Consistency
import Bulletin.Proofs.Division
import Bulletin.Proofs.Blocks
import Bulletin.Proofs.OwnEntries
import Bulletin.Proofs.Refusal
import Bulletin.Proofs.Permanence
import Bulletin.Proofs.Reordering
import Bulletin.Proofs.Replacement
import Bulletin.Proofs.Interning
import Bulletin.Proofs.Committing
import Bulletin.Proofs.Template
import Bulletin.Proofs.Sorting
import Bulletin.Proofs.Decoding
import Bulletin.Proofs.RawTexts
import Bulletin.Proofs.Places
import Bulletin.Proofs.Discovery
import Bulletin.Proofs.Removal
import Bulletin.Proofs.Triggers
import Bulletin.Proofs.Endpoints
import Bulletin.Proofs.Classification
import Bulletin.Proofs.Histories
import Bulletin.Proofs.UserOrder
import Bulletin.Proofs.Answers
import Bulletin.Proofs.Overwriting
import Bulletin.Proofs.Divisibility
import Bulletin.Proofs.Verbatim
import Bulletin.Proofs.Reloading
import Bulletin.Proofs.Accounting
import Bulletin.Proofs.Neutrality
import Bulletin.Proofs.Announcements
import Bulletin.Proofs.Greeting
import Bulletin.Proofs.Spelling
import Bulletin.Proofs.ArchiveNames
import Bulletin.Proofs.OtherPeriods
import Bulletin.Proofs.Walking
import Bulletin.Proofs.Creation
import Bulletin.Proofs.Requests
