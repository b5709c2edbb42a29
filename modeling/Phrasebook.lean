import Phrasebook.Main
import Phrasebook.Proofs.Catalog.Collection
import Phrasebook.Proofs.Catalog.Lookup
import Phrasebook.Proofs.Locale.Negotiation
import Phrasebook.Proofs.Locale.TagOrder
import Phrasebook.Proofs.Translator.EagerLazy
import Phrasebook.Proofs.Translator.Runs
import Phrasebook.Storage.Tree
import Phrasebook.Proofs.Linguist.Structure
import Phrasebook.Proofs.Catalog.Identifier
import Phrasebook.Proofs.Markup.Outline
import Phrasebook.Proofs.Markup.WellNested
import Phrasebook.Proofs.Placeholder.Dependence
import Phrasebook.Proofs.Markup.Scan
import Phrasebook.Proofs.Markup.View
import Phrasebook.Proofs.Markup.Steps
import Phrasebook.Proofs.Markup.Collector
import Phrasebook.Proofs.Markup.Written
import Phrasebook.Proofs.Markup.Decoding
import Phrasebook.Proofs.Markup.RoundTrip
import Phrasebook.Proofs.Catalog.Duplicate
import Phrasebook.Proofs.Placeholder.Numbers
import Phrasebook.Proofs.Report.Clean
import Phrasebook.Proofs.Linguist.Shorthand
import Phrasebook.Proofs.Linguist.Insertion
import Phrasebook.Proofs.Catalog.Grouping
import Phrasebook.Proofs.Linguist.Defect
import Phrasebook.Proofs.Linguist.Regrouping
import Phrasebook.Proofs.Supplier.Directory
import Phrasebook.Proofs.Storage.Pathname
import Phrasebook.Proofs.Command.Check
import Phrasebook.Proofs.Placeholder.Reading
import Phrasebook.Proofs.Locale.Canonical
import Phrasebook.Proofs.Catalog.Listing
import Phrasebook.Proofs.Linguist.LineNumber
import Phrasebook.Proofs.Report.Counts
import Phrasebook.Proofs.Report.Shown
import Phrasebook.Proofs.Markup.Escape
import Phrasebook.Proofs.Markup.Depth
import Phrasebook.Proofs.Linguist.Form
import Phrasebook.Proofs.Catalog.Integrity
import Phrasebook.Proofs.Command.Batch
import Phrasebook.Proofs.Placeholder.Bytes
import Phrasebook.Proofs.Toml.Text
import Phrasebook.Proofs.Settings.Written
import Phrasebook.Proofs.Storage.Tree
import Phrasebook.Proofs.Settings.Saved
import Phrasebook.Proofs.Command.SetLanguage
