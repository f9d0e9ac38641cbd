import RowStore.Main
import RowStore.Plan.Meaning
import RowStore.Proofs.Archive.Holds
import RowStore.Proofs.Files.Names
import RowStore.Proofs.Pool.Reachable
import RowStore.Proofs.Requests.Failed
import RowStore.Proofs.Requests.Known
import RowStore.Proofs.Requests.Shapes
import RowStore.Storage.Image
import RowStore.Proofs.Storage.Tree
import RowStore.Proofs.Catalog
import RowStore.Proofs.Archive.Mirrors
import RowStore.Proofs.Archive.Answers
import RowStore.Proofs.Archive.Slots
import RowStore.Proofs.Archive.Durable
import RowStore.Proofs.Cursor.Derived
import RowStore.Proofs.Cursor.Scans
import RowStore.Proofs.Cursor.Plans
import RowStore.Proofs.Cursor.Inserts
import RowStore.Proofs.Cursor.ListCursor
import RowStore.Proofs.Cursor.Safe
import RowStore.Proofs.Cursor.Lifecycle
import RowStore.Proofs.Archive.Ends
import RowStore.Proofs.Plan.Tallies
import RowStore.Proofs.Cursor.Drains
import RowStore.Proofs.Cursor.Passes
import RowStore.Proofs.Cursor.WellTyped
import RowStore.Proofs.Cursor.Writes
import RowStore.Proofs.Catalog.Collisions
import RowStore.Proofs.Cursor.Loops
import RowStore.Proofs.Archive.Serves
import RowStore.Proofs.Archive.Without
import RowStore.Proofs.Cursor.Deletes
import RowStore.Proofs.Catalog.Reload
import RowStore.Proofs.CommandLine.Ledger
import RowStore.Proofs.CommandLine.Queries
import RowStore.Proofs.CommandLine.Sessions
import RowStore.Text.Cut
import RowStore.Page.Acts
import RowStore.Proofs.Page.Map
import RowStore.Proofs.HeapFile.Array
import RowStore.Page.Checked
import RowStore.Proofs.Page.Checked
import RowStore.Proofs.Cursor.Marked
import RowStore.Page.Fields
import RowStore.Proofs.Page.Fields
import RowStore.Proofs.Text.Cut
import RowStore.Plan.Accumulator
import RowStore.Proofs.Plan.Words
import RowStore.Proofs.Plan.Exact
import RowStore.Proofs.Cursor.Aggregates
import RowStore.Proofs.Cursor.Reached
import RowStore.Proofs.Cursor.Removals
import RowStore.Proofs.Requests.Deeds
import RowStore.Proofs.Pool.Misses
import RowStore.Proofs.Pool.Calls
import RowStore.Proofs.Pool.Touches
import RowStore.Proofs.Storage.Flushes
import RowStore.Proofs.Requests.Writers
import RowStore.Proofs.Requests.Flushes
import RowStore.Proofs.Cursor.Resumes
import RowStore.Proofs.Cursor.Lasting
import RowStore.Proofs.Cursor.Retries
import RowStore.Proofs.Pool.Residencies
import RowStore.Proofs.Text.Words
import RowStore.Proofs.Catalog.Spellings
import RowStore.Proofs.Catalog.Forms
import RowStore.Proofs.Catalog.Loading
import RowStore.Proofs.Page.Layout
