import RecordDb.SampleFunctions
import RecordDb.Session.Group
import RecordDb.Sorting.Permutation
import RecordDb.Proofs.Batch.Agreement
import RecordDb.Proofs.Session.Balance
import RecordDb.Proofs.Session.Callbacks
import RecordDb.Proofs.Session.Guard
import RecordDb.Proofs.Store.Background
import RecordDb.Proofs.Store.Commutation
import RecordDb.Proofs.Store.Emptied
import RecordDb.Proofs.Store.Failure
import RecordDb.Proofs.Store.Generations
import RecordDb.Proofs.Store.Identity
import RecordDb.Proofs.Store.Locking
import RecordDb.Proofs.Store.OwnKeys
import RecordDb.Proofs.Store.SameBytes
import RecordDb.Proofs.Wire.Meaning
import RecordDb.Proofs.Wire.Messages
import RecordDb.Proofs.Store.Puts
import RecordDb.Proofs.Session.LargeLists
import RecordDb.Proofs.Store.Counters
import RecordDb.Proofs.Json.Numbers
import RecordDb.Proofs.Json.Texts
import RecordDb.Proofs.Json.Documents
import RecordDb.Proofs.Wire.Textual
import RecordDb.Proofs.Wire.BothForms
import RecordDb.Proofs.Value.Order
import RecordDb.Proofs.Operation.Picks
import RecordDb.Proofs.Value.Equality
import RecordDb.Proofs.Operation.ByValue
import RecordDb.Proofs.Operation.ByKeyRange
import RecordDb.Proofs.Wire.Configs
import RecordDb.Proofs.Place.Spans
import RecordDb.Proofs.Sorting.Insertion
import RecordDb.Proofs.Operation.Addresses
import RecordDb.Proofs.Operation.ByRank
import RecordDb.Proofs.Operation.Removals
import RecordDb.Proofs.Operation.Reports
import RecordDb.Proofs.Operation.Sequences
import RecordDb.Proofs.Operation.Bulk
import RecordDb.Proofs.Operation.ListRanges
import RecordDb.Proofs.Operation.Frames
import RecordDb.Proofs.Store.ReadOnly
import RecordDb.Proofs.Operation.EmptyCollections
import RecordDb.Proofs.Store.BareRecords
import RecordDb.Proofs.Checked.Runs
import RecordDb.Proofs.Operation.Composition
import RecordDb.Proofs.Value.Reflexivity
import RecordDb.Proofs.Store.IdleCalls
import RecordDb.Proofs.Batch.Assignment
import RecordDb.Proofs.Batch.AnswerOrder
import RecordDb.Proofs.Session.Streams
import RecordDb.Proofs.Session.IndexWaits
import RecordDb.Proofs.Session.ModuleWaits
import RecordDb.Proofs.Node.HostLists
import RecordDb.Proofs.Node.WrittenInfo
