import Winnow.Input.Descriptor
import Winnow.Main
import Winnow.Proofs.SchemaAgreement
import Winnow.Proofs.JoinBeforeUse
import Winnow.Proofs.TrashedRows
import Winnow.Repository.Record
import Winnow.Store.Definition
import Winnow.Proofs.RepeatedJoin
import Winnow.Proofs.HiddenColumns
import Winnow.Proofs.PageReplay
import Winnow.Proofs.RowCount
import Winnow.Proofs.LastPage
import Winnow.Proofs.PageAgreement
import Winnow.Proofs.ClosedSessions
import Winnow.Proofs.RefusedEntries
import Winnow.Proofs.SessionSelection
import Winnow.Proofs.TrashedUntouched
import Winnow.Proofs.OperandIndependence
import Winnow.Proofs.JoinOrder
import Winnow.Proofs.ConsoleQuery
import Winnow.Proofs.LeftJoinRows
import Winnow.Proofs.TextRoundTrip
import Winnow.Proofs.ExpressionGrammar
import Winnow.Proofs.OppositeFilters
import Winnow.Proofs.PairedRuns
import Winnow.Proofs.EmptyRanges
import Winnow.Proofs.TextConcatenation
import Winnow.Proofs.BookConsultation
import Winnow.Proofs.LabelledColumns
import Winnow.Proofs.SegmentNotes
import Winnow.Proofs.CallOrder
import Winnow.Proofs.ChainRoutes
import Winnow.Proofs.LastPageOrder
import Winnow.Proofs.RecordedWrites
