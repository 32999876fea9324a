import DumpLedger.Properties.Evidence
import DumpLedger.Properties.ClosedCases
import DumpLedger.Properties.ImportWindow
import DumpLedger.Properties.Failure
import DumpLedger.Properties.Symbols
import DumpLedger.Recovery.Reconcile
import DumpLedger.Engine.Moves
import DumpLedger.Properties.Recovery
import DumpLedger.Domain.DateText
import DumpLedger.Engine.Imports
import DumpLedger.Http.Contracts.DuplicateKey
import DumpLedger.Http.EventFeed
import DumpLedger.Lib.JsonParse
import DumpLedger.Properties.Duplicates
import DumpLedger.Properties.EventBodies
import DumpLedger.Properties.Feed
import DumpLedger.Properties.Retries
import DumpLedger.Lib.Base64Url
import DumpLedger.Domain.JsonText
import DumpLedger.Ledger.Catalog
import DumpLedger.Http.Catalog
import DumpLedger.Properties.Catalog
import DumpLedger.Ledger.Reports
import DumpLedger.Properties.Analyses
import DumpLedger.Properties.Refinement
import DumpLedger.Http.Contracts.Decode
import DumpLedger.Inspection.CodeView
import DumpLedger.Inspection.Minidump
import DumpLedger.Inspection.VaultInspectionPort
import DumpLedger.Lib.Decimal
import DumpLedger.Properties.FactFilters
import DumpLedger.Properties.Inspection
import DumpLedger.Lib.ByteFields
import DumpLedger.Lib.FileSystem
import DumpLedger.Properties.Completion
import DumpLedger.Properties.CompletionDrivers
import DumpLedger.Properties.Tar
import DumpLedger.Properties.Vaults
import DumpLedger.Domain.JsonPrint
import DumpLedger.Properties.Manifest
import DumpLedger.Properties.ManifestCodec
import DumpLedger.Properties.TarHeader
import DumpLedger.Lib.BlockLayout
import DumpLedger.Lib.Hex
import DumpLedger.Properties.SymbolIds
import DumpLedger.Http.Contracts.Combinators
import DumpLedger.Properties.Decoding
import DumpLedger.Http.Contracts.Fields
import DumpLedger.Http.Contracts.Filename
import DumpLedger.Http.Contracts.Webhooks
import DumpLedger.Http.SymbolRoutes
import DumpLedger.Http.SymbolServer
import DumpLedger.Http.WebhookDeliveries
import DumpLedger.Properties.ContractFields
import DumpLedger.Properties.StorePaths
import DumpLedger.Properties.SymbolResidue
import DumpLedger.Properties.WebhookHistory
import DumpLedger.Auth.RateLimiter
import DumpLedger.Domain.JsonSize
import DumpLedger.Engine.Reads
import DumpLedger.Http.Contracts.Uploads
import DumpLedger.Inspection.FactsText
import DumpLedger.Intake.PostProcessingQueue
import DumpLedger.Intake.UploadSession
import DumpLedger.Lib.Budget
import DumpLedger.Properties.FactsSize
import DumpLedger.Properties.FactsText
import DumpLedger.Properties.PostProcessing
import DumpLedger.Properties.Quota
import DumpLedger.Properties.RateLimiter
import DumpLedger.Properties.Retention
import DumpLedger.Properties.UploadEnds
import DumpLedger.Properties.UploadNames
import DumpLedger.Http.MissingSymbols
import DumpLedger.Properties.SymbolViews
import DumpLedger.Domain.JsValue
import DumpLedger.Domain.RichAnalysis
import DumpLedger.Properties.JsValues
import DumpLedger.Properties.RichAnalysis
import DumpLedger.Lib.Returns
import DumpLedger.Properties.BundleAcceptance
import DumpLedger.Properties.FinishedImport
import DumpLedger.Properties.ImportOrder
import DumpLedger.Properties.SealedBundle
import DumpLedger.Properties.SealedRead
import DumpLedger.Auth.Sessions
import DumpLedger.Properties.Sessions
