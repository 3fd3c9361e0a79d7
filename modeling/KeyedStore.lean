import KeyedStore.Attribute.Equality
import KeyedStore.Attribute.Json
import KeyedStore.Attribute.Value
import KeyedStore.Attribute.Wire
import KeyedStore.Connector.Basic
import KeyedStore.Connector.Config
import KeyedStore.Connector.Error
import KeyedStore.Connector.Local
import KeyedStore.Connector.Paging
import KeyedStore.Connector.Process
import KeyedStore.Connector.Provisioning
import KeyedStore.Connector.Service
import KeyedStore.Expression.Evaluation
import KeyedStore.Expression.Parser
import KeyedStore.Expression.Printer
import KeyedStore.Expression.Syntax
import KeyedStore.Expression.Token
import KeyedStore.Filter.Basic
import KeyedStore.Filter.Condition
import KeyedStore.Filter.Shaping
import KeyedStore.Json.Basic
import KeyedStore.Json.Number
import KeyedStore.Json.Reader
import KeyedStore.Json.Writer
import KeyedStore.Key.Coercion
import KeyedStore.Key.Identifier
import KeyedStore.Memory.Config
import KeyedStore.Memory.KeyCondition
import KeyedStore.Memory.KeyHash
import KeyedStore.Memory.KeySchema
import KeyedStore.Memory.KeyValue
import KeyedStore.Memory.Page
import KeyedStore.Memory.Store
import KeyedStore.Memory.Table
import KeyedStore.Memory.TableStorage
import KeyedStore.Model.Definition
import KeyedStore.Model.Error
import KeyedStore.Model.Property
import KeyedStore.Model.Registry
import KeyedStore.Model.Schema
import KeyedStore.Numeric.Binary64
import KeyedStore.Numeric.Decimal
import KeyedStore.Numeric.Shortest
import KeyedStore.OrderedMap
import KeyedStore.Plan.Basic
import KeyedStore.Plan.Compile
import KeyedStore.Plan.Placeholders
import KeyedStore.Proofs.Attribute.RestoredData
import KeyedStore.Proofs.Attribute.RoundTrip
import KeyedStore.Proofs.Attribute.WireForms
import KeyedStore.Proofs.Connector.AcceptedRecords
import KeyedStore.Proofs.Connector.ActiveTables
import KeyedStore.Proofs.Connector.Calls
import KeyedStore.Proofs.Connector.CompositeIdentifiers
import KeyedStore.Proofs.Connector.CreatedRecords
import KeyedStore.Proofs.Connector.Fetching
import KeyedStore.Proofs.Connector.IndexedRead
import KeyedStore.Proofs.Connector.MergedRecords
import KeyedStore.Proofs.Connector.NarrowedReads
import KeyedStore.Proofs.Connector.ProvisionedOnce
import KeyedStore.Proofs.Connector.Races
import KeyedStore.Proofs.Connector.ReindexedReads
import KeyedStore.Proofs.Connector.RemovedRecords
import KeyedStore.Proofs.Connector.Requests
import KeyedStore.Proofs.Connector.SavedAgain
import KeyedStore.Proofs.Connector.ScriptedReads
import KeyedStore.Proofs.Connector.SharedPlaces
import KeyedStore.Proofs.Connector.Updates
import KeyedStore.Proofs.Except
import KeyedStore.Proofs.Expression.Lexing
import KeyedStore.Proofs.Expression.Parsing
import KeyedStore.Proofs.Expression.Scanning
import KeyedStore.Proofs.Expression.Updates
import KeyedStore.Proofs.Filter.Conditions
import KeyedStore.Proofs.Filter.Sorting
import KeyedStore.Proofs.Json.DistinctKeys
import KeyedStore.Proofs.Json.KeyOrder
import KeyedStore.Proofs.Json.NumberText
import KeyedStore.Proofs.Key.Coercion
import KeyedStore.Proofs.Key.Identifiers
import KeyedStore.Proofs.Key.PreparedRecords
import KeyedStore.Proofs.Key.Separators
import KeyedStore.Proofs.Memory.Access
import KeyedStore.Proofs.Memory.Answers
import KeyedStore.Proofs.Memory.Arrangements
import KeyedStore.Proofs.Memory.Comparison
import KeyedStore.Proofs.Memory.Endings
import KeyedStore.Proofs.Memory.IndexQueries
import KeyedStore.Proofs.Memory.ItemKeys
import KeyedStore.Proofs.Memory.ItemUpdates
import KeyedStore.Proofs.Memory.KeyConditions
import KeyedStore.Proofs.Memory.KeyHashes
import KeyedStore.Proofs.Memory.KeyOrder
import KeyedStore.Proofs.Memory.MapKeys
import KeyedStore.Proofs.Memory.Pages
import KeyedStore.Proofs.Memory.Reachability
import KeyedStore.Proofs.Memory.Refinement
import KeyedStore.Proofs.Memory.Runs
import KeyedStore.Proofs.Memory.Storage
import KeyedStore.Proofs.Memory.Tables
import KeyedStore.Proofs.Memory.TermEvaluation
import KeyedStore.Proofs.Model.Acceptance
import KeyedStore.Proofs.Model.KeyClaims
import KeyedStore.Proofs.Model.Provisioning
import KeyedStore.Proofs.Model.Reindexing
import KeyedStore.Proofs.Model.Resolution
import KeyedStore.Proofs.Numeric.DecimalText
import KeyedStore.Proofs.Numeric.Digits
import KeyedStore.Proofs.Numeric.RoundedOrder
import KeyedStore.Proofs.Numeric.Rounding
import KeyedStore.Proofs.OrderedMap
import KeyedStore.Proofs.Plan.Agreement
import KeyedStore.Proofs.Plan.Allocations
import KeyedStore.Proofs.Plan.Completeness
import KeyedStore.Proofs.Plan.KeyFit
import KeyedStore.Proofs.Plan.KeyRoles
import KeyedStore.Proofs.Plan.KeyTerms
import KeyedStore.Proofs.Plan.KeyedConditions
import KeyedStore.Proofs.Plan.Placeholders
import KeyedStore.Proofs.Plan.QueryChoice
import KeyedStore.Proofs.Plan.Rendering
import KeyedStore.Proofs.Plan.Selecting
import KeyedStore.Proofs.Plan.Verdict
import KeyedStore.Proofs.Plan.WrittenValues
import KeyedStore.Proofs.StableSort
import KeyedStore.Proofs.Store.WireForms
import KeyedStore.Proofs.Table.WireForms
import KeyedStore.Proofs.Text.Base64
import KeyedStore.Proofs.Text.ByteOrder
import KeyedStore.Proofs.Wire.WrittenFields
import KeyedStore.Simulation.Background
import KeyedStore.Simulation.Basic
import KeyedStore.Simulation.Script
import KeyedStore.Simulation.Service
import KeyedStore.StableSort
import KeyedStore.Store.Answer
import KeyedStore.Store.Error
import KeyedStore.Store.Request
import KeyedStore.Store.Wire
import KeyedStore.Table.Description
import KeyedStore.Table.Wire
import KeyedStore.Text.Base64
import KeyedStore.Text.Blank
import KeyedStore.Text.LetterCase
import KeyedStore.Text.Quoted
import KeyedStore.Text.Ranges
import KeyedStore.Text.Unprintable
import KeyedStore.Time.Timestamp
import KeyedStore.Wire.Decoder
