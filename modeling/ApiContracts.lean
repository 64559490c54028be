import ApiContracts.Main
import ApiContracts.Sample.UserApi
import ApiContracts.Service.Exchange
import ApiContracts.Service.RequestId
import ApiContracts.App.Basic
import ApiContracts.Proofs.Routing.Order
import ApiContracts.Proofs.App.Publication
import ApiContracts.Proofs.Shape.Record
import ApiContracts.Proofs.Compile.Contract
import ApiContracts.Proofs.Rules.Validate
import ApiContracts.Proofs.Compile.Request
import ApiContracts.Proofs.Rules.Outcome
import ApiContracts.Proofs.App.EndpointKey
import ApiContracts.Proofs.Compile.Package
import ApiContracts.Proofs.Compile.Server
import ApiContracts.Proofs.App.Implement
import ApiContracts.Proofs.Routing.Listing
import ApiContracts.Proofs.Compile.Imports
import ApiContracts.Proofs.Compile.UsedTypes
import ApiContracts.Proofs.Rules.RoundTrip
import ApiContracts.Proofs.Rules.Listed
import ApiContracts.Proofs.Service.Operation
import ApiContracts.Proofs.Service.Hooks
import ApiContracts.Proofs.App.Lifecycle
import ApiContracts.Proofs.App.Registration
import ApiContracts.Proofs.Compile.Acceptance
import ApiContracts.Proofs.Compile.Packaging
import ApiContracts.Proofs.Compile.Modes
import ApiContracts.Proofs.FileTree.Path
import ApiContracts.Proofs.CommandLine.Generate
import ApiContracts.Proofs.App.OriginLine
import ApiContracts.Proofs.Routing.Precedence
import ApiContracts.Proofs.Service.RawParams
import ApiContracts.Proofs.Text.Utf8
import ApiContracts.Proofs.Json.QuotedText
import ApiContracts.Proofs.Json.Compact
import ApiContracts.Proofs.Description.RoundTrip
import ApiContracts.Proofs.Routing.Insertion
import ApiContracts.Proofs.App.Refusal
import ApiContracts.Proofs.Text.Scan
import ApiContracts.Proofs.Service.Failure
import ApiContracts.Proofs.Text.Percent
import ApiContracts.Proofs.Routing.ParameterValue
import ApiContracts.Proofs.Service.PassThrough
import ApiContracts.Proofs.Text.Literal
import ApiContracts.Proofs.Compile.Name
import ApiContracts.Proofs.Compile.Literals
import ApiContracts.Proofs.Compile.Respelling
import ApiContracts.Proofs.Compile.ModulePath
import ApiContracts.Proofs.Json.Extent
import ApiContracts.Proofs.Rules.Objects
import ApiContracts.Proofs.Rules.Elements
import ApiContracts.Proofs.Rules.Leaves
import ApiContracts.Proofs.Rules.TypedText
import ApiContracts.Proofs.App.KeySpelling
import ApiContracts.Proofs.Service.HeaderValue
import ApiContracts.Proofs.Rules.Locality
import ApiContracts.Proofs.Service.Headers
import ApiContracts.Proofs.Service.Body
