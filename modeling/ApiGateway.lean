import ApiGateway.Gateway.Concurrent
import ApiGateway.Main
import ApiGateway.Mock.Handlers
import ApiGateway.Mock.Tasks
import ApiGateway.Proofs.Declarations
import ApiGateway.Proofs.FaultDetails
import ApiGateway.Proofs.Json.RoundTrip
import ApiGateway.Proofs.PathParameters
import ApiGateway.Proofs.PostponedHandlers
import ApiGateway.Proofs.ResponseOrder
import ApiGateway.Proofs.RuleFollowed
import ApiGateway.Proofs.WrittenQueries
import ApiGateway.Proofs.Registries
import ApiGateway.Proofs.Executions
import ApiGateway.Proofs.SpawnedWork
import ApiGateway.Proofs.SpawnedRuns
import ApiGateway.Proofs.Agendas
import ApiGateway.Proofs.ConcurrentRequests
import ApiGateway.Proofs.RoutingLists
import ApiGateway.Proofs.RelativePaths
import ApiGateway.Proofs.CanonicalForms
import ApiGateway.Proofs.NestedRendering
import ApiGateway.Proofs.SeenAndSent
import ApiGateway.Proofs.Replies
import ApiGateway.Proofs.Scans
import ApiGateway.Proofs.AllowedMethods
import ApiGateway.Proofs.ExactBinding
import ApiGateway.Proofs.FramedResponses
import ApiGateway.Proofs.TemplateMatching
import ApiGateway.Proofs.StartHeaders
import ApiGateway.Proofs.ResponsePolicy
import ApiGateway.Proofs.FirstFaults
import ApiGateway.Proofs.StubResponses
import ApiGateway.Proofs.Sequencing
import ApiGateway.Proofs.Recovery
import ApiGateway.Proofs.Invocations
import ApiGateway.Proofs.ProblemDocuments
import ApiGateway.Proofs.RoundRobin
import ApiGateway.Proofs.HeaderUpdates
import ApiGateway.Proofs.ConsumedPrefixes
import ApiGateway.Proofs.ManualBodies
import ApiGateway.Proofs.Json.Edits
import ApiGateway.Proofs.DecodedEscapes
import ApiGateway.Proofs.Identifiers
import ApiGateway.Proofs.StoredPets
import ApiGateway.Proofs.WrittenCookies
import ApiGateway.Proofs.IntegerArguments
