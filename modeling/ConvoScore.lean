import ConvoScore.Api.Serializers
import ConvoScore.Ingest.Isolation
import ConvoScore.Pipeline.Promise
import ConvoScore.Pipeline.Timeliness
import ConvoScore.Pipeline.Verdict
import ConvoScore.Ingest.Coverage
import ConvoScore.Pipeline.Sources
import ConvoScore.Ingest.Replicas
import ConvoScore.Ingest.ExactlyOnce
import ConvoScore.Ingest.Simulation
import ConvoScore.Pipeline.Coherence
import ConvoScore.Pipeline.Spending
import ConvoScore.Pipeline.SecondChance
import ConvoScore.Pipeline.Metrics
import ConvoScore.Worker.Deliveries
import ConvoScore.Worker.Recording
import ConvoScore.Ingest.Handled
import ConvoScore.Ingest.Uploads
import ConvoScore.Pipeline.Releases
import ConvoScore.Pipeline.Redrive
import ConvoScore.Schema.Canonical
import ConvoScore.Scoring.Pricing
import ConvoScore.Library.Query
import ConvoScore.Repository.Queries
import ConvoScore.Scoring.Estimates
import ConvoScore.Library.Marks
import ConvoScore.Scoring.Prompt
import ConvoScore.Library.Occurrence
import ConvoScore.Api.Observability
import ConvoScore.Library.Pattern
import ConvoScore.Frontend.Transcript
import ConvoScore.Worker.Loop
import ConvoScore.Pipeline.Caps
import ConvoScore.Pipeline.Visibility
import ConvoScore.Worker.Backoff
import ConvoScore.Pipeline.Timeline
import ConvoScore.Demo.Injection
import ConvoScore.Pipeline.Usage
import ConvoScore.Pipeline.Doors
import ConvoScore.Pipeline.Shipped
import ConvoScore.Pipeline.Progress
import ConvoScore.Startup.Migrations
import ConvoScore.Api.Stats
import ConvoScore.Pipeline.Overview
import ConvoScore.Worker.Redelivery
import ConvoScore.Demo.Drill
import ConvoScore.Worker.ProviderFate
import ConvoScore.Queue.Connection
import ConvoScore.Api.Requests
import ConvoScore.Scoring.Fake
import ConvoScore.Pipeline.FakeStack
import ConvoScore.Library.Json
import ConvoScore.Queue.Uuids
import ConvoScore.Queue.Wire
import ConvoScore.Ingest.Payload
import ConvoScore.Queue.Probes
import ConvoScore.Worker.Heartbeat
import ConvoScore.Pipeline.Backlog
import ConvoScore.Api.Browse
import ConvoScore.Frontend.Conversations
import ConvoScore.Library.Rank
import ConvoScore.Pipeline.Listings
import ConvoScore.Pipeline.Paging
