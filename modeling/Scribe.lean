import Scribe.Core.Hash
import Scribe.Core.Merkle
import Scribe.Core.MerkleProof
import Scribe.Json.Writer
import Scribe.Json.Reader
import Scribe.Json.RoundTrip
import Scribe.Core.Object
import Scribe.Core.Envelope
import Scribe.Core.EnvelopeJson
import Scribe.Core.MerkleShape
import Scribe.Storage.Database
import Scribe.Storage.Repository
import Scribe.Postgres.Query
import Scribe.Postgres.Monitor
import Scribe.Postgres.Client
import Scribe.Commands.Writers
import Scribe.Commands.History
import Scribe.Commands.Verify
import Scribe.Core.EnvelopeFaults
import Scribe.Storage.Discovery
import Scribe.Storage.FileSystem
import Scribe.Storage.Objects
import Scribe.Storage.Config
import Scribe.Storage.Init
import Scribe.Commands.Watch
import Scribe.Commands.Log
import Scribe.Commands.WatchSession
