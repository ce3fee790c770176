import S3Gateway.Go.Bytes
import S3Gateway.Go.Utf8
import S3Gateway.Go.Netip
import S3Gateway.Go.Json
import S3Gateway.Library.FirstMatch
import S3Gateway.Library.Fallible
import S3Gateway.Policy.Pattern
import S3Gateway.Policy.Condition
import S3Gateway.Policy.Document
import S3Gateway.Policy.Decide
import S3Gateway.Policy.Evaluators
import S3Gateway.Go.Http
import S3Gateway.Go.Strconv
import S3Gateway.Library.Interaction
import S3Gateway.Go.Sort
import S3Gateway.S3gw.Authorize
import S3Gateway.S3gw.Backend
import S3Gateway.S3gw.Context
import S3Gateway.S3gw.Handlers
import S3Gateway.S3gw.DeleteObjects
import S3Gateway.S3gw.Addressing
import S3Gateway.S3gw.CopySource
import S3Gateway.S3gw.Routes
import S3Gateway.S3gw.Forwarding
import S3Gateway.S3gw.Dispatch
import S3Gateway.Sigv4.Crypto
import S3Gateway.Sigv4.PostPolicy
import S3Gateway.Library.ObjectStore
import S3Gateway.S3gw.Auth
import S3Gateway.S3gw.PostObject
import S3Gateway.S3gw.HandleRequest
import S3Gateway.Library.Fields
import S3Gateway.Sigv4.Canonical
import S3Gateway.Go.Space
import S3Gateway.S3gw.SignedPath
import S3Gateway.Sigv4.Replay
import S3Gateway.Go.Bufio
import S3Gateway.Sigv4.Chunked
import S3Gateway.Sigv4.ChunkedIntegrity
import S3Gateway.Library.Machine
import S3Gateway.S3gw.Breaker
import S3Gateway.Library.Threads
import S3Gateway.Sigv4.SignerCache
import S3Gateway.S3gw.CopyRead
import S3Gateway.Go.Path
import S3Gateway.S3gw.Mux
import S3Gateway.S3gw.PayloadHash
import S3Gateway.Sigv4.ChunkedComplete
import S3Gateway.Sigv4.Verify
import S3Gateway.Go.Date
import S3Gateway.Sigv4.Coverage
import S3Gateway.Sigv4.RoundTrip
import S3Gateway.Library.TwoRuns
import S3Gateway.S3gw.Serve
import S3Gateway.S3gw.Visibility
import S3Gateway.Library.Glob
import S3Gateway.Policy.Wildcard
import S3Gateway.Policy.UnknownSource
import S3Gateway.S3gw.SourceBlock
import S3Gateway.Library.Register
import S3Gateway.Sigv4.Promotion
import S3Gateway.S3gw.BodyReading
import S3Gateway.S3gw.XmlBody
import S3Gateway.S3gw.Trailers
import S3Gateway.S3gw.ErrorWording
import S3Gateway.Library.Accumulate
import S3Gateway.Policy.ActionCheck
import S3Gateway.Go.UrlParse
import S3Gateway.S3rp.Config
import S3Gateway.S3rp.ConfigStore
import S3Gateway.S3rp.Endpoint
import S3Gateway.Policy.Meaning
import S3Gateway.Library.Paging
import S3Gateway.S3gw.ListBuckets
import S3Gateway.S3gw.ObjectUrl
import S3Gateway.Cors.Preflight
import S3Gateway.S3gw.QueryParams
import S3Gateway.S3gw.WrapHandler
import S3Gateway.S3gw.Withholding
import S3Gateway.Sigv4.ChunkedRobust
import S3Gateway.S3gw.DenyReasons
import S3Gateway.Library.Tally
import S3Gateway.S3gw.Denials
import S3Gateway.Library.Journal
import S3Gateway.S3gw.Pacing
import S3Gateway.Store.Names
import S3Gateway.S3gw.BodyPacing
import S3Gateway.Library.Lru
import S3Gateway.S3gw.Attempts
import S3Gateway.S3gw.ClientCache
import S3Gateway.Library.Partition
import S3Gateway.S3gw.Authentication
import S3Gateway.S3gw.ChecksumSupport
import S3Gateway.S3gw.Hiding
import S3Gateway.S3gw.Offered
