import BoundedResources.Http.Service
import BoundedResources.Limiter.ClockRange
import BoundedResources.Pool.Event
import BoundedResources.Settings.Settings
import BoundedResources.Time.Task
import BoundedResources.Proofs.Cache.Turns
import BoundedResources.Proofs.Cache.Coherence
import BoundedResources.Proofs.Cache.Shelf
import BoundedResources.Proofs.Limiter.Buckets
import BoundedResources.Proofs.Limiter.Turns
import BoundedResources.Proofs.Limiter.RateBound
import BoundedResources.Proofs.Pool.Books
import BoundedResources.Proofs.Pool.Obligations
import BoundedResources.Proofs.Pool.Capacity
import BoundedResources.Proofs.Limiter.Identity
import BoundedResources.Proofs.Limiter.Isolation
import BoundedResources.Proofs.Pool.Reservations
import BoundedResources.Proofs.Pool.Custody
import BoundedResources.Proofs.Pool.Holders
import BoundedResources.Proofs.Pool.Passages
import BoundedResources.Proofs.Pool.Transfers
import BoundedResources.Proofs.Pool.Ownership
import BoundedResources.Proofs.Pool.Closing
import BoundedResources.Proofs.Cache.Closing
import BoundedResources.Proofs.Http.Gate
import BoundedResources.Proofs.Limiter.Waiting
import BoundedResources.Proofs.Http.RetryAfter
import BoundedResources.Proofs.Limiter.Forgetting
import BoundedResources.Proofs.Cache.Presence
import BoundedResources.Proofs.Cache.Expiry
import BoundedResources.Proofs.Cache.ReadBack
import BoundedResources.Proofs.Cache.StoredValues
import BoundedResources.Proofs.Cache.Sweeping
import BoundedResources.Proofs.Http.Spelling
import BoundedResources.Proofs.Limiter.Sources
import BoundedResources.Proofs.Limiter.Matching
import BoundedResources.Proofs.Cache.Accounting
import BoundedResources.Proofs.Cache.Failures
import BoundedResources.Proofs.Limiter.Independence
import BoundedResources.Proofs.Text.Encoding
import BoundedResources.Proofs.Json.Strings
import BoundedResources.Proofs.Json.Numbers
import BoundedResources.Proofs.Json.Roundtrip
import BoundedResources.Proofs.Limiter.RulebookText
import BoundedResources.Proofs.Limiter.Spending
import BoundedResources.Proofs.Limiter.Peeking
import BoundedResources.Proofs.Limiter.ClockRange
import BoundedResources.Proofs.Limiter.Recovery
import BoundedResources.Proofs.Json.Values
import BoundedResources.Proofs.Http.Operations
import BoundedResources.Proofs.Http.Keys
import BoundedResources.Proofs.Cache.Staleness
import BoundedResources.Proofs.Pool.Checkout
import BoundedResources.Proofs.Pool.Requests
import BoundedResources.Proofs.Pool.Setup
import BoundedResources.Proofs.Pool.Sweeps
import BoundedResources.Proofs.Cache.Queue
import BoundedResources.Proofs.Limiter.Bookkeeping
import BoundedResources.Proofs.Time.Grid
