import BoundedResources.Pool.Session

/-!
# What happens in a session

Everything that can happen in a session with pools is an event. An event that calls a pool comes
to nothing if there is no pool to call; one that is about a handle comes to nothing if nobody
holds it under the given name, or if it is not of the sort that is asked for. All that is due is
done before the next event.
-/

set_option autoImplicit false

namespace BoundedResources

/-- What can happen in a session; pools go by index, handles and background calls by name. -/
inductive PoolEvent where
  /-- A connection is checked out, with a handle that returns it or not. -/
  | checkout (pool : Nat) (returns : Bool) (name : String)
  /-- A handle that does not return its connection is put into a pool. -/
  | put (pool : Nat) (name : String)
  /-- A handle that does not return its connection is thrown away. -/
  | discard (pool : Nat) (name : String)
  /-- A handle is let go of. -/
  | letGo (name : String)
  /-- Something is noted on a connection. -/
  | tag (name text : String)
  | look (name : String)
  | stats (pool : Nat)
  | sweep (pool : Nat)
  | close (pool : Nat)
  /-- Nobody will call a pool again. -/
  | detach (pool : Nat)
  | beginCheckout (pool : Nat) (returns : Bool) (name : String)
  | beginSweep (pool : Nat) (name : String)
  | beginClose (pool : Nat) (name : String)
  /-- Somebody asks what has become of a background call. -/
  | finish (name : String)
  | cancel (name : String)
  /-- Connections of a pool fall sick or recover. -/
  | setHealth (pool : Nat) (number : Option Nat) (ok : Bool)
  /-- The further dials of a pool will go by a new script. -/
  | script (pool : Nat) (plans : List DialPlan)
  | openGate (pool : Nat)
  | advance (time : Duration)

/-- What an event comes to. -/
inductive PoolReply where
  | done
  /-- There is no pool to call. -/
  | noPool
  | checkedOut (result : Except PoolError Handle)
  /-- A handle that was asked to be put, discarded or let go of; none if there was no such. -/
  | taken (handle : Option Handle)
  | seen (handle : Option Handle)
  | stats (stats : PoolStats)
  | report (report : Option TaskReport)

namespace PoolSession

/-- The handle under a name. -/
def handleOf? (s : PoolSession) (name : String) : Option Handle :=
  s.fleet.handleOf? (.name name)

/-- The handle under a name, if it does not return its connection. -/
def plainHandle? (s : PoolSession) (name : String) : Option Handle :=
  (s.handleOf? name).filter fun h => !h.returns

/-- Changes the dialer of a pool. -/
def modifyDialer (s : PoolSession) (i : Nat) (change : Dialer → Dialer) : PoolSession :=
  s.withFleet { s.fleet with
    members := s.fleet.members.modify i fun m => { m with dialer := change m.dialer } }

/-- Calls a pool, if there is one. -/
def callPool (s : PoolSession) (i : Nat) (call : Member → PoolReply × PoolSession) :
    PoolReply × PoolSession :=
  match s.fleet.attached? i with
  | none => (.noPool, s)
  | some m => call m

/-- Takes the plain handle under a name, if there is one. -/
def takePlain (s : PoolSession) (name : String) (take : Fleet → Fleet) :
    PoolReply × PoolSession :=
  match s.plainHandle? name with
  | none => (.taken none, s)
  | some h => (.taken (some h), s.withFleet (take s.fleet))

/-- What an event does at once. -/
def perform (s : PoolSession) : PoolEvent → PoolReply × PoolSession
  | .checkout i returns name => s.callPool i fun _ =>
    let (r, s) := s.checkout i returns name
    (.checkedOut r, s)
  | .put i name => s.callPool i fun _ => s.takePlain name fun f => f.put s.now i (.name name)
  | .discard i name => s.callPool i fun _ => s.takePlain name fun f => f.drop s.now (.name name)
  | .letGo name => (.taken (s.handleOf? name), s.withFleet (s.fleet.drop s.now (.name name)))
  | .tag name text =>
    let s := s.withFleet (s.fleet.tag (.name name) text)
    (.seen (s.handleOf? name), s)
  | .look name => (.seen (s.handleOf? name), s)
  | .stats i => s.callPool i fun m => (.stats m.pool.stats, s)
  | .sweep i => s.callPool i fun _ => (.done, s.sweep i)
  | .close i => s.callPool i fun _ => (.done, s.withFleet (s.fleet.close i))
  | .detach i => s.callPool i fun _ => (.done, s.withFleet (s.fleet.detach i))
  | .beginCheckout i returns name =>
    s.callPool i fun _ => (.done, s.beginCheckout i returns name)
  | .beginSweep i name => s.callPool i fun _ => (.done, s.beginSweep i name)
  | .beginClose i name => s.callPool i fun _ => (.done, s.beginClose i name)
  | .finish name =>
    let (r, s) := s.finish name
    (.report r, s)
  | .cancel name => (.done, s.cancel name)
  | .setHealth i number ok => (.done, s.modifyDialer i fun d => d.setHealth number ok)
  | .script i plans => (.done, s.modifyDialer i fun d => { d with script := plans })
  | .openGate i => (.done, s.withFleet (s.fleet.openGate i))
  | .advance d => (.done, s.advance d)

/-- One event and all that is due after it. -/
def step (s : PoolSession) (e : PoolEvent) : PoolReply × PoolSession :=
  let (r, s) := s.perform e
  (r, s.settle)

/-- A pool is set up, and all is done that is due after that. -/
def stepConnect (s : PoolSession) (config : PoolConfig) (script : List DialPlan) :
    Except PoolError Unit × PoolSession :=
  let (r, s) := s.connect config script
  (r, s.settle)

end PoolSession

end BoundedResources
