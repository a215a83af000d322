import BoundedResources.Time.Duration

/-!
# Pool configurations

A pool works with a normalized configuration, in which there is room for one connection at least
and the minimum is not beyond the maximum.
-/

set_option autoImplicit false

namespace BoundedResources

/-- How a pool is set up. -/
structure PoolConfig where
  /-- The address that connections are opened to. -/
  target : String
  /-- The most connections that are open at once, idle and checked out together. -/
  maxSize : Nat
  /-- How many connections are opened at the start and restored by health sweeps. -/
  minSize : Nat
  /-- The time between two health sweeps. -/
  healthInterval : Duration
  /-- How long opening a connection may take. -/
  connectTimeout : Duration
  /-- Whether small packets are sent without delay. -/
  nodelay : Bool
deriving DecidableEq

namespace PoolConfig

/-- The standard configuration for a target: 1 to 10 connections, a sweep every 30 seconds,
5 seconds for opening a connection. -/
def standard (target : String) : PoolConfig where
  target := target
  maxSize := 10
  minSize := 1
  healthInterval := .ofSecs 30
  connectTimeout := .ofSecs 5
  nodelay := true

/-- The configuration with a maximum of one at least and the minimum cut to it. -/
def normalized (c : PoolConfig) : PoolConfig :=
  { c with maxSize := max c.maxSize 1, minSize := min c.minSize (max c.maxSize 1) }

theorem one_le_maxSize_normalized (c : PoolConfig) : 1 ≤ c.normalized.maxSize :=
  Nat.le_max_right _ _

theorem minSize_le_maxSize_normalized (c : PoolConfig) :
    c.normalized.minSize ≤ c.normalized.maxSize :=
  Nat.min_le_right _ _

end PoolConfig

end BoundedResources
