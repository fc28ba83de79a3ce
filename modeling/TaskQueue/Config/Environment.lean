/-!
# The validated environment

The settings the service reads once at start-up.  The schema accepts a setting
only when it is a positive (or, where noted, non-negative) integer, and the
validated record keeps that fact with the value.
-/

namespace TaskQueue

/-- `config`, restricted to the settings the modelled code reads. -/
structure Environment where
  port : Nat
  maxQueueDepth : Nat
  /-- The one setting that may be zero. -/
  queueDepthCacheTtlMs : Nat
  httpRateLimitWindowMs : Nat
  httpRateLimitMaxPerIp : Nat
  httpRateLimitMaxGlobal : Nat
  dashboardRateLimitMaxPerIp : Nat
  dashboardSnapshotTtlMs : Nat
  dashboardMaxCacheEntries : Nat
  dashboardMaxRefreshesPerWindow : Nat
  dashboardRefreshWindowMs : Nat
  webhookTimeoutMs : Nat
  port_pos : 0 < port
  maxQueueDepth_pos : 0 < maxQueueDepth
  httpRateLimitWindowMs_pos : 0 < httpRateLimitWindowMs
  httpRateLimitMaxPerIp_pos : 0 < httpRateLimitMaxPerIp
  httpRateLimitMaxGlobal_pos : 0 < httpRateLimitMaxGlobal
  dashboardRateLimitMaxPerIp_pos : 0 < dashboardRateLimitMaxPerIp
  dashboardSnapshotTtlMs_pos : 0 < dashboardSnapshotTtlMs
  dashboardMaxCacheEntries_pos : 0 < dashboardMaxCacheEntries
  dashboardMaxRefreshesPerWindow_pos : 0 < dashboardMaxRefreshesPerWindow
  dashboardRefreshWindowMs_pos : 0 < dashboardRefreshWindowMs
  webhookTimeoutMs_pos : 0 < webhookTimeoutMs

def Environment.default : Environment where
  port := 3000
  maxQueueDepth := 1000
  queueDepthCacheTtlMs := 5000
  httpRateLimitWindowMs := 60000
  httpRateLimitMaxPerIp := 20
  httpRateLimitMaxGlobal := 200
  dashboardRateLimitMaxPerIp := 120
  dashboardSnapshotTtlMs := 900000
  dashboardMaxCacheEntries := 64
  dashboardMaxRefreshesPerWindow := 60
  dashboardRefreshWindowMs := 60000
  webhookTimeoutMs := 5000
  port_pos := by decide
  maxQueueDepth_pos := by decide
  httpRateLimitWindowMs_pos := by decide
  httpRateLimitMaxPerIp_pos := by decide
  httpRateLimitMaxGlobal_pos := by decide
  dashboardRateLimitMaxPerIp_pos := by decide
  dashboardSnapshotTtlMs_pos := by decide
  dashboardMaxCacheEntries_pos := by decide
  dashboardMaxRefreshesPerWindow_pos := by decide
  dashboardRefreshWindowMs_pos := by decide
  webhookTimeoutMs_pos := by decide

end TaskQueue
