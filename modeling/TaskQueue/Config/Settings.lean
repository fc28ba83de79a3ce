import TaskQueue.Config.Environment
import TaskQueue.Config.RedisAgreement
import TaskQueue.Http.App
import TaskQueue.Lib.TextSchema

/-!
# Reading the environment

The process reads its environment once.  It starts only when every variable of the schema
is absent or spells a value the schema allows; otherwise it throws a text that names the
variables that do not, and nothing of what they hold.
-/

namespace TaskQueue

open Ecma Schema Validation

abbrev ProcessEnv := JsString → Option JsString

/-! ## The schema -/

inductive Variable
  | nodeEnv | port | logLevel
  | redisUrl | redisHost | redisPort | redisPassword
  | workerConcurrency | workerDrainDelaySeconds | workerStalledIntervalMs
  | rateLimitMax | rateLimitDurationMs
  | httpRateLimitWindowMs | httpRateLimitMaxPerIp | httpRateLimitMaxGlobal
  | jsonBodyLimit | trustProxyHops
  | maxQueueDepth | queueDepthCacheTtlMs
  | dashboardSnapshotTtlMs | dashboardPollIntervalSeconds | dashboardMaxCacheEntries
  | dashboardMaxRefreshesPerWindow | dashboardRefreshWindowMs | dashboardRateLimitMaxPerIp
  | webhookTimeoutMs
  | bullboardUser | bullboardPassword
  | corsAllowedOrigins
  | sqliteDbPath
  deriving DecidableEq

namespace Variable

def name : Variable → JsString
  | nodeEnv => js "NODE_ENV"
  | port => js "PORT"
  | logLevel => js "LOG_LEVEL"
  | redisUrl => js "REDIS_URL"
  | redisHost => js "REDIS_HOST"
  | redisPort => js "REDIS_PORT"
  | redisPassword => js "REDIS_PASSWORD"
  | workerConcurrency => js "WORKER_CONCURRENCY"
  | workerDrainDelaySeconds => js "WORKER_DRAIN_DELAY_SECONDS"
  | workerStalledIntervalMs => js "WORKER_STALLED_INTERVAL_MS"
  | rateLimitMax => js "RATE_LIMIT_MAX"
  | rateLimitDurationMs => js "RATE_LIMIT_DURATION_MS"
  | httpRateLimitWindowMs => js "HTTP_RATE_LIMIT_WINDOW_MS"
  | httpRateLimitMaxPerIp => js "HTTP_RATE_LIMIT_MAX_PER_IP"
  | httpRateLimitMaxGlobal => js "HTTP_RATE_LIMIT_MAX_GLOBAL"
  | jsonBodyLimit => js "JSON_BODY_LIMIT"
  | trustProxyHops => js "TRUST_PROXY_HOPS"
  | maxQueueDepth => js "MAX_QUEUE_DEPTH"
  | queueDepthCacheTtlMs => js "QUEUE_DEPTH_CACHE_TTL_MS"
  | dashboardSnapshotTtlMs => js "DASHBOARD_SNAPSHOT_TTL_MS"
  | dashboardPollIntervalSeconds => js "DASHBOARD_POLL_INTERVAL_SECONDS"
  | dashboardMaxCacheEntries => js "DASHBOARD_MAX_CACHE_ENTRIES"
  | dashboardMaxRefreshesPerWindow => js "DASHBOARD_MAX_REFRESHES_PER_WINDOW"
  | dashboardRefreshWindowMs => js "DASHBOARD_REFRESH_WINDOW_MS"
  | dashboardRateLimitMaxPerIp => js "DASHBOARD_RATE_LIMIT_MAX_PER_IP"
  | webhookTimeoutMs => js "WEBHOOK_TIMEOUT_MS"
  | bullboardUser => js "BULLBOARD_USER"
  | bullboardPassword => js "BULLBOARD_PASSWORD"
  | corsAllowedOrigins => js "CORS_ALLOWED_ORIGINS"
  | sqliteDbPath => js "SQLITE_DB_PATH"

def all : List Variable :=
  [nodeEnv, port, logLevel, redisUrl, redisHost, redisPort, redisPassword, workerConcurrency,
    workerDrainDelaySeconds, workerStalledIntervalMs, rateLimitMax, rateLimitDurationMs,
    httpRateLimitWindowMs, httpRateLimitMaxPerIp, httpRateLimitMaxGlobal, jsonBodyLimit,
    trustProxyHops, maxQueueDepth, queueDepthCacheTtlMs, dashboardSnapshotTtlMs,
    dashboardPollIntervalSeconds, dashboardMaxCacheEntries, dashboardMaxRefreshesPerWindow,
    dashboardRefreshWindowMs, dashboardRateLimitMaxPerIp, webhookTimeoutMs, bullboardUser,
    bullboardPassword, corsAllowedOrigins, sqliteDbPath]

theorem mem_all (v : Variable) : v ∈ all := by
  cases v <;> decide

theorem nodup_names : (all.map name).Nodup := by
  decide +kernel

end Variable

/-- `z.coerce.number().int().positive().default(default)`. -/
abbrev positive (default : Nat) : Rule := .integer [.positive] default

/-- `z.coerce.number().int().nonnegative().default(default)`. -/
abbrev nonnegative (default : Nat) : Rule := .integer [.nonnegative] default

/-- `EnvironmentSchema`.  A setting that is `.optional()` besides is no different. -/
abbrev EnvironmentSchema : Variable → Rule
  | .nodeEnv => .enum [js "development", js "production", js "test"] (js "development")
  | .port => positive 3000
  | .logLevel => .enum [js "fatal", js "error", js "warn", js "info", js "debug", js "trace"]
      (js "info")
  | .redisUrl => .string []
  | .redisHost => .string (js "localhost")
  | .redisPort => positive 6379
  | .redisPassword => .string []
  | .workerConcurrency => .integer [.positive, .max 50] 5
  | .workerDrainDelaySeconds => positive 60
  | .workerStalledIntervalMs => positive 300000
  | .rateLimitMax => positive 100
  | .rateLimitDurationMs => positive 60000
  | .httpRateLimitWindowMs => positive 60000
  | .httpRateLimitMaxPerIp => positive 20
  | .httpRateLimitMaxGlobal => positive 200
  | .jsonBodyLimit => .string (js "16kb")
  | .trustProxyHops => nonnegative 1
  | .maxQueueDepth => positive 1000
  | .queueDepthCacheTtlMs => nonnegative 5000
  | .dashboardSnapshotTtlMs => positive 900000
  | .dashboardPollIntervalSeconds => positive 10
  | .dashboardMaxCacheEntries => positive 64
  | .dashboardMaxRefreshesPerWindow => positive 60
  | .dashboardRefreshWindowMs => positive 60000
  | .dashboardRateLimitMaxPerIp => positive 120
  | .webhookTimeoutMs => positive 5000
  | .bullboardUser => .string []
  | .bullboardPassword => .string []
  | .corsAllowedOrigins => .string (js "https://slakedesign.com,https://www.slakedesign.com")
  | .sqliteDbPath => .string (js "./data/idempotency.db")

theorem environmentSchema_defaulted (v : Variable) : (EnvironmentSchema v).Defaulted := by
  cases v <;> decide

/-- `z.infer<typeof EnvironmentSchema>`. -/
abbrev ParsedEnvironment := ∀ v : Variable, (EnvironmentSchema v).Value

def Variable.read (v : Variable) (env : ProcessEnv) : Checked Issue (EnvironmentSchema v).Value :=
  ((EnvironmentSchema v).read (env v.name)).mapFailures fun code => ⟨[v.name], code⟩

/-- `EnvironmentSchema.safeParse(process.env)`. -/
def safeParse (env : ProcessEnv) : Except (List Issue) ParsedEnvironment :=
  collect Variable.all Variable.mem_all fun v => v.read env

/-! ## The configuration -/

structure Config where
  base : ParsedEnvironment
  corsAllowedOrigins : List JsString
  adminAuthConfigured : Bool
  isExplicitDevelopment : Bool

/-- `config`, of what was parsed and of whether `NODE_ENV` itself says `development`. -/
def Config.of (base : ParsedEnvironment) (isExplicitDevelopment : Bool) : Config where
  base
  corsAllowedOrigins := parseOriginList (base .corsAllowedOrigins)
  adminAuthConfigured :=
    0 < List.length (base .bullboardUser) && 0 < List.length (base .bullboardPassword)
  isExplicitDevelopment

def invalidConfiguration (invalidKeys : List JsString) : JsString :=
  js "Invalid environment configuration. Offending variables: " ++
    (js ", ").intercalate invalidKeys ++
    js ". Values are intentionally omitted from this message."

/-- The module `environment`: what it exports as `config`, or the message it throws. -/
def loadConfig (env : ProcessEnv) : Except JsString Config :=
  match safeParse env with
  | .error issues => .error (invalidConfiguration
      (issues.map fun issue => (js ".").intercalate issue.path).eraseDups)
  | .ok base => .ok (.of base (env (js "NODE_ENV") == some (js "development")))

/-! ## What is reported -/

/-- The variable is set, to a text that means no value of its schema. -/
def Variable.Offends (env : ProcessEnv) (v : Variable) : Prop :=
  ∃ s, env v.name = some s ∧ ∀ value, ¬ (EnvironmentSchema v).Means (some s) value

theorem Variable.read_eq_valid {v : Variable} {env : ProcessEnv}
    {value : (EnvironmentSchema v).Value} :
    v.read env = .valid value ↔ (EnvironmentSchema v).Means (env v.name) value := by
  unfold Variable.read
  rw [Checked.mapFailures_eq_valid]
  exact Rule.read_eq_valid

/-- An absent variable has its default, so only a set one offends. -/
theorem Variable.isInvalid_iff {v : Variable} {env : ProcessEnv} :
    (v.read env).isInvalid = true ↔ v.Offends env := by
  have hvalid : (v.read env).isInvalid = false ↔
      ∃ value, (EnvironmentSchema v).Means (env v.name) value := by
    rw [Checked.isInvalid_eq_false]
    exact exists_congr fun value => Variable.read_eq_valid
  constructor
  · intro hinvalid
    cases hset : env v.name with
    | none =>
        obtain ⟨value, hvalue⟩ :=
          Checked.isInvalid_eq_false.1 (environmentSchema_defaulted v).read_none
        have hmeans : ∃ value, (EnvironmentSchema v).Means (env v.name) value :=
          ⟨value, hset ▸ Rule.read_eq_valid.1 hvalue⟩
        rw [hvalid.2 hmeans] at hinvalid
        cases hinvalid
    | some s =>
        refine ⟨s, hset, fun value hmeans => ?_⟩
        rw [hvalid.2 ⟨value, hset ▸ hmeans⟩] at hinvalid
        cases hinvalid
  · rintro ⟨s, hset, hnone⟩
    by_contra hinvalid
    obtain ⟨value, hmeans⟩ := hvalid.1 (Bool.eq_false_iff.2 hinvalid)
    exact hnone value (hset ▸ hmeans)

def invalidKeys (env : ProcessEnv) : List JsString :=
  (Variable.all.filter fun v => (v.read env).isInvalid).map Variable.name

theorem mem_invalidKeys {env : ProcessEnv} {v : Variable} :
    v.name ∈ invalidKeys env ↔ v.Offends env := by
  unfold invalidKeys
  rw [List.mem_map]
  constructor
  · rintro ⟨w, hw, hname⟩
    have hsame : w = v := List.inj_on_of_nodup_map Variable.nodup_names (Variable.mem_all w)
      (Variable.mem_all v) hname
    rw [List.mem_filter, hsame] at hw
    exact Variable.isInvalid_iff.1 hw.2
  · intro h
    exact ⟨v, List.mem_filter.2 ⟨Variable.mem_all v, Variable.isInvalid_iff.2 h⟩, rfl⟩

theorem path_of_issue {env : ProcessEnv} {v : Variable} :
    ∀ issue ∈ (v.read env).failures, (js ".").intercalate issue.path = v.name := by
  intro issue hissue
  unfold Variable.read at hissue
  rw [Checked.failures_mapFailures, List.mem_map] at hissue
  obtain ⟨code, -, rfl⟩ := hissue
  simp [List.intercalate]

theorem loadConfig_eq_error {env : ProcessEnv} (h : invalidKeys env ≠ []) :
    loadConfig env = .error (invalidConfiguration (invalidKeys env)) := by
  obtain ⟨v, hv⟩ : ∃ v : Variable, (v.read env).isInvalid = true := by
    obtain ⟨key, hkey⟩ := List.exists_mem_of_ne_nil _ h
    obtain ⟨v, hv, -⟩ := List.mem_map.1 hkey
    exact ⟨v, (List.mem_filter.1 hv).2⟩
  have hparse : safeParse env = .error (Variable.all.flatMap fun v => (v.read env).failures) :=
    collect_eq_error.2 ⟨rfl, v, hv⟩
  have hreport := eraseDups_report (fun v : Variable => v.read env)
    (fun issue => (js ".").intercalate issue.path) Variable.nodup_names fun v => path_of_issue
  rw [loadConfig, hparse]
  exact congrArg (fun keys => Except.error (invalidConfiguration keys)) hreport

theorem loadConfig_eq_ok {env : ProcessEnv} {config : Config} :
    loadConfig env = .ok config ↔
      ∃ base : ParsedEnvironment, (∀ v, (EnvironmentSchema v).Means (env v.name) (base v)) ∧
        config = .of base (env (js "NODE_ENV") == some (js "development")) := by
  have hparse : ∀ base, safeParse env = .ok base ↔
      ∀ v, (EnvironmentSchema v).Means (env v.name) (base v) := fun base =>
    collect_eq_ok.trans (forall_congr' fun v => Variable.read_eq_valid)
  constructor
  · intro h
    unfold loadConfig at h
    split at h
    · cases h
    · rename_i base hbase
      exact ⟨base, (hparse base).1 hbase, (Except.ok.inj h).symm⟩
  · rintro ⟨base, hbase, rfl⟩
    rw [loadConfig, (hparse base).2 hbase]

theorem exists_means {env : ProcessEnv} (h : invalidKeys env = []) :
    ∃ base : ParsedEnvironment, ∀ v, (EnvironmentSchema v).Means (env v.name) (base v) := by
  have hread : ∀ v : Variable, ∃ value, (EnvironmentSchema v).Means (env v.name) value := by
    intro v
    have hvalid : (v.read env).isInvalid = false := by
      rw [Bool.eq_false_iff]
      intro hinvalid
      have hmem := mem_invalidKeys.2 (Variable.isInvalid_iff.1 hinvalid)
      rw [h] at hmem
      cases hmem
    obtain ⟨value, hvalue⟩ := Checked.isInvalid_eq_false.1 hvalid
    exact ⟨value, Variable.read_eq_valid.1 hvalue⟩
  choose base hbase using hread
  exact ⟨base, hbase⟩

/-- For every environment there is a list of variables, in the order of the schema and without
repetition, that are set to a text without a value.  If it is empty, every setting is what its
variable means, or its default; if not, the process throws a text that names them, and throws the
same text whatever else the environment holds. -/
theorem configuration_read (env : ProcessEnv) :
    ∃ keys : List JsString, keys.Sublist (Variable.all.map Variable.name) ∧
      (∀ v : Variable, v.name ∈ keys ↔ v.Offends env) ∧
      (keys = [] → ∃ config, loadConfig env = .ok config ∧
        ∀ v, (EnvironmentSchema v).Means (env v.name) (config.base v)) ∧
      (keys ≠ [] → ∀ other : ProcessEnv, (∀ v : Variable, v.Offends other ↔ v.Offends env) →
        loadConfig other = .error (invalidConfiguration keys)) := by
  refine ⟨invalidKeys env, List.filter_sublist.map _, fun v => mem_invalidKeys,
    fun hkeys => ?_, fun hkeys other hsame => ?_⟩
  · obtain ⟨base, hbase⟩ := exists_means hkeys
    exact ⟨_, loadConfig_eq_ok.2 ⟨base, hbase, rfl⟩, hbase⟩
  · have hother : invalidKeys other = invalidKeys env := by
      unfold invalidKeys
      apply congrArg (List.map Variable.name)
      apply List.filter_congr
      intro v _
      rw [Bool.eq_iff_iff, Variable.isInvalid_iff, Variable.isInvalid_iff]
      exact hsame v
    rw [← hother] at hkeys ⊢
    exact loadConfig_eq_error hkeys

/-! ## What the other modules get -/

theorem pos_of_bounded {bounds : List Bound} (h : .positive ∈ bounds) (z : Bounded bounds) :
    0 < z.1.toNat := by
  have hpos := z.2 .positive h
  rw [Bound.allows, decide_eq_true_eq] at hpos
  omega

def Config.environment (config : Config) : Environment where
  port := (config.base .port).1.toNat
  maxQueueDepth := (config.base .maxQueueDepth).1.toNat
  queueDepthCacheTtlMs := (config.base .queueDepthCacheTtlMs).1.toNat
  httpRateLimitWindowMs := (config.base .httpRateLimitWindowMs).1.toNat
  httpRateLimitMaxPerIp := (config.base .httpRateLimitMaxPerIp).1.toNat
  httpRateLimitMaxGlobal := (config.base .httpRateLimitMaxGlobal).1.toNat
  dashboardRateLimitMaxPerIp := (config.base .dashboardRateLimitMaxPerIp).1.toNat
  dashboardSnapshotTtlMs := (config.base .dashboardSnapshotTtlMs).1.toNat
  dashboardMaxCacheEntries := (config.base .dashboardMaxCacheEntries).1.toNat
  dashboardMaxRefreshesPerWindow := (config.base .dashboardMaxRefreshesPerWindow).1.toNat
  dashboardRefreshWindowMs := (config.base .dashboardRefreshWindowMs).1.toNat
  webhookTimeoutMs := (config.base .webhookTimeoutMs).1.toNat
  port_pos := pos_of_bounded List.mem_cons_self _
  maxQueueDepth_pos := pos_of_bounded List.mem_cons_self _
  httpRateLimitWindowMs_pos := pos_of_bounded List.mem_cons_self _
  httpRateLimitMaxPerIp_pos := pos_of_bounded List.mem_cons_self _
  httpRateLimitMaxGlobal_pos := pos_of_bounded List.mem_cons_self _
  dashboardRateLimitMaxPerIp_pos := pos_of_bounded List.mem_cons_self _
  dashboardSnapshotTtlMs_pos := pos_of_bounded List.mem_cons_self _
  dashboardMaxCacheEntries_pos := pos_of_bounded List.mem_cons_self _
  dashboardMaxRefreshesPerWindow_pos := pos_of_bounded List.mem_cons_self _
  dashboardRefreshWindowMs_pos := pos_of_bounded List.mem_cons_self _
  webhookTimeoutMs_pos := pos_of_bounded List.mem_cons_self _

def Config.app (config : Config) : AppConfig where
  env := config.environment
  trustProxyHops := (config.base .trustProxyHops).1.toNat
  corsAllowedOrigins := config.corsAllowedOrigins
  admin := ⟨config.base .bullboardUser, config.base .bullboardPassword⟩
  isExplicitDevelopment := config.isExplicitDevelopment

def Config.redis (config : Config) : RedisConfig where
  redisUrl := config.base .redisUrl
  redisHost := config.base .redisHost
  redisPort := (config.base .redisPort).1.toNat
  redisPassword := config.base .redisPassword

/-- The settings of an environment that sets nothing. -/
example : (loadConfig fun _ => none).map Config.environment = .ok .default := rfl

end TaskQueue
