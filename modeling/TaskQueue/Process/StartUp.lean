import TaskQueue.Config.Settings
import TaskQueue.Http.System

/-!
# Start-up

Evaluating the modules reads the environment, opens the connections of the two queues and
opens the store; only then does the process check `REDIS_URL`, and last it listens.  Whatever
refuses to go on, the text of its error shows little of the environment.
-/

namespace TaskQueue

open Ecma Schema Validation

/-! ## Connections -/

structure ProducerRedisOptions extends RedisOptions where
  enableOfflineQueue : Bool

def getProducerRedisOptions (special : SpecialParser) (config : RedisConfig) :
    Except JsString ProducerRedisOptions :=
  (getRedisOptions special config).map fun options => { options with enableOfflineQueue := false }

def taskQueueName : JsString := js "task-processing-queue"

def dlqQueueName : JsString := js "dlq-task-queue"

/-- `new Queue(name, { connection })`, which connects. -/
structure Connection where
  queue : JsString
  options : ProducerRedisOptions

def queueConnections (options : ProducerRedisOptions) : List Connection :=
  [⟨taskQueueName, options⟩, ⟨dlqQueueName, options⟩]

/-! ## The modules and the main program -/

/-- What the machine lets a process have; where it refuses, with the text of the error. -/
structure Host where
  /-- `pino`, and whether it is to load `pino-pretty`. -/
  createLogger : Bool → Except JsString Unit
  /-- `new IdempotencyDatabase(dbPath)`: the directory, the file and its schema. -/
  openDatabase : JsString → Except JsString Unit
  /-- `app.listen(port)`: the port's range, and that nothing listens there. -/
  listen : Nat → Except JsString Unit

/-- The modules up to the queues. -/
def connect (special : SpecialParser) (host : Host) (env : ProcessEnv) :
    Except JsString (Config × ProducerRedisOptions) := do
  let config ← loadConfig env
  host.createLogger config.isExplicitDevelopment
  let options ← getProducerRedisOptions special config.redis
  return (config, options)

/-- The modules behind the queues, and the main program. -/
def listenWith (special : SpecialParser) (host : Host) (config : Config) :
    Except JsString AppConfig := do
  host.openDatabase (config.base .sqliteDbPath)
  validateRedisUrl special config.redis.redisUrl
  host.listen config.environment.port
  return config.app

/-- What a start comes to: the connections it opened, and the configuration of the application
that listens or what was thrown. -/
def startUp (special : SpecialParser) (host : Host) (env : ProcessEnv) :
    List Connection × Except JsString AppConfig :=
  match connect special host env with
  | .error text => ([], .error text)
  | .ok (config, options) => (queueConnections options, listenWith special host config)

def Host.willing : Host := ⟨fun _ => .ok (), fun _ => .ok (), fun _ => .ok ()⟩

/-- A deployment that sets nothing has the default settings. -/
example : (startUp noSpecial .willing fun _ => none).2 = .ok .default := rfl

/-! ## What is thrown -/

def ReadAs (env : ProcessEnv) (v : Variable) (value : (EnvironmentSchema v).Value) : Prop :=
  (EnvironmentSchema v).Means (env v.name) value

def saysDevelopment (env : ProcessEnv) : Bool :=
  env Variable.nodeEnv.name == some (js "development")

/-- The texts a start is refused with.  Of the environment they show the names of variables,
the scheme of `REDIS_URL`, and what the machine says of `SQLITE_DB_PATH` and `PORT`. -/
inductive Refusal (host : Host) (env : ProcessEnv) : JsString → Prop
  | invalid (offending : ∀ v : Variable, v.name ∈ invalidKeys env ↔ v.Offends env) :
      Refusal host env (invalidConfiguration (invalidKeys env))
  | unlogged (text : JsString)
      (refused : host.createLogger (saysDevelopment env) = .error text) :
      Refusal host env text
  | unparsed : Refusal host env (js "REDIS_URL could not be parsed. Expected " ++
      js "rediss://<user>:<password>@<host>:<port>. " ++
      js "The value has been withheld from this message.")
  | unopened (path text : JsString) (read : ReadAs env .sqliteDbPath path)
      (refused : host.openDatabase path = .error text) : Refusal host env text
  | unparseable : Refusal host env
      (js "REDIS_URL is set but is not a parseable URL. Expected form: " ++
        js "rediss://<user>:<password>@<host>:<port>. " ++
        js "The value has been withheld from this message.")
  | unsupported (url scheme rest : JsString) (read : ReadAs env .redisUrl url)
      (written : Url.schemeOf (Url.clean url) = some (scheme, rest)) :
      Refusal host env (js "REDIS_URL has unsupported protocol \"" ++ (scheme ++ js ":") ++
        js "\". Expected redis: or rediss:.")
  | hostless : Refusal host env (js "REDIS_URL is missing a hostname. " ++
      js "The value has been withheld from this message.")
  | unheard (port : (EnvironmentSchema .port).Value) (text : JsString)
      (read : ReadAs env .port port) (refused : host.listen port.1.toNat = .error text) :
      Refusal host env text

variable {special : SpecialParser} {host : Host} {env : ProcessEnv}

theorem refusal_of_loadConfig {text : JsString} (h : loadConfig env = .error text) :
    Refusal host env text := by
  by_cases hkeys : invalidKeys env = []
  · obtain ⟨base, hbase⟩ := exists_means hkeys
    rw [loadConfig_eq_ok.2 ⟨base, hbase, rfl⟩] at h
    cases h
  · rw [loadConfig_eq_error hkeys] at h
    obtain rfl := Except.error.inj h
    exact .invalid fun v => mem_invalidKeys

theorem refusal_of_getRedisOptions {config : RedisConfig} {text : JsString}
    (h : getRedisOptions special config = .error text) : Refusal host env text := by
  unfold getRedisOptions at h
  simp only at h
  split at h
  · cases h
  · split at h
    · obtain rfl := Except.error.inj h
      exact .unparsed
    · split at h
      · cases h
      · obtain rfl := Except.error.inj h
        exact .unparsed

/-- The validator rewrites a value of another scheme to one of its own, so the scheme it does
not support is the value's. -/
theorem schemeOf_unsupported {rawUrl : JsString} {url : Url.Parsed}
    (hurl : parsedUrl special rawUrl = some url)
    (hprotocol : ([js "redis:", js "rediss:"].contains url.protocol) = false) :
    ∃ rest, Url.schemeOf (Url.clean rawUrl) = some (url.scheme, rest) := by
  obtain ⟨rest, hscheme⟩ := Url.schemeOf_of_parse hurl
  -- What is put in place of a scheme is supported.
  have hsupported : ∀ scheme ∈ redisSchemes, ∀ s,
      validatedText rawUrl ≠ scheme ++ Url.slashes ++ s := by
    intro scheme hmem s htext
    have hlocated := Url.located_prefixed (spells_plain (mem_plainSchemes hmem)) s
    obtain ⟨rest', hscheme', -⟩ := Url.located_iff.1 hlocated
    rw [htext, hscheme'] at hscheme
    obtain ⟨rfl, -⟩ := Prod.mk.inj (Option.some.inj hscheme)
    rw [Url.Parsed.protocol] at hprotocol
    simp only [redisSchemes, List.mem_cons, List.not_mem_nil, or_false] at hmem
    rcases hmem with hredis | hrediss
    · rw [hredis] at hprotocol
      exact absurd hprotocol (by decide)
    · rw [hrediss] at hprotocol
      exact absurd hprotocol (by decide)
  rcases validatedText_cases rawUrl with ⟨s, -, htext⟩ | ⟨s, -, htext⟩ | hsame
  · exact absurd htext (hsupported (js "rediss") (by decide) s)
  · exact absurd htext (hsupported (js "redis") (by decide) s)
  · rw [hsame] at hscheme
    exact ⟨rest, hscheme⟩

theorem refusal_of_validateRedisUrl {rawUrl text : JsString} (hread : ReadAs env .redisUrl rawUrl)
    (h : validateRedisUrl special rawUrl = .error text) : Refusal host env text := by
  unfold validateRedisUrl at h
  split at h
  · cases h
  · split at h
    · obtain rfl := Except.error.inj h
      exact .unparseable
    · rename_i url hurl
      split at h
      · rename_i hprotocol
        obtain rfl := Except.error.inj h
        obtain ⟨rest, hscheme⟩ := schemeOf_unsupported hurl (by simpa using hprotocol)
        exact .unsupported rawUrl url.scheme rest hread hscheme
      · split at h
        · obtain rfl := Except.error.inj h
          exact .hostless
        · cases h

theorem getProducerRedisOptions_eq_ok {config : RedisConfig} {options : ProducerRedisOptions} :
    getProducerRedisOptions special config = .ok options ↔
      ∃ base, getRedisOptions special config = .ok base ∧
        options = { base with enableOfflineQueue := false } := by
  unfold getProducerRedisOptions
  cases getRedisOptions special config with
  | error text => exact ⟨nofun, nofun⟩
  | ok base =>
      constructor
      · exact fun h => ⟨base, rfl, (Except.ok.inj h).symm⟩
      · rintro ⟨_, ⟨⟩, rfl⟩
        rfl

theorem refusal_of_getProducerRedisOptions {config : RedisConfig} {text : JsString}
    (h : getProducerRedisOptions special config = .error text) : Refusal host env text := by
  unfold getProducerRedisOptions at h
  cases hoptions : getRedisOptions special config with
  | error text' =>
      rw [hoptions] at h
      obtain rfl := Except.error.inj h
      exact refusal_of_getRedisOptions hoptions
  | ok base =>
      rw [hoptions] at h
      cases h

/-! ## How far a start gets -/

theorem bind_eq_ok {ε α β : Type} {x : Except ε α} {f : α → Except ε β} {b : β} :
    (x >>= f) = .ok b ↔ ∃ a, x = .ok a ∧ f a = .ok b := by
  cases x with
  | error e => exact ⟨nofun, nofun⟩
  | ok a =>
      constructor
      · exact fun h => ⟨a, rfl, h⟩
      · rintro ⟨_, ⟨⟩, h⟩
        exact h

theorem bind_eq_error {ε α β : Type} {x : Except ε α} {f : α → Except ε β} {e : ε} :
    (x >>= f) = .error e ↔ x = .error e ∨ ∃ a, x = .ok a ∧ f a = .error e := by
  cases x with
  | error e' =>
      constructor
      · exact fun h => Or.inl (congrArg Except.error (Except.error.inj h))
      · rintro (h | ⟨_, h, -⟩)
        · exact congrArg Except.error (Except.error.inj h)
        · cases h
  | ok a =>
      constructor
      · exact fun h => Or.inr ⟨a, rfl, h⟩
      · rintro (h | ⟨_, ⟨⟩, h⟩)
        · cases h
        · exact h

theorem connect_eq_ok {config : Config} {options : ProducerRedisOptions} :
    connect special host env = .ok (config, options) ↔
      ∃ (base : ParsedEnvironment) (redis : RedisOptions), (∀ v, ReadAs env v (base v)) ∧
        config = .of base (saysDevelopment env) ∧
        host.createLogger (saysDevelopment env) = .ok () ∧
        getRedisOptions special config.redis = .ok redis ∧
        options = { redis with enableOfflineQueue := false } := by
  unfold connect
  simp only [bind_eq_ok]
  constructor
  · rintro ⟨config', hload, ⟨⟩, hlogger, options', hoptions, h⟩
    obtain ⟨rfl, rfl⟩ := Prod.mk.inj (Except.ok.inj h)
    obtain ⟨base, hbase, rfl⟩ := loadConfig_eq_ok.1 hload
    obtain ⟨redis, hredis, hproducer⟩ := getProducerRedisOptions_eq_ok.1 hoptions
    exact ⟨base, redis, hbase, rfl, hlogger, hredis, hproducer⟩
  · rintro ⟨base, redis, hbase, rfl, hlogger, hredis, rfl⟩
    exact ⟨_, loadConfig_eq_ok.2 ⟨base, hbase, rfl⟩, (), hlogger, _,
      getProducerRedisOptions_eq_ok.2 ⟨redis, hredis, rfl⟩, rfl⟩

theorem refusal_of_connect {text : JsString} (h : connect special host env = .error text) :
    Refusal host env text := by
  rcases bind_eq_error.1 h with hload | ⟨config, hload, h⟩
  · exact refusal_of_loadConfig hload
  · obtain ⟨base, -, rfl⟩ := loadConfig_eq_ok.1 hload
    rcases bind_eq_error.1 h with hlogger | ⟨_, -, h⟩
    · exact .unlogged text hlogger
    · rcases bind_eq_error.1 h with hoptions | ⟨_, -, h⟩
      · exact refusal_of_getProducerRedisOptions hoptions
      · cases h

theorem listenWith_eq_ok {config : Config} {app : AppConfig} :
    listenWith special host config = .ok app ↔
      host.openDatabase (config.base .sqliteDbPath) = .ok () ∧
        validateRedisUrl special config.redis.redisUrl = .ok () ∧
        host.listen config.environment.port = .ok () ∧ app = config.app := by
  unfold listenWith
  simp only [bind_eq_ok]
  constructor
  · rintro ⟨⟨⟩, hopen, ⟨⟩, hvalid, ⟨⟩, hlisten, h⟩
    exact ⟨hopen, hvalid, hlisten, (Except.ok.inj h).symm⟩
  · rintro ⟨hopen, hvalid, hlisten, rfl⟩
    exact ⟨(), hopen, (), hvalid, (), hlisten, rfl⟩

theorem refusal_of_listenWith {base : ParsedEnvironment} (hbase : ∀ v, ReadAs env v (base v))
    {isExplicitDevelopment : Bool} {text : JsString}
    (h : listenWith special host (.of base isExplicitDevelopment) = .error text) :
    Refusal host env text := by
  rcases bind_eq_error.1 h with hopen | ⟨_, -, h⟩
  · exact .unopened _ text (hbase .sqliteDbPath) hopen
  · rcases bind_eq_error.1 h with hvalid | ⟨_, -, h⟩
    · exact refusal_of_validateRedisUrl (hbase .redisUrl) hvalid
    · rcases bind_eq_error.1 h with hlisten | ⟨_, -, h⟩
      · exact .unheard _ text (hbase .port) hlisten
      · cases h

/-! ## Every start -/

structure Boots (special : SpecialParser) (host : Host) (env : ProcessEnv)
    (base : ParsedEnvironment) : Prop where
  reads : ∀ v, ReadAs env v (base v)
  logs : host.createLogger (saysDevelopment env) = .ok ()
  connects : ∃ options,
    getRedisOptions special (Config.of base (saysDevelopment env)).redis = .ok options
  opens : host.openDatabase (base .sqliteDbPath) = .ok ()
  valid : validateRedisUrl special (base .redisUrl) = .ok ()
  listens : host.listen (base .port).1.toNat = .ok ()

theorem startUp_eq_ok {app : AppConfig} :
    (startUp special host env).2 = .ok app ↔
      ∃ base, Boots special host env base ∧
        app = (Config.of base (saysDevelopment env)).app := by
  unfold startUp
  constructor
  · intro h
    split at h
    · cases h
    · rename_i config options hconnect
      obtain ⟨base, redis, hbase, rfl, hlogger, hredis, -⟩ := connect_eq_ok.1 hconnect
      obtain ⟨hopen, hvalid, hlisten, rfl⟩ := listenWith_eq_ok.1 h
      exact ⟨base, ⟨hbase, hlogger, ⟨redis, hredis⟩, hopen, hvalid, hlisten⟩, rfl⟩
  · rintro ⟨base, hboots, rfl⟩
    obtain ⟨redis, hredis⟩ := hboots.connects
    rw [connect_eq_ok.2 ⟨base, redis, hboots.reads, rfl, hboots.logs, hredis, rfl⟩]
    exact listenWith_eq_ok.2 ⟨hboots.opens, hboots.valid, hboots.listens, rfl⟩

/-- The connections there are, also when something else is refused. -/
theorem startUp_connections {options : RedisOptions} :
    (startUp special host env).1 =
        queueConnections { options with enableOfflineQueue := false } ↔
      ∃ base : ParsedEnvironment, (∀ v, ReadAs env v (base v)) ∧
        host.createLogger (saysDevelopment env) = .ok () ∧
        getRedisOptions special (Config.of base (saysDevelopment env)).redis = .ok options := by
  unfold startUp
  constructor
  · intro h
    split at h
    · cases h
    · rename_i config producer hconnect
      obtain ⟨base, redis, hbase, rfl, hlogger, hredis, rfl⟩ := connect_eq_ok.1 hconnect
      obtain ⟨hfirst, -⟩ := List.cons.inj h
      have hsame : redis = options :=
        congrArg (fun c : Connection => c.options.toRedisOptions) hfirst
      exact ⟨base, hbase, hlogger, hsame ▸ hredis⟩
  · rintro ⟨base, hbase, hlogger, hredis⟩
    rw [connect_eq_ok.2 ⟨base, options, hbase, rfl, hlogger, hredis, rfl⟩]

/-- A process that is refused shows of its environment no more than a `Refusal` does.  It
listens exactly when its variables are read as settings that nothing refuses, and then its
application has these settings.  The connections of its queues, which do not wait while they
are offline, are there as soon as the options are: before the store is opened, before
`REDIS_URL` is checked, and whatever comes of either. -/
theorem start_up_withholds (special : SpecialParser) (host : Host) (env : ProcessEnv) :
    (∀ text, (startUp special host env).2 = .error text → Refusal host env text) ∧
      (∀ app, (startUp special host env).2 = .ok app ↔
        ∃ base, Boots special host env base ∧
          app = (Config.of base (saysDevelopment env)).app) ∧
      ∀ options : RedisOptions,
        (startUp special host env).1 =
            queueConnections { options with enableOfflineQueue := false } ↔
          ∃ base : ParsedEnvironment, (∀ v, ReadAs env v (base v)) ∧
            host.createLogger (saysDevelopment env) = .ok () ∧
            getRedisOptions special (Config.of base (saysDevelopment env)).redis =
              .ok options := by
  refine ⟨fun text h => ?_, fun app => startUp_eq_ok, fun options => startUp_connections⟩
  unfold startUp at h
  split at h
  · rename_i text' hconnect
    obtain rfl := Except.error.inj h
    exact refusal_of_connect hconnect
  · rename_i config options hconnect
    obtain ⟨base, redis, hbase, rfl, -⟩ := connect_eq_ok.1 hconnect
    exact refusal_of_listenWith hbase h

end TaskQueue
