import TaskQueue.Http.Responses
import TaskQueue.Process.StartUp

/-!
# What a deployment discloses

The metrics are for those who know the credentials in the environment.  An application that
was started from an environment hides them from everyone else, unless the environment itself
says that it is for development: a default does not.
-/

namespace TaskQueue

open Ecma Unicode
open Dashboard (Outcome)

variable {special : SpecialParser} {host : Host} {env : ProcessEnv} {ext : External}
  {options : JobOptions} {config : AppConfig} {packages : Packages} {queueNames : List JsString}
  {β : Type} {r : HttpRequest} {now : Nat} {readings : Readings}
  {s t : App config.env queueNames β} {response : Option (Response β)}

/-! ## Who is let through -/

/-- The request has the header of a client that knows the two texts the environment sets. -/
def ShowsCredentials (packages : Packages) (env : ProcessEnv) (r : HttpRequest) : Prop :=
  ∃ user password header, env Variable.bullboardUser.name = some user ∧ user ≠ [] ∧
    env Variable.bullboardPassword.name = some password ∧ password ≠ [] ∧
    r.authorization = some header ∧ BasicScheme header ∧
    decodedText packages.fromBase64 header = toWellFormed (user ++ 0x3A :: password) ∧
    (0x3A : UInt16) ∉ user

def CredentialsCollisionFree (packages : Packages) (env : ProcessEnv) : Prop :=
  ∀ v ∈ [Variable.bullboardUser, .bullboardPassword], ∀ text, env v.name = some text →
    CollisionFree packages.sha256 text

theorem requireAdminAuth_none (sha256 : List UInt8 → Digest)
    (fromBase64 : JsString → List UInt8) (admin : AdminConfig) :
    requireAdminAuth sha256 fromBase64 admin none ≠ none := by
  unfold requireAdminAuth
  split <;> simp [parseBasicAuth]

theorem requireAdminAuth_of_unconfigured {sha256 : List UInt8 → Digest}
    {fromBase64 : JsString → List UInt8} {admin : AdminConfig}
    (h : admin.adminAuthConfigured ≠ true) (authorization : Option JsString) :
    requireAdminAuth sha256 fromBase64 admin authorization ≠ none := by
  unfold requireAdminAuth
  rw [if_pos (by simpa using h)]
  simp

theorem getD_eq_iff_of_ne_nil {raw : Option JsString} {text : JsString} (hne : text ≠ []) :
    raw.getD [] = text ↔ raw = some text := by
  cases raw with
  | none => simpa using hne.symm
  | some value => simp

/-- The guard of a started application asks for the credentials of its environment. -/
theorem requireAdminAuth_eq_none_iff_shows {base : ParsedEnvironment}
    (hreads : ∀ v, ReadAs env v (base v)) (hfree : CredentialsCollisionFree packages env)
    (development : Bool) (r : HttpRequest) :
    requireAdminAuth packages.sha256 packages.fromBase64 (Config.of base development).app.admin
        r.authorization = none ↔ ShowsCredentials packages env r := by
  have huser : base .bullboardUser = (env Variable.bullboardUser.name).getD [] :=
    hreads .bullboardUser
  have hpassword : base .bullboardPassword = (env Variable.bullboardPassword.name).getD [] :=
    hreads .bullboardPassword
  constructor
  · intro hnone
    have hset : base .bullboardUser ≠ [] ∧ base .bullboardPassword ≠ [] := by
      by_contra hunset
      refine requireAdminAuth_of_unconfigured (fun hconfigured => hunset ?_) _ hnone
      exact adminAuthConfigured_eq_true.1 hconfigured
    have huser' := (getD_eq_iff_of_ne_nil hset.1).1 huser.symm
    have hpassword' := (getD_eq_iff_of_ne_nil hset.2).1 hpassword.symm
    cases hheader : r.authorization with
    | none =>
        rw [hheader] at hnone
        exact absurd hnone (requireAdminAuth_none _ _ _)
    | some header =>
        rw [hheader] at hnone
        obtain ⟨-, hbasic, htext, hcolon⟩ := (requireAdminAuth_eq_none_iff
          (hfree .bullboardUser (by simp) _ huser')
          (hfree .bullboardPassword (by simp) _ hpassword') header).1 hnone
        exact ⟨_, _, header, huser', hset.1, hpassword', hset.2, hheader, hbasic, htext, hcolon⟩
  · rintro ⟨user, password, header, huser', huserSet, hpassword', hpasswordSet, hheader, hbasic,
      htext, hcolon⟩
    rw [huser', Option.getD_some] at huser
    rw [hpassword', Option.getD_some] at hpassword
    have hadmin : (Config.of base development).app.admin = ⟨user, password⟩ :=
      congrArg₂ AdminConfig.mk huser hpassword
    rw [hheader, hadmin]
    exact (requireAdminAuth_eq_none_iff (hfree .bullboardUser (by simp) _ huser')
      (hfree .bullboardPassword (by simp) _ hpassword') header).2
      ⟨⟨huserSet, hpasswordSet⟩, hbasic, htext, hcolon⟩

/-! ## What is answered -/

/-- A text is only ever answered by the route of the metrics. -/
theorem App.Handled.of_text {x : Response β} {text : JsString}
    (h : App.Handled ext options config packages r now readings s t (some x))
    (htext : x.content = .text text) :
    ∃ headers body, (r.pass config packages readings : Passed β) = .routed .metrics headers body ∧
      x = metricsRoute config packages r readings headers := by
  obtain ⟨sent, hsent⟩ : ∃ sent, some x = sent := ⟨_, rfl⟩
  rw [hsent] at h
  cases h with
  | answered answer pass =>
      obtain rfl := Option.some.inj hsent
      rcases content_pass pass with hempty | ⟨error, herror⟩
      · rw [hempty] at htext
        cases htext
      · rw [herror] at htext
        cases htext
  | replied endpoint headers body answer pass unboarded unlimited serve =>
      obtain rfl := Option.some.inj hsent
      cases endpoint with
      | metrics =>
          obtain rfl := Option.some.inj (Prod.mk.inj (Option.some.inj serve)).2
          exact ⟨headers, body, pass, rfl⟩
      | webhookSink =>
          obtain rfl := Option.some.inj (Prod.mk.inj (Option.some.inj serve)).2
          unfold sinkHandler at htext
          split at htext
          · cases htext
          · cases htext
      | board path => exact absurd rfl (unboarded path)
      | job jobName => exact absurd rfl (unlimited jobName)
      | _ =>
          obtain rfl := Option.some.inj (Prod.mk.inj (Option.some.inj serve)).2
          cases htext
  | boarded path headers body pass =>
      rcases boardResponse_cases hsent.symm with ⟨refusal, herror⟩ |
        ⟨_, _, payload, -, -, -, hboard⟩
      · rw [herror] at htext
        cases htext
      · rw [hboard] at htext
        cases htext
  | limited jobName headers body _ pass verdict counted =>
      obtain rfl := Option.some.inj hsent
      cases htext
  | dispatched => cases hsent

theorem App.Handled.of_metrics {headers : Headers} {body : Json}
    (h : App.Handled ext options config packages r now readings s t response)
    (hpass : (r.pass config packages readings : Passed β) = .routed .metrics headers body) :
    response = some (metricsRoute config packages r readings headers) := by
  cases h with
  | answered answer pass => cases pass.symm.trans hpass
  | replied endpoint headers' body' answer pass unboarded unlimited serve =>
      cases pass.symm.trans hpass
      exact ((Prod.mk.inj (Option.some.inj serve)).2).symm
  | boarded path headers' body' pass => cases pass.symm.trans hpass
  | limited jobName headers' body' _ pass => cases pass.symm.trans hpass
  | dispatched jobName headers' body' _ _ pass => cases pass.symm.trans hpass

/-- The route answers with the metrics exactly when its guard lets the request through. -/
theorem metricsRoute_content {contentType text : JsString}
    (hmetrics : readings.metrics = some (contentType, text)) (headers : Headers) :
    (metricsRoute config packages r readings headers : Response β).content = .text text ↔
      config.isExplicitDevelopment = true ∨
        requireAdminAuth packages.sha256 packages.fromBase64 config.admin r.authorization =
          none := by
  have hhandler : (metricsHandler readings headers : Response β).content = .text text := by
    rw [metricsHandler, hmetrics]
  unfold metricsRoute
  cases config.isExplicitDevelopment with
  | true => simpa using hhandler
  | false =>
      cases requireAdminAuth packages.sha256 packages.fromBase64 config.admin r.authorization with
      | none => simpa using hhandler
      | some refusal => simp

/-! ## Every request -/

/-- Whatever environment a process is started with and whatever its application has gone
through: a response has the metrics exactly when the request is one for their route that got
through the middlewares, and the environment itself says `development` or the request shows the
credentials it sets, which none does where there are none or the user has a colon in it.  A
dispatch is never answered with them. -/
theorem metrics_disclosed (hstart : (startUp special host env).2 = .ok config)
    (hfree : CredentialsCollisionFree packages env) {contentType text : JsString}
    (hmetrics : readings.metrics = some (contentType, text))
    (h : s.http ext options config packages r now readings = some (t, response)) :
    ((∃ x, response = some x ∧ x.content = .text text) ↔
      (∃ headers body, (r.pass config packages readings : Passed β) =
        .routed .metrics headers body) ∧
      (saysDevelopment env = true ∨ ShowsCredentials packages env r)) ∧
    ∀ d x, t.settled d = some x → x.content ≠ .text text := by
  obtain ⟨-, -, hhandled⟩ := App.http_cases h
  obtain ⟨base, hboots, rfl⟩ := startUp_eq_ok.1 hstart
  have hguard := requireAdminAuth_eq_none_iff_shows hboots.reads hfree (saysDevelopment env) r
  refine ⟨⟨?_, ?_⟩, ?_⟩
  · rintro ⟨x, rfl, hx⟩
    obtain ⟨headers, body, hpass, rfl⟩ := hhandled.of_text hx
    refine ⟨⟨headers, body, hpass⟩, ?_⟩
    rw [← hguard]
    exact (metricsRoute_content hmetrics headers).1 hx
  · rintro ⟨⟨headers, body, hpass⟩, hadmitted⟩
    rw [← hguard] at hadmitted
    exact ⟨_, hhandled.of_metrics hpass, (metricsRoute_content hmetrics headers).2 hadmitted⟩
  · intro d x hx
    obtain ⟨entry, -, hreply⟩ := Option.bind_eq_some_iff.1 hx
    obtain ⟨reply, -, rfl⟩ := Option.map_eq_some_iff.1 hreply
    exact nofun

/-! ## A deployment with credentials -/

def adminEnv : ProcessEnv := fun name =>
  if name = Variable.bullboardUser.name then some (js "admin")
  else if name = Variable.bullboardPassword.name then some (js "secret")
  else none

def adminDeployment : AppConfig := { AppConfig.default with admin := ⟨js "admin", js "secret"⟩ }

def metricsRequest : HttpRequest where
  method := js "GET"
  path := js "/metrics"
  query := []
  remoteAddress := js "10.0.0.9"
  forwardedFor := none
  origin := none
  correlationId := none
  authorization := some (js "Basic YWRtaW46c2VjcmV0")
  contentType := none
  body := []

theorem metrics_disclosed_admin :
    ∃ t x, listeningApp.http atSign defaultJobOptions adminDeployment expressPackages
        metricsRequest 5 { steadyReadings with metrics := some (js "text/plain", js "up 1") } =
          some (t, some x) ∧ x.content = .text (js "up 1") := by
  have hstart : (startUp noSpecial .willing adminEnv).2 = .ok adminDeployment := rfl
  have hfree : CredentialsCollisionFree expressPackages adminEnv := by
    intro v hv text htext
    simp only [List.mem_cons, List.not_mem_nil, or_false] at hv
    rcases hv with rfl | rfl
    · obtain rfl : js "admin" = text := Option.some.inj htext
      exact collisionFree_knownDigest (Or.inl rfl)
    · obtain rfl : js "secret" = text := Option.some.inj htext
      exact collisionFree_knownDigest (Or.inr (Or.inl rfl))
  have hshows : ShowsCredentials expressPackages adminEnv metricsRequest :=
    ⟨js "admin", js "secret", _, rfl, by decide, rfl, by decide, rfl, by decide, by decide,
      by decide⟩
  have hsome : (listeningApp.http atSign defaultJobOptions adminDeployment expressPackages
      metricsRequest 5
        { steadyReadings with metrics := some (js "text/plain", js "up 1") }).isSome = true := by
    decide +kernel
  obtain ⟨⟨t, response⟩, hhttp⟩ := Option.isSome_iff_exists.1 hsome
  obtain ⟨x, rfl, hx⟩ := (metrics_disclosed hstart hfree rfl hhttp).1.2
    ⟨⟨_, _, rfl⟩, Or.inr hshows⟩
  exact ⟨t, x, hhttp, hx⟩

end TaskQueue
