import SessionGateway.Settings.Environment

/-!
# What the environment overrides

The settings under an environment, field by field: what the variable of a field holds, if it counts,
and what was there before otherwise. No variable sets a field of another, so the order in which they
are looked at does not show.
-/

namespace SessionGateway.Settings

/-! ### What a variable holds -/

section Variables

variable (lookup : String → Option String)

/-- A text that is not empty. -/
def textIn (name : String) : Option String := (lookup name).filter (· ≠ "")

def uint16In (low high : Nat) (name : String) : Option UInt16 :=
  (lookup name).bind (uint16In? low high)

def uint64In (low high : Nat) (name : String) : Option UInt64 :=
  (lookup name).bind (uint64In? low high)

def backendIn (name : String) : Option CacheBackend := (textIn lookup name).bind backend?

/-- A format, given by whether it is JSON. -/
def formatIn (name : String) : Option LogFormat :=
  ((lookup name).bind bool?).map fun json => if json then .json else .compact

/-- Each field as its variable has it, and otherwise as it was. -/
def overridden (s : Settings) : Settings where
  node := ⟨(textIn lookup "CONDUIT_BROKER_ID").or s.node.brokerId⟩
  server :=
    { host := (textIn lookup "CONDUIT_HOST").getD s.server.host
      port := (uint16In lookup 1 65535 "CONDUIT_PORT").getD s.server.port
      wsPath := (textIn lookup "CONDUIT_WS_PATH").getD s.server.wsPath
      maxMessageSize := s.server.maxMessageSize
      pingIntervalSecs :=
        (uint64In lookup 1 3600 "CONDUIT_PING_INTERVAL_SECS").getD s.server.pingIntervalSecs
      pongTimeoutSecs :=
        (uint64In lookup 1 7200 "CONDUIT_PONG_TIMEOUT_SECS").getD s.server.pongTimeoutSecs
      sendQueueCapacity := s.server.sendQueueCapacity }
  auth :=
    { oauthUrl := (textIn lookup "CONDUIT_OAUTH_URL").getD s.auth.oauthUrl
      requestTimeoutMs :=
        (uint64In lookup 100 120000 "CONDUIT_AUTH_TIMEOUT_MS").getD s.auth.requestTimeoutMs }
  security := ⟨(textIn lookup "CONDUIT_SECRET_KEY").or s.security.secretKey⟩
  cache :=
    { backend := (backendIn lookup "CONDUIT_CACHE_BACKEND").getD s.cache.backend
      redisUrl := (textIn lookup "CONDUIT_REDIS_URL").getD s.cache.redisUrl
      keyPrefix := (textIn lookup "CONDUIT_KEY_PREFIX").getD s.cache.keyPrefix
      entryTtlSecs :=
        (uint64In lookup 10 86400 "CONDUIT_CACHE_TTL_SECS").getD s.cache.entryTtlSecs
      reconcileIntervalSecs :=
        (uint64In lookup 1 3600 "CONDUIT_RECONCILE_INTERVAL_SECS").getD
          s.cache.reconcileIntervalSecs }
  registration :=
    { lockTimeoutMs :=
        (uint64In lookup 1 600000 "CONDUIT_LOCK_TIMEOUT_MS").getD s.registration.lockTimeoutMs }
  dispatch :=
    { heartbeat := (textIn lookup "CONDUIT_HEARTBEAT").getD s.dispatch.heartbeat
      processorTimeoutMs :=
        (uint64In lookup 1 600000 "CONDUIT_PROCESSOR_TIMEOUT_MS").getD
          s.dispatch.processorTimeoutMs }
  logging :=
    { level := (textIn lookup "CONDUIT_LOG_LEVEL").getD s.logging.level
      format := (formatIn lookup "CONDUIT_LOG_JSON").getD s.logging.format }

end Variables

/-! ### One variable after another -/

/-- Sets a value, if there is one. -/
def update {α : Type} (set : α → Settings → Settings) (v : Option α) (s : Settings) : Settings :=
  v.elim s fun v => set v s

theorem update_map {α β : Type} (f : α → β) (set : β → Settings → Settings) (v : Option α)
    (s : Settings) : update (fun a => set (f a)) v s = update set (v.map f) s := by
  cases v <;> rfl

/-- What a variable makes of the settings in an environment. -/
def Variable.applied (x : Variable) (lookup : String → Option String) (s : Settings) : Settings :=
  match x.effect with
  | .text set => update set (textIn lookup x.name) s
  | .bool set => update set ((lookup x.name).bind bool?) s
  | .uint16 low high set => update set (uint16In lookup low high x.name) s
  | .uint64 low high set => update set (uint64In lookup low high x.name) s
  | .backend set => update set (backendIn lookup x.name) s

theorem Variable.apply_fst (x : Variable) {lookup : String → Option String} {value : String}
    (h : lookup x.name = some value) (s : Settings) : (x.apply value s).1 = x.applied lookup s := by
  obtain ⟨name, effect⟩ := x
  cases effect with
  | text set =>
    by_cases hempty : value = "" <;> simp [apply, applied, update, textIn, h, hempty, Option.filter]
  | bool set => cases hv : bool? value <;> simp [apply, applied, update, h, hv]
  | uint16 low high set =>
    cases hv : uint16In? low high value <;> simp [apply, applied, update, uint16In, h, hv]
  | uint64 low high set =>
    cases hv : uint64In? low high value <;> simp [apply, applied, update, uint64In, h, hv]
  | backend set =>
    by_cases hempty : value = ""
    · simp [apply, applied, update, backendIn, textIn, h, hempty, Option.filter]
    · cases hv : backend? value <;>
        simp [apply, applied, update, backendIn, textIn, h, hempty, hv, Option.filter]

theorem Variable.applied_of_unset (x : Variable) {lookup : String → Option String}
    (h : lookup x.name = none) (s : Settings) : x.applied lookup s = s := by
  obtain ⟨name, effect⟩ := x
  cases effect <;> simp [applied, update, textIn, uint16In, uint64In, backendIn, h]

/-- The warnings aside, each variable is applied in turn. -/
theorem foldl_apply_fst (lookup : String → Option String) (xs : List Variable) (s : Settings)
    (warnings : List Log.Event) :
    (xs.foldl
      (fun (s, warnings) x =>
        match lookup x.name with
        | none => (s, warnings)
        | some value =>
          let (s, more) := x.apply value s
          (s, warnings ++ more))
      (s, warnings)).1 = xs.foldl (fun s x => x.applied lookup s) s := by
  induction xs generalizing s warnings with
  | nil => rfl
  | cons x rest ih =>
    rw [List.foldl_cons, List.foldl_cons]
    cases h : lookup x.name with
    | none => simp only [ih, x.applied_of_unset h]
    | some value => simp only [ih, x.apply_fst h]

theorem applyEnvironment_fst (lookup : String → Option String) (s : Settings) :
    (applyEnvironment lookup s).1 = overrides.foldl (fun s x => x.applied lookup s) s :=
  foldl_apply_fst lookup overrides s []

theorem applyEnvironment_of_unset {lookup : String → Option String}
    (h : ∀ x ∈ overrides, lookup x.name = none) (s : Settings) :
    (applyEnvironment lookup s).1 = s := by
  have hfold : ∀ xs : List Variable, (∀ x ∈ xs, lookup x.name = none) →
      xs.foldl (fun s x => x.applied lookup s) s = s := by
    intro xs
    induction xs with
    | nil => intro _; rfl
    | cons x rest ih =>
      intro hxs
      rw [List.foldl_cons, x.applied_of_unset (hxs x List.mem_cons_self)]
      exact ih fun y hy => hxs y (List.mem_cons_of_mem _ hy)
  rw [applyEnvironment_fst]
  exact hfold overrides h

/-- A variable that sets a field to the value it may have, at the head of a list. -/
theorem foldl_applied {α : Type} {lookup : String → Option String} {x : Variable}
    {rest : List Variable} {s t : Settings} {set : α → Settings → Settings} {v : Option α}
    (get : Settings → α) (hset : ∀ s, x.applied lookup s = update set v s)
    (hget : ∀ s, set (get s) s = s)
    (hrest : rest.foldl (fun s x => x.applied lookup s) (set (v.getD (get s)) s) = t) :
    (x :: rest).foldl (fun s x => x.applied lookup s) s = t := by
  have hstep : x.applied lookup s = set (v.getD (get s)) s := by
    rw [hset]
    cases v with
    | none => exact (hget s).symm
    | some v => rfl
  rw [List.foldl_cons, hstep]
  exact hrest

theorem applyEnvironment_eq (lookup : String → Option String) (s : Settings) :
    (applyEnvironment lookup s).1 = overridden lookup s := by
  have hor : ∀ v w : Option String, v.or w = (v.map some).getD w := by
    intro v w
    cases v <;> rfl
  rw [applyEnvironment_fst]
  refine foldl_applied (fun s => s.node.brokerId)
    (update_map some (fun v s => { s with node := ⟨v⟩ }) _) (fun _ => rfl) ?_
  refine foldl_applied (fun s => s.server.host) (fun _ => rfl) (fun _ => rfl) ?_
  refine foldl_applied (fun s => s.server.port) (fun _ => rfl) (fun _ => rfl) ?_
  refine foldl_applied (fun s => s.server.wsPath) (fun _ => rfl) (fun _ => rfl) ?_
  refine foldl_applied (fun s => s.server.pingIntervalSecs) (fun _ => rfl) (fun _ => rfl) ?_
  refine foldl_applied (fun s => s.server.pongTimeoutSecs) (fun _ => rfl) (fun _ => rfl) ?_
  refine foldl_applied (fun s => s.auth.oauthUrl) (fun _ => rfl) (fun _ => rfl) ?_
  refine foldl_applied (fun s => s.auth.requestTimeoutMs) (fun _ => rfl) (fun _ => rfl) ?_
  refine foldl_applied (fun s => s.security.secretKey)
    (update_map some (fun v s => { s with security := ⟨v⟩ }) _) (fun _ => rfl) ?_
  refine foldl_applied (fun s => s.cache.backend) (fun _ => rfl) (fun _ => rfl) ?_
  refine foldl_applied (fun s => s.cache.redisUrl) (fun _ => rfl) (fun _ => rfl) ?_
  refine foldl_applied (fun s => s.cache.keyPrefix) (fun _ => rfl) (fun _ => rfl) ?_
  refine foldl_applied (fun s => s.cache.entryTtlSecs) (fun _ => rfl) (fun _ => rfl) ?_
  refine foldl_applied (fun s => s.cache.reconcileIntervalSecs) (fun _ => rfl) (fun _ => rfl) ?_
  refine foldl_applied (fun s => s.registration.lockTimeoutMs) (fun _ => rfl) (fun _ => rfl) ?_
  refine foldl_applied (fun s => s.dispatch.heartbeat) (fun _ => rfl) (fun _ => rfl) ?_
  refine foldl_applied (fun s => s.dispatch.processorTimeoutMs) (fun _ => rfl) (fun _ => rfl) ?_
  refine foldl_applied (fun s => s.logging.level) (fun _ => rfl) (fun _ => rfl) ?_
  refine foldl_applied (fun s => s.logging.format)
    (update_map (fun json : Bool => if json then LogFormat.json else .compact)
      (fun v s => { s with logging := { s.logging with format := v } }) _) (fun _ => rfl) ?_
  simp only [List.foldl_nil, overridden, hor]
  rfl

end SessionGateway.Settings
