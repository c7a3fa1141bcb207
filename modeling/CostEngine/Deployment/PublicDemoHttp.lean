import CostEngine.Relational.Table

/-! # `public-demo-http.ts`

The hook that every request of the public demo passes. Times are in milliseconds. -/

namespace CostEngine

open Relational (Table)

/-! ## `WindowLimit` -/

structure WindowCount where
  key : String
  count : Nat
  deriving DecidableEq

/-- Fixed windows, bounded keys, no active-key eviction that bypasses limits. -/
structure WindowLimit where
  maximum : Nat
  maxKeys : Nat
  window : Int
  counts : Table WindowCount String (·.key)

namespace WindowLimit

def new (maximum maxKeys : Nat) : WindowLimit := ⟨maximum, maxKeys, -1, .empty⟩

variable (limit : WindowLimit)

def countOf (key : String) : Nat := ((limit.counts.get? key).map (·.count)).getD 0

/-- The limiter as it is when it is consulted in `window`. -/
def enter (window : Int) : WindowLimit :=
  if window ≠ limit.window then { limit with window, counts := .empty } else limit

def available (key : String) (window : Int) : Bool × WindowLimit :=
  let limit := limit.enter window
  let count := limit.countOf key
  (count < limit.maximum && (count > 0 || limit.counts.rows.length < limit.maxKeys), limit)

def consume (key : String) : WindowLimit :=
  { limit with counts := limit.counts.set ⟨key, limit.countOf key + 1⟩ }

end WindowLimit

/-! ## `installPublicDemoHttp` -/

/-- A header of a request, or several of its name. -/
inductive HeaderValue where
  | absent
  | single (value : String)
  | multiple (values : List String)
  deriving DecidableEq

structure HttpRequest where
  method : String
  url : String
  remoteAddress : Option String
  /-- `x-demo-proxy-key`. -/
  proxyKey : HeaderValue
  /-- `x-demo-client-ip`. -/
  clientIp : HeaderValue
  secFetchSite : HeaderValue
  origin : HeaderValue
  /-- `x-demo-session`. -/
  demoSession : HeaderValue
  deriving DecidableEq

/-- `request.url.split('?')[0]`. -/
def HttpRequest.path (request : HttpRequest) : String :=
  String.ofList (request.url.toList.takeWhile (· ≠ '?'))

def startsWith (text part : String) : Bool := part.toList.isPrefixOf text.toList

structure PublicDemoConfig where
  proxySecret : String
  origin : String
  createsPerMinute : Nat
  mutationsPerMinute : Nat
  globalMutationsPerMinute : Nat

/-- What the hook answers, or that it lets the request through. -/
inductive HookAnswer where
  | through
  | healthNotFound
  | proxyRequired
  | csrfRejected
  | rateLimited
  deriving DecidableEq

/-- The status and the body of an answer. -/
def HookAnswer.reply : HookAnswer → Option (Nat × Option (String × String))
  | .through => none
  | .healthNotFound => some (404, none)
  | .proxyRequired => some (403, some ("DEMO_PROXY_REQUIRED", "Demo entry unavailable"))
  | .csrfRejected => some (403, some ("DEMO_SESSION_CSRF_REJECTED", "Demo session request rejected"))
  | .rateLimited => some (429, some ("DEMO_RATE_LIMITED", "Demo request limit reached"))

structure PublicDemoLimits where
  creates : WindowLimit
  mutations : WindowLimit
  global : WindowLimit

namespace PublicDemoLimits

def new (config : PublicDemoConfig) : PublicDemoLimits where
  creates := .new config.createsPerMinute 4096
  mutations := .new config.mutationsPerMinute 4096
  global := .new config.globalMutationsPerMinute 1

variable (limits : PublicDemoLimits)

/-- The budgets of a mutation, local before global. It is charged only when it is let through. -/
def mutate (creation : Bool) (address : String) (now : Int) : HookAnswer × PublicDemoLimits :=
  let window := now / 60000
  let (allowed, creates) :=
    if creation then limits.creates.available address window else (true, limits.creates)
  if !allowed then (.rateLimited, { limits with creates })
  else
    let (allowed, mutations) := limits.mutations.available address window
    if !allowed then (.rateLimited, { limits with creates, mutations })
    else
      let (allowed, global) := limits.global.available "all" window
      if !allowed then (.rateLimited, ⟨creates, mutations, global⟩)
      else
        (.through, ⟨if creation then creates.consume address else creates,
          mutations.consume address, global.consume "all"⟩)

end PublicDemoLimits

section Hook

-- `isIP` is that of `node:net`.
variable (isIP : String → Bool) (config : PublicDemoConfig)

/-- What the hook answers before it looks at the budgets, or the address of the client. A health
check from inside is let through without one. -/
def HttpRequest.checked (request : HttpRequest) : Except HookAnswer (Option String) :=
  let path := request.path
  if path = "/health" ∨ startsWith path "/health/" then
    if path = "/health/ready" ∧ request.method = "GET"
        ∧ request.remoteAddress.getD "" ∈ ["127.0.0.1", "::1", "::ffff:127.0.0.1"] then .ok none
    else .error .healthNotFound
  else
    match request.proxyKey, request.clientIp with
    | .single key, .single address =>
        if key ≠ config.proxySecret ∨ !isIP address then .error .proxyRequired
        else if startsWith request.url "/demo/" ∧ (request.secFetchSite = .single "cross-site"
            ∨ (request.origin ≠ .absent ∧ request.origin ≠ .single config.origin)
            ∨ (request.method = "POST" ∧ (request.origin ≠ .single config.origin
              ∨ request.demoSession ≠ .single "1"))) then .error .csrfRejected
        else .ok (some address)
    | _, _ => .error .proxyRequired

/-- The hook. -/
def onRequest (limits : PublicDemoLimits) (request : HttpRequest) (now : Int) :
    HookAnswer × PublicDemoLimits :=
  match request.checked isIP config with
  | .error answer => (answer, limits)
  | .ok none => (.through, limits)
  | .ok (some address) =>
      if request.method = "POST" then
        limits.mutate (request.path = "/demo/sessions") address now
      else (.through, limits)

/-- The answers to a sequence of requests, with the time of each. -/
def answers : PublicDemoLimits → List (HttpRequest × Int) → List HookAnswer
  | _, [] => []
  | limits, (request, now) :: rest =>
      (onRequest isIP config limits request now).1
        :: answers (onRequest isIP config limits request now).2 rest

/-- The limiters after a sequence of requests. -/
def limitsAfter : PublicDemoLimits → List (HttpRequest × Int) → PublicDemoLimits
  | limits, [] => limits
  | limits, (request, now) :: rest => limitsAfter (onRequest isIP config limits request now).2 rest

end Hook

end CostEngine
