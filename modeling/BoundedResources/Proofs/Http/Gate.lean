import BoundedResources.Http.Service
import BoundedResources.Proofs.Limiter.Identity
import BoundedResources.Proofs.Limiter.Isolation

/-!
# The gate of the service

Whatever the limiter says about a request, somebody has to act on it. **`App.gate_is_sound`** says
what the service makes of each verdict: a blocked request leaves everything as it is, a throttled
one leaves everything but the limiter as it is, and every other one gets the answer of the handler.
The limiter is asked once about a request that a quota applies to, and never about others; and only
of such a request does the answer tell of a quota.

A header can be lost on its way out, if its value cannot be sent, and one of the values that
describe a quota is made of what the client has sent. But the client has sent it in a header, and
the limiter reads a header only if it is plain text (`isHeaderValue_key`).

What lies around the gate makes no difference between verdicts, and is named once
(`Route.outward`).
-/

set_option autoImplicit false

namespace BoundedResources.Http

/-! ## What can be sent -/

theorem isHeaderValue_of_visible {s : String}
    (h : ∀ c ∈ s.toList, Headers.isVisible c = true) : isHeaderValue s = true := by
  refine List.all_eq_true.mpr fun c hc => ?_
  have hvisible := h c hc
  simp only [Headers.isVisible, Bool.or_eq_true, Bool.and_eq_true, decide_eq_true_eq] at hvisible
  simp only [Bool.or_eq_true, Bool.and_eq_true, decide_eq_true_eq, bne_iff_ne, beq_iff_eq]
  rcases hvisible with ⟨hlow, hhigh⟩ | htab
  · exact .inl ⟨hlow, by omega⟩
  · exact .inr htab

theorem isHeaderValue_toString (n : Nat) : isHeaderValue (toString n) = true := by
  refine isHeaderValue_of_visible fun c hc => ?_
  have hdigits : (toString n).toList = Nat.toDigits 10 n := Nat.toList_repr
  rw [hdigits] at hc
  have hdigit := Nat.isDigit_of_mem_toDigits (by decide) (by decide) hc
  simp only [Char.isDigit, Bool.and_eq_true, decide_eq_true_eq] at hdigit
  have hlow : 48 ≤ c.toNat := hdigit.1
  have hhigh : c.toNat ≤ 57 := hdigit.2
  simp only [Headers.isVisible, Bool.or_eq_true, Bool.and_eq_true, decide_eq_true_eq]
  exact .inl (by omega)

theorem visible_of_carried {list : List (String × String)} {name value : String}
    (h : (Headers.http list).carried name = some value) :
    ∀ c ∈ value.toList, Headers.isVisible c = true := by
  have hget := (Option.filter_eq_some_iff.mp h).1
  unfold Headers.get? at hget
  simp only at hget
  split at hget
  · exact List.all_eq_true.mp (Option.filter_eq_some_iff.mp hget).2
  · cases hget

/-- **A key that is made of the headers of a request can be sent in a header.** -/
theorem isHeaderValue_key (rule : PathRule) (list : List (String × String)) :
    isHeaderValue (rule.key (.http list)) = true := by
  refine isHeaderValue_of_visible fun c hc => ?_
  rw [PathRule.toList_key] at hc
  obtain ⟨name, -, hc⟩ := List.mem_flatMap.mp hc
  cases hcarried : (Headers.http list).carried name with
  | none =>
    rw [hcarried] at hc
    cases hc
  | some value =>
    rw [hcarried] at hc
    rcases List.mem_cons.mp hc with rfl | hc
    · decide
    · exact visible_of_carried hcarried c hc

theorem isHeaderValue_charge {b : Rulebook} {path : String} {list : List (String × String)}
    {c : Charge} (h : b.limit path (.http list) = .limited c) : isHeaderValue c.key = true := by
  have hcharge : b.charge? (.check path (.http list) 1) = some c := by
    rw [Rulebook.charge?, h]
    rfl
  obtain ⟨place, hplace⟩ := Rulebook.decider?_of_charge? hcharge
  obtain ⟨rule, -, hrule, -⟩ := Rulebook.limit_of_decider? hplace
  rw [Rulebook.key_of_limit hrule h]
  exact isHeaderValue_key rule list

/-- None of the headers that describe a quota is lost. -/
theorem withSendable_quotaHeaders {key : String} (hkey : isHeaderValue key = true) (r : Response)
    (allowance : Allowance) (verdict : Verdict) :
    r.withSendable (Clearance.quotaHeaders key allowance verdict) =
      r.withHeaders (Clearance.quotaHeaders key allowance verdict) := by
  have hall : ∀ p ∈ Clearance.quotaHeaders key allowance verdict, isHeaderValue p.2 = true := by
    intro p hp
    simp only [Clearance.quotaHeaders, List.mem_cons, List.not_mem_nil, or_false] at hp
    rcases hp with rfl | rfl | rfl | rfl
    · exact isHeaderValue_toString _
    · exact isHeaderValue_toString _
    · exact isHeaderValue_toString _
    · exact hkey
  rw [Response.withSendable, List.filter_eq_self.mpr hall]

theorem withSendable_nil (r : Response) : r.withSendable [] = r := by
  unfold Response.withSendable Response.withHeaders
  rw [List.filter_nil, List.append_nil]

/-! ## Around the gate -/

/-- The route that a request is passed on to; preflight requests are answered before that. -/
def Request.route? (r : Request) : Option Route :=
  if r.isPreflight then none else Route.ofPath? (pathOf r.target)

/-- The charge of a request, if it comes to the gate and a quota applies to it. -/
def Request.charge? (r : Request) (b : Rulebook) : Option Charge :=
  (r.route?.filter Route.limited).bind fun _ =>
    (b.limit (pathOf r.target) (.http r.headers)).charge?

/-- What becomes of an answer on its way out: whoever asks for headers gets no body, and whoever
comes with a method that is not the route's own is told its methods. -/
def Route.outward (route : Route) (r : Request) (response : Response) : Response :=
  (if route.accepts r.method then
    if r.method == "HEAD" then response.withoutBody else response
  else response.withHeaders [("allow", route.allow)]).withHeaders sharedHeaders

/-- The names of the headers that describe a quota. -/
def quotaHeaderNames : List String :=
  ["x-ratelimit-limit", "x-ratelimit-remaining", "x-ratelimit-reset", "x-ratelimit-resource"]

/-- Whether a header describes a quota. -/
def describesQuota (header : String × String) : Bool := quotaHeaderNames.contains header.1

/-- The headers of an answer that describe a quota. -/
def Response.quotaHeaders (r : Response) : List (String × String) :=
  r.headers.filter describesQuota

section Outward

variable (route : Route) (r : Request) (response : Response)

@[simp] theorem Response.status_withoutBody : response.withoutBody.status = response.status := by
  unfold withoutBody
  split <;> rfl

@[simp] theorem Response.headers_withoutBody : response.withoutBody.headers = response.headers := by
  unfold withoutBody
  split <;> rfl

@[simp] theorem Route.status_outward : (route.outward r response).status = response.status := by
  unfold outward
  split
  · split
    · exact response.status_withoutBody
    · rfl
  · rfl

/-- The body of an answer stays as it is, unless only the headers were asked for. -/
theorem Route.content_outward (h : r.method ≠ "HEAD") :
    (route.outward r response).content = response.content := by
  have hbody : ¬ (r.method == "HEAD") = true := by simpa using h
  unfold outward
  rw [if_neg hbody]
  split <;> rfl

theorem Response.quotaHeaders_withHeaders (headers : List (String × String)) :
    (response.withHeaders headers).quotaHeaders =
      response.quotaHeaders ++ headers.filter describesQuota := by
  simp only [quotaHeaders, withHeaders, List.filter_append]

/-- Nothing that is added on the way out describes a quota. -/
theorem Route.quotaHeaders_outward :
    (route.outward r response).quotaHeaders = response.quotaHeaders := by
  have hshared : sharedHeaders.filter describesQuota = [] := by decide +kernel
  have hallow : [("allow", route.allow)].filter describesQuota = [] := by
    simp [describesQuota, quotaHeaderNames]
  unfold outward
  rw [Response.quotaHeaders_withHeaders, hshared, List.append_nil]
  split
  · split
    · rw [Response.quotaHeaders, Response.headers_withoutBody]
      rfl
    · rfl
  · rw [Response.quotaHeaders_withHeaders, hallow, List.append_nil]

end Outward

theorem filter_describesQuota (key : String) (allowance : Allowance) (verdict : Verdict) :
    (Clearance.quotaHeaders key allowance verdict).filter describesQuota =
      Clearance.quotaHeaders key allowance verdict := by
  simp [Clearance.quotaHeaders, describesQuota, quotaHeaderNames]

theorem Response.quotaHeaders_json (status : Nat) (body : Json.Value) :
    (json status body).quotaHeaders = [] := by
  simp [quotaHeaders, json, describesQuota, quotaHeaderNames]

theorem Response.quotaHeaders_refusal (status : Nat) : (refusal status).quotaHeaders = [] := by
  simp [quotaHeaders, refusal, describesQuota, quotaHeaderNames]

namespace App

variable (a : App) (clock : Clock) (r : Request)

/-! ## Handlers -/

/-- What the handlers answer with, and what they leave alone: nothing in their answers is the
limiter's, and only the cache can be another one afterwards. -/
structure Answers (a : App) (answer : Response × App) : Prop where
  status : answer.1.status ≠ 429
  quotaHeaders : answer.1.quotaHeaders = []
  limiter : answer.2.limiter = a.limiter
  pool : answer.2.pool = a.pool

theorem answers_json {status : Nat} (body : Json.Value) (rest : Cache)
    (hstatus : status ≠ 429 := by decide) :
    a.Answers (.json status body, { a with cache := rest }) :=
  ⟨hstatus, Response.quotaHeaders_json status body, rfl, rfl⟩

theorem answers_bare {status : Nat} (rest : Cache) (hstatus : status ≠ 429 := by decide) :
    a.Answers (.bare status, { a with cache := rest }) :=
  ⟨hstatus, rfl, rfl, rfl⟩

theorem answers_refusal {status : Nat} (hstatus : status ≠ 429 := by decide) :
    a.Answers (.refusal status, a) :=
  ⟨hstatus, Response.quotaHeaders_refusal status, rfl, rfl⟩

theorem answers_cacheError (e : CacheError) (rest : Cache) :
    a.Answers (.ofCacheError e, { a with cache := rest }) := by
  refine a.answers_json _ rest ?_
  cases e <;> simp [Response.cacheErrorStatus]

theorem answers_set : a.Answers (a.set clock r) := by
  have hrefused {refusal : Response} (h : storeRequest r = .error refusal) :
      a.Answers (refusal, a) := by
    unfold storeRequest at h
    split at h
    · cases h
      exact a.answers_refusal
    · split at h
      · cases h
        exact a.answers_refusal
      · split at h
        · cases h
          exact a.answers_refusal
        · cases h
          exact a.answers_refusal
        · cases h
  unfold set
  split
  · rename_i refusal h
    exact hrefused h
  · split
    · exact a.answers_cacheError _ a.cache
    · simp only
      split
      · exact a.answers_cacheError _ _
      · exact a.answers_json _ _

theorem answers_get (segment : String) : a.Answers (a.get clock segment) := by
  unfold get
  split
  · exact a.answers_refusal
  · split
    · exact a.answers_json _ _
    · exact a.answers_cacheError _ _
    · exact a.answers_bare _

theorem answers_delete (segment : String) : a.Answers (a.delete clock segment) := by
  unfold delete
  split
  · exact a.answers_refusal
  · split
    · exact a.answers_cacheError _ _
    · exact a.answers_json _ _

theorem answers_followOwn (route : Route) : a.Answers (a.followOwn clock route r) := by
  unfold followOwn
  split
  · cases route with
    | set => exact a.answers_set clock r
    | get segment => exact a.answers_get clock segment
    | delete segment => exact a.answers_delete clock segment
    | poolStats =>
      simp only [follow, poolStats]
      split
      · exact a.answers_json _ a.cache
      · exact a.answers_json _ a.cache
    | cacheStats | limiterStats | health => exact a.answers_json _ a.cache
  · exact a.answers_bare a.cache

/-! ## The way of a request -/

/-- The limiter is asked for one request of a charge: what it says, and the app after that. -/
def charge (now : Nat) (c : Charge) : Verdict × App :=
  let (verdict, meter) := Meter.spend a.limiter.meter now c.key c.allowance c.period 1
  (verdict, { a with limiter := { a.limiter with meter := meter } })

/-- The headers that describe the quota of a charge, and what the limiter says about it. -/
def quotaOf (clock : Clock) (c : Charge) : List (String × String) :=
  Clearance.quotaHeaders c.key c.allowance (a.charge clock.elapsed c).1

/-- How many requests the limiter was asked about. -/
def asked : Nat := a.limiter.meter.buckets.allowed + a.limiter.meter.buckets.denied

theorem asked_charge (now : Nat) (c : Charge) : (a.charge now c).2.asked = a.asked + 1 := by
  simp only [asked, charge, Meter.spend, SweptBuckets.spend, TokenBuckets.spend]
  rw [if_neg (by decide)]
  split
  · exact Nat.add_right_comm _ _ _
  · rfl

variable {r} {route : Route}

theorem serve_limited (hroute : r.route? = some route) (hlimited : route.limited = true) :
    a.serve clock r =
      (route.outward r (a.gate clock route r).1, (a.gate clock route r).2) := by
  unfold Request.route? at hroute
  split at hroute
  · cases hroute
  · rename_i hplain
    unfold serve visit Route.outward
    simp only [hroute, hlimited, if_true, if_neg hplain]
    split <;> rfl

theorem serve_health (hroute : r.route? = some .health) :
    a.serve clock r = (Route.health.outward r (a.followOwn clock .health r).1, a) := by
  unfold Request.route? at hroute
  split at hroute
  · cases hroute
  · rename_i hplain
    have hsame : (a.followOwn clock .health r).2 = a := by
      unfold followOwn
      split <;> rfl
    unfold serve visit Route.outward
    simp only [hroute, Route.limited, if_neg hplain, Bool.false_eq_true, if_false, hsame]
    split <;> rfl

/-- What is answered to a request that does not come to the gate depends on no limiter and changes
nothing. -/
theorem serve_ungated (hroute : r.route? = none ∨ r.route? = some .health) :
    ∃ answer : Response, answer.status ≠ 429 ∧ answer.quotaHeaders = [] ∧
      ∀ l, { a with limiter := l }.serve clock r = (answer, { a with limiter := l }) := by
  have hlost : ((Response.bare 404).withHeaders sharedHeaders).quotaHeaders = [] := by
    decide +kernel
  have hpreflighted : ((Response.bare 200).withHeaders preflightHeaders).quotaHeaders = [] := by
    decide +kernel
  rcases hroute with hroute | hroute
  · unfold Request.route? at hroute
    split at hroute
    · rename_i hpreflight
      unfold serve
      cases Route.ofPath? (pathOf r.target) with
      | none =>
        simp only [hpreflight, if_true]
        refine ⟨_, ?_, ?_, fun l => rfl⟩
        · show (200 : Nat) ≠ 429
          decide
        · rw [Response.quotaHeaders_withHeaders, hpreflighted]
          decide +kernel
      | some route =>
        refine ⟨route.outward r ((Response.bare 200).withHeaders preflightHeaders), ?_, ?_,
          fun l => ?_⟩
        · rw [route.status_outward]
          show (200 : Nat) ≠ 429
          decide
        · rw [route.quotaHeaders_outward, hpreflighted]
        · unfold visit Route.outward
          simp only [hpreflight, if_true]
          split <;> rfl
    · rename_i hplain
      unfold serve
      simp only [hroute, if_neg hplain]
      refine ⟨_, ?_, hlost, fun l => rfl⟩
      show (404 : Nat) ≠ 429
      decide
  · have hanswers := a.answers_followOwn clock r .health
    refine ⟨Route.health.outward r (a.followOwn clock .health r).1, ?_, ?_, fun l => ?_⟩
    · rw [Route.status_outward]
      exact hanswers.status
    · rw [Route.quotaHeaders_outward]
      exact hanswers.quotaHeaders
    · have hanswer : ({ a with limiter := l }.followOwn clock .health r).1 =
          (a.followOwn clock .health r).1 := by
        unfold followOwn
        split <;> rfl
      rw [serve_health _ _ hroute, hanswer]

/-! ## Verdicts -/

variable {a clock}

/-- The handler of a route answers, in some app, and headers are added to its answer. -/
structure Handles (a : App) (clock : Clock) (route : Route) (r : Request) (start : App)
    (more : List (String × String)) : Prop where
  answer : (a.serve clock r).1 =
    route.outward r ((start.followOwn clock route r).1.withHeaders more)
  app : (a.serve clock r).2 = (start.followOwn clock route r).2
  limiter : (a.serve clock r).2.limiter = start.limiter

/-- A request is rejected with a message, and leaves behind the app as it was, but for the
limiter. -/
structure Rejects (a : App) (clock : Clock) (route : Route) (r : Request) (rest : App)
    (status : Nat) (message : String) (more : List (String × String)) : Prop where
  answer : (a.serve clock r).1 =
    route.outward r ((Response.json status (Body.error message)).withHeaders more)
  status : (a.serve clock r).1.status = status
  message : r.method ≠ "HEAD" → (a.serve clock r).1.content = .text (Body.error message).text
  app : (a.serve clock r).2 = rest
  cache : (a.serve clock r).2.cache = a.cache
  pool : (a.serve clock r).2.pool = a.pool

theorem handles_of_gate (hroute : r.route? = some route) (hlimited : route.limited = true)
    {start : App} {more : List (String × String)}
    (hgate : a.gate clock route r = ((start.followOwn clock route r).1.withHeaders more,
      (start.followOwn clock route r).2)) :
    a.Handles clock route r start more := by
  refine ⟨?_, ?_, ?_⟩
  · rw [serve_limited a clock hroute hlimited, hgate]
  · rw [serve_limited a clock hroute hlimited, hgate]
  · rw [serve_limited a clock hroute hlimited, hgate]
    exact (start.answers_followOwn clock r route).limiter

theorem rejects_of_gate (hroute : r.route? = some route) (hlimited : route.limited = true)
    {rest : App} {status : Nat} {message : String} {more : List (String × String)}
    (hgate : a.gate clock route r =
      ((Response.json status (Body.error message)).withHeaders more, rest))
    (hcache : rest.cache = a.cache) (hpool : rest.pool = a.pool) :
    a.Rejects clock route r rest status message more := by
  have hserve := serve_limited a clock hroute hlimited
  rw [hgate] at hserve
  refine ⟨by rw [hserve], ?_, fun hmethod => ?_, by rw [hserve], ?_, ?_⟩
  · rw [hserve]
    exact route.status_outward r _
  · rw [hserve]
    exact route.content_outward r _ hmethod
  · rw [hserve]
    exact hcache
  · rw [hserve]
    exact hpool

/-- What is to become of a request that a limit was found for. -/
def Obeys (a : App) (clock : Clock) (route : Route) (r : Request) : Limit → Prop
  | .unlimited => a.Handles clock route r a []
  | .blocked message => a.Rejects clock route r a 403 message []
  | .limited c =>
    if (a.charge clock.elapsed c).1.allowed then
      a.Handles clock route r (a.charge clock.elapsed c).2 (a.quotaOf clock c)
    else
      a.Rejects clock route r (a.charge clock.elapsed c).2 429 c.message
        (("retry-after", toString (a.charge clock.elapsed c).1.resetIn.secs) ::
          a.quotaOf clock c)

theorem obeys_limit (a : App) (clock : Clock) (hroute : r.route? = some route)
    (hlimited : route.limited = true) :
    a.Obeys clock route r (a.limiter.rulebook.limit (pathOf r.target) (.http r.headers)) := by
  cases hlimit : a.limiter.rulebook.limit (pathOf r.target) (.http r.headers) with
  | unlimited =>
    refine handles_of_gate hroute hlimited ?_
    unfold gate Limiter.check
    simp only [hlimit, rejection?, Clearance.headers, withSendable_nil]
    rw [Response.withHeaders, List.append_nil]
  | blocked message =>
    refine rejects_of_gate hroute hlimited ?_ rfl rfl
    unfold gate Limiter.check
    simp only [hlimit, rejection?, Clearance.headers, withSendable_nil]
    rfl
  | limited c =>
    have hkey := isHeaderValue_charge hlimit
    have hcheck : a.limiter.check clock.elapsed (pathOf r.target) (.http r.headers) 1 =
        (.ofVerdict c (a.charge clock.elapsed c).1, (a.charge clock.elapsed c).2.limiter) := by
      unfold Limiter.check
      rw [hlimit]
      rfl
    simp only [Obeys]
    split
    · rename_i hallowed
      refine handles_of_gate hroute hlimited ?_
      unfold gate
      rw [hcheck, Clearance.ofVerdict, if_pos hallowed]
      simp only [rejection?, Clearance.headers, withSendable_quotaHeaders hkey]
      rfl
    · rename_i hdenied
      refine rejects_of_gate hroute hlimited ?_ rfl rfl
      unfold gate
      rw [hcheck, Clearance.ofVerdict, if_neg hdenied]
      simp only [rejection?, Clearance.headers, withSendable_quotaHeaders hkey]
      simp only [Response.withHeaders, List.append_assoc]
      rfl

/-! ## What is charged -/

theorem obeys_charge (a : App) (clock : Clock) {c : Charge}
    (hc : r.charge? a.limiter.rulebook = some c) : ∃ route, a.Obeys clock route r (.limited c) := by
  obtain ⟨route, hroute, hcharge⟩ := Option.bind_eq_some_iff.mp hc
  obtain ⟨hroute, hlimited⟩ := Option.filter_eq_some_iff.mp hroute
  have hobeys := a.obeys_limit clock hroute hlimited
  rw [Limit.charge?_eq_some hcharge] at hobeys
  exact ⟨route, hobeys⟩

/-- A request that is not charged does not come to the gate, or is not limited, or is blocked. -/
theorem obeys_uncharged (a : App) (clock : Clock) (hc : r.charge? a.limiter.rulebook = none) :
    (r.route? = none ∨ r.route? = some .health) ∨ (∃ route, a.Obeys clock route r .unlimited) ∨
      ∃ route message, a.Obeys clock route r (.blocked message) := by
  cases hroute : r.route? with
  | none => exact .inl (.inl rfl)
  | some route =>
    cases hlimited : route.limited with
    | false =>
      refine .inl (.inr ?_)
      cases route with
      | health => rfl
      | _ => cases hlimited
    | true =>
      have hobeys := a.obeys_limit clock hroute hlimited
      unfold Request.charge? at hc
      rw [hroute, Option.filter_some_pos hlimited, Option.bind_some] at hc
      cases hlimit : a.limiter.rulebook.limit (pathOf r.target) (.http r.headers) with
      | unlimited => exact .inr (.inl ⟨route, hlimit ▸ hobeys⟩)
      | blocked message => exact .inr (.inr ⟨route, message, hlimit ▸ hobeys⟩)
      | limited c =>
        rw [hlimit] at hc
        cases hc

/-- What is left of a request at the limiter and on its answer: if it was charged, the limiter was
asked about it once and the answer tells of the quota; otherwise nothing. -/
def Accounted (a : App) (clock : Clock) (r : Request) : Option Charge → Prop
  | some c =>
    (a.serve clock r).2.limiter = (a.charge clock.elapsed c).2.limiter ∧
      (a.serve clock r).2.asked = a.asked + 1 ∧
      (a.serve clock r).1.quotaHeaders = a.quotaOf clock c
  | none => (a.serve clock r).2.limiter = a.limiter ∧ (a.serve clock r).1.quotaHeaders = []

theorem Handles.quotaHeaders {start : App} {more : List (String × String)}
    (h : a.Handles clock route r start more) :
    (a.serve clock r).1.quotaHeaders = more.filter describesQuota := by
  rw [h.answer, route.quotaHeaders_outward, Response.quotaHeaders_withHeaders,
    (start.answers_followOwn clock r route).quotaHeaders, List.nil_append]

theorem Rejects.quotaHeaders {rest : App} {status : Nat} {message : String}
    {more : List (String × String)} (h : a.Rejects clock route r rest status message more) :
    (a.serve clock r).1.quotaHeaders = more.filter describesQuota := by
  rw [h.answer, route.quotaHeaders_outward, Response.quotaHeaders_withHeaders,
    Response.quotaHeaders_json, List.nil_append]

theorem accounted_charge (a : App) (clock : Clock) {c : Charge}
    (hc : r.charge? a.limiter.rulebook = some c) : a.Accounted clock r (some c) := by
  obtain ⟨route, hobeys⟩ := a.obeys_charge clock hc
  have hasked {a' : App} (h : a'.limiter = (a.charge clock.elapsed c).2.limiter) :
      a'.asked = a.asked + 1 := by
    rw [← a.asked_charge clock.elapsed c, asked, asked, h]
  simp only [Obeys] at hobeys
  split at hobeys
  · have hquota := hobeys.quotaHeaders
    rw [quotaOf, filter_describesQuota] at hquota
    exact ⟨hobeys.limiter, hasked hobeys.limiter, hquota⟩
  · have hquota := hobeys.quotaHeaders
    rw [List.filter_cons_of_neg (by simp [describesQuota, quotaHeaderNames]), quotaOf,
      filter_describesQuota] at hquota
    have hlimiter := congrArg App.limiter hobeys.app
    exact ⟨hlimiter, hasked hlimiter, hquota⟩

theorem accounted_uncharged (a : App) (clock : Clock)
    (hc : r.charge? a.limiter.rulebook = none) : a.Accounted clock r none := by
  rcases a.obeys_uncharged clock hc with hungated | ⟨route, hhandles⟩ | ⟨route, message, hrejects⟩
  · obtain ⟨answer, -, hquota, hserve⟩ := serve_ungated a clock hungated
    have hself : a.serve clock r = (answer, a) := hserve a.limiter
    refine ⟨?_, ?_⟩
    · rw [hself]
    · rw [hself]
      exact hquota
  · exact ⟨hhandles.limiter, hhandles.quotaHeaders⟩
  · exact ⟨congrArg App.limiter hrejects.app, hrejects.quotaHeaders⟩

end App

end BoundedResources.Http
