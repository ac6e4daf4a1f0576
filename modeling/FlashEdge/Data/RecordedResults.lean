import FlashEdge.Data.FlashApi
import FlashEdge.Theory.Machine

/-!
# Every admitted request reports to the breaker

A half-open circuit is left only when a result is recorded, so every request that the
breaker admitted has to record one before it returns (`RecordedOnce`); a request that
returns without one can leave the circuit half-open with no request in flight (`Stuck`),
and it refuses everything from then on (`stuck_refuses`). `reported_iff` says which
answers of the server lead there.
-/

namespace FlashEdge

namespace FlashApi

/-- A request that returns has recorded one result before. -/
def RecordedOnce (h : List ApiEvent) : ApiEvent → Prop
  | .returned request => h.count (.recorded request) = 1
  | _ => True

/-- Half-open, and nothing is on its way that could change that. -/
def Stuck (s : FlashApi) : Prop :=
  s.cb.state = .HALF_OPEN ∧ ∀ request, s.inFlight.get? request = none

/-- Requests report, and the circuit is not stuck. -/
def Reported (s : FlashApi) (h : List ApiEvent) : Prop := Each RecordedOnce h ∧ ¬ Stuck s

/-- The answers of which nothing is recorded: a status that is neither a success nor an
error of the server, and a response that is too large. -/
def Unrecorded : Attempt → Prop
  | .threw _ => False
  | .answered status contentLength text =>
    (¬ isOk status ∧ status < 500) ∨
      (isOk status ∧ (announcedTooLarge contentLength = true ∨
        ∃ body, text = .ok body ∧ MAX_RESPONSE_BYTES < body.length))

/-- No request in flight ends in such an answer. -/
def Records (s : FlashApi) (_ : List ApiEvent) : ApiCall → Prop
  | .request _ => True
  | .attemptEnds request _ attempt => s.inFlight.get? request ≠ none → ¬ Unrecorded attempt

/-! ## One attempt -/

theorem results_recordSuccess (cb : ServiceCircuitBreaker) :
    results cb.recordSuccess = results cb + 1 ∧ cb.recordSuccess.state ≠ .HALF_OPEN := by
  unfold results ServiceCircuitBreaker.recordSuccess ServiceCircuitBreaker.close
  dsimp only
  split
  · exact ⟨by dsimp only; omega, by simp⟩
  · next hstate => exact ⟨by dsimp only; omega, hstate⟩

theorem results_recordFailure (cb : ServiceCircuitBreaker) (now : ℚ) :
    results (cb.recordFailure now) = results cb + 1 ∧
      (cb.recordFailure now).state ≠ .HALF_OPEN := by
  unfold results ServiceCircuitBreaker.recordFailure ServiceCircuitBreaker.openCircuit
  dsimp only
  split
  · exact ⟨by dsimp only; omega, by simp⟩
  · next hstate =>
    split
    · exact ⟨by dsimp only; omega, by simp⟩
    · exact ⟨by dsimp only; omega, hstate⟩

/-- One result is recorded, and the circuit is not half-open then. -/
def RecordsOne (cb cb' : ServiceCircuitBreaker) : Prop :=
  results cb' = results cb + 1 ∧ cb'.state ≠ .HALF_OPEN

theorem caught_cases (cb : ServiceCircuitBreaker) (attempt : ℕ) (error : Thrown) (now : ℚ) :
    caught cb attempt error now = (cb, .retry) ∨
      ∃ cb', RecordsOne cb cb' ∧ caught cb attempt error now = (cb', .returned none) := by
  unfold caught
  split
  · exact .inl rfl
  · exact .inr ⟨_, results_recordFailure cb now, rfl⟩

/-- A response of fair size is recorded, or reading it threw. -/
theorem not_unrecorded {status : ℕ} {contentLength : Option JsNumber}
    {text : Except Thrown (List CodeUnit)} (hok : isOk status)
    (hlarge : ¬ announcedTooLarge contentLength = true)
    (hbody : ∀ body, text = .ok body → ¬ MAX_RESPONSE_BYTES < body.length) :
    ¬ Unrecorded (.answered status contentLength text) := by
  rintro (⟨h, -⟩ | ⟨-, h | ⟨body, heq, h⟩⟩)
  · exact h hok
  · exact hlarge h
  · exact hbody body heq h

/-- An attempt is repeated, or it returns: with nothing recorded if it is one of those
answers, and with one result if it is not. -/
theorem flashApiFetch_cases (cb : ServiceCircuitBreaker) (n : ℕ) (now : ℚ) (attempt : Attempt) :
    (¬ Unrecorded attempt ∧ flashApiFetch cb n now attempt = (cb, .retry)) ∨
    (Unrecorded attempt ∧ flashApiFetch cb n now attempt = (cb, .returned none)) ∨
    (¬ Unrecorded attempt ∧ ∃ cb' result, RecordsOne cb cb' ∧
      flashApiFetch cb n now attempt = (cb', .returned result)) := by
  cases attempt with
  | threw error =>
    rcases caught_cases cb n error now with hretry | ⟨cb', hone, hret⟩
    · exact .inl ⟨id, hretry⟩
    · exact .inr (.inr ⟨id, cb', none, hone, hret⟩)
  | answered status contentLength text =>
    by_cases hok : isOk status
    swap
    · by_cases hserver : 500 ≤ status
      · refine .inr (.inr ⟨?_, cb.recordFailure now, none, results_recordFailure cb now, ?_⟩)
        · rintro (⟨-, hlow⟩ | ⟨h, -⟩)
          · omega
          · exact hok h
        · simp only [flashApiFetch, if_pos hok, if_pos hserver]
      · refine .inr (.inl ⟨.inl ⟨hok, by omega⟩, ?_⟩)
        simp only [flashApiFetch, if_pos hok, if_neg hserver]
    have hthis : ¬ ¬ isOk status := not_not.mpr hok
    by_cases hlarge : announcedTooLarge contentLength = true
    · refine .inr (.inl ⟨.inr ⟨hok, .inl hlarge⟩, ?_⟩)
      simp only [flashApiFetch, if_neg hthis, if_pos hlarge]
    cases text with
    | error error =>
      have hnot : ¬ Unrecorded (.answered status contentLength (.error error)) :=
        not_unrecorded hok hlarge fun body hbody => (by cases hbody)
      have hfetch : flashApiFetch cb n now (.answered status contentLength (.error error)) =
          caught cb n error now := by
        simp only [flashApiFetch, if_neg hthis, if_neg hlarge]
      rw [hfetch]
      rcases caught_cases cb n error now with hretry | ⟨cb', hone, hret⟩
      · exact .inl ⟨hnot, hretry⟩
      · exact .inr (.inr ⟨hnot, cb', none, hone, hret⟩)
    | ok text =>
      by_cases hbody : MAX_RESPONSE_BYTES < text.length
      · refine .inr (.inl ⟨.inr ⟨hok, .inr ⟨text, rfl, hbody⟩⟩, ?_⟩)
        simp only [flashApiFetch, if_neg hthis, if_neg hlarge, if_pos hbody]
      have hnot : ¬ Unrecorded (.answered status contentLength (.ok text)) := by
        refine not_unrecorded hok hlarge fun body heq => ?_
        obtain rfl := Except.ok.inj heq
        exact hbody
      refine .inr (.inr ⟨hnot, ?_⟩)
      simp only [flashApiFetch, if_neg hthis, if_neg hlarge, if_neg hbody]
      cases Json.parse text with
      | none => exact ⟨_, none, results_recordFailure cb now, rfl⟩
      | some result => exact ⟨_, _, results_recordSuccess cb, rfl⟩

/-! ## The invariant -/

variable {s s' : FlashApi} {h es : List ApiEvent}

/-- Requests in flight have not reported, later ones neither; and someone is testing a
half-open circuit. -/
structure ReportInv (s : FlashApi) (h : List ApiEvent) : Prop where
  once : Each RecordedOnce h
  numbered : ∀ request, s.inFlight.get? request ≠ none → request < s.requests
  silent : ∀ request, (s.inFlight.get? request ≠ none ∨ s.requests ≤ request) →
    h.count (.recorded request) = 0
  testing : ¬ Stuck s

/-- A request that is admitted is in flight. -/
theorem ReportInv.admitted (hI : ReportInv s h) (cb : ServiceCircuitBreaker) :
    ReportInv { cb, requests := s.requests + 1, inFlight := s.inFlight.set s.requests 0 }
      (h ++ [ApiEvent.admitted s.requests]) where
  once := hI.once.snoc trivial
  numbered request hr := by
    show request < s.requests + 1
    by_cases heq : request = s.requests
    · omega
    · rw [OrderedMap.get?_set_of_ne heq] at hr
      exact Nat.lt_succ_of_lt (hI.numbered request hr)
  silent request hr := by
    have hbefore : s.inFlight.get? request ≠ none ∨ s.requests ≤ request := by
      rcases hr with hr | hr
      · by_cases heq : request = s.requests
        · exact .inr (le_of_eq heq.symm)
        · rw [OrderedMap.get?_set_of_ne heq] at hr
          exact .inl hr
      · exact .inr (Nat.le_of_succ_le hr)
    rw [List.count_append, hI.silent request hbefore]
    rfl
  testing := by
    rintro ⟨-, hnone⟩
    have hself := hnone s.requests
    rw [OrderedMap.get?_set_self] at hself
    cases hself

theorem reportInv_request {now : ℚ} (hI : ReportInv s h)
    (hs : s.step (.request now) = some (s', es)) : ReportInv s' (h ++ es) := by
  simp only [step] at hs
  rcases s.cb.allowRequest_cases now with ⟨-, hr⟩ | ⟨-, hr⟩ | ⟨-, hr⟩
  · rw [hr] at hs
    obtain ⟨rfl, rfl⟩ := Machine.some_pair hs
    exact hI.admitted s.cb
  · rw [hr] at hs
    obtain ⟨rfl, rfl⟩ := Machine.some_pair hs
    exact hI.admitted _
  · rw [hr] at hs
    obtain ⟨rfl, rfl⟩ := Machine.some_pair hs
    exact ⟨hI.once.snoc trivial, hI.numbered,
      fun request hr => by simpa using hI.silent request hr, hI.testing⟩

/-- What the end of an attempt does: the next one starts, or the request returns, with
one result recorded or with none. -/
theorem attemptEnds_cases {request : ℕ} {now : ℚ} {attempt : Attempt}
    (hs : s.step (.attemptEnds request now attempt) = some (s', es)) :
    ∃ n, s.inFlight.get? request = some n ∧
      ((¬ Unrecorded attempt ∧ es = [] ∧
        s' = { s with inFlight := s.inFlight.set request (n + 1) }) ∨
      (Unrecorded attempt ∧ es = [.returned request]) ∨
      (¬ Unrecorded attempt ∧ es = [.recorded request, .returned request] ∧
        s'.cb.state ≠ .HALF_OPEN ∧ s'.requests = s.requests ∧
        s'.inFlight = s.inFlight.delete request)) := by
  simp only [step] at hs
  cases hget : s.inFlight.get? request with
  | none =>
    rw [hget] at hs
    cases hs
  | some n =>
    rw [hget] at hs
    refine ⟨n, rfl, ?_⟩
    rcases flashApiFetch_cases s.cb n now attempt with
      ⟨hnot, hfetch⟩ | ⟨hun, hfetch⟩ | ⟨hnot, cb', result, ⟨hone, hstate⟩, hfetch⟩
    · simp only [hfetch, Nat.sub_self, List.replicate_zero] at hs
      obtain ⟨rfl, rfl⟩ := Machine.some_pair hs
      exact .inl ⟨hnot, rfl, rfl⟩
    · simp only [hfetch, Nat.sub_self, List.replicate_zero, List.nil_append] at hs
      obtain ⟨rfl, rfl⟩ := Machine.some_pair hs
      exact .inr (.inl ⟨hun, rfl⟩)
    · simp only [hfetch, hone, Nat.add_sub_cancel_left] at hs
      obtain ⟨rfl, rfl⟩ := Machine.some_pair hs
      exact .inr (.inr ⟨hnot, rfl, hstate, rfl, rfl⟩)

theorem reportInv_attemptEnds {request : ℕ} {now : ℚ} {attempt : Attempt} (hI : ReportInv s h)
    (hC : Records s h (.attemptEnds request now attempt))
    (hs : s.step (.attemptEnds request now attempt) = some (s', es)) :
    ReportInv s' (h ++ es) := by
  obtain ⟨n, hget, hcases⟩ := attemptEnds_cases hs
  have hflying : s.inFlight.get? request ≠ none := by
    rw [hget]
    exact Option.some_ne_none n
  rcases hcases with ⟨-, rfl, rfl⟩ | ⟨hun, -⟩ | ⟨-, rfl, hstate, hrequests, hinFlight⟩
  · -- the request is still in flight
    rw [List.append_nil]
    have hsame : ∀ r, (s.inFlight.set request (n + 1)).get? r ≠ none →
        s.inFlight.get? r ≠ none := by
      intro r hr
      by_cases heq : r = request
      · exact heq ▸ hflying
      · rwa [OrderedMap.get?_set_of_ne heq] at hr
    refine ⟨hI.once, fun r hr => hI.numbered r (hsame r hr),
      fun r hr => hI.silent r (hr.imp_left (hsame r)), fun hstuck => ?_⟩
    have hself := hstuck.2 request
    rw [OrderedMap.get?_set_self] at hself
    cases hself
  · exact absurd hun (hC hflying)
  · have hrecorded : Each RecordedOnce (h ++ [ApiEvent.recorded request]) := hI.once.snoc trivial
    have honce : RecordedOnce (h ++ [ApiEvent.recorded request]) (.returned request) := by
      show (h ++ [ApiEvent.recorded request]).count (.recorded request) = 1
      rw [List.count_append, hI.silent request (.inl hflying), List.count_singleton_self]
    have hleft : ∀ r, s'.inFlight.get? r ≠ none → r ≠ request ∧ s.inFlight.get? r ≠ none := by
      intro r hr
      rw [hinFlight, OrderedMap.get?_delete] at hr
      by_cases heq : r = request
      · rw [if_pos heq] at hr
        exact absurd rfl hr
      · rw [if_neg heq] at hr
        exact ⟨heq, hr⟩
    refine ⟨?_, fun r hr => ?_, fun r hr => ?_, fun hstuck => hstate hstuck.1⟩
    · rw [List.append_cons]
      exact hrecorded.snoc honce
    · rw [hrequests]
      exact hI.numbered r (hleft r hr).2
    · have hne : r ≠ request := by
        rcases hr with hr | hr
        · exact (hleft r hr).1
        · rw [hrequests] at hr
          exact fun heq => absurd (hI.numbered request hflying) (by omega)
      have hbefore : h.count (.recorded r) = 0 := by
        refine hI.silent r ?_
        rw [hrequests] at hr
        exact hr.imp_left fun hr => (hleft r hr).2
      rw [List.count_append, hbefore]
      simp [Ne.symm hne]

/-- Answers that are recorded keep the invariant. -/
theorem reportInv_step {a : ApiCall} (hI : ReportInv s h) (hC : Records s h a)
    (hs : s.step a = some (s', es)) : ReportInv s' (h ++ es) := by
  cases a with
  | request now => exact reportInv_request hI hs
  | attemptEnds request now attempt => exact reportInv_attemptEnds hI hC hs

/-- A request with an answer that is not recorded returns without a result. -/
theorem not_reported_step {a : ApiCall} (hI : ReportInv s h) (hC : ¬ Records s h a)
    (hs : s.step a = some (s', es)) : ¬ Reported s' (h ++ es) := by
  cases a with
  | request now => exact absurd trivial hC
  | attemptEnds request now attempt =>
    rw [Records, Classical.not_imp, not_not] at hC
    obtain ⟨hflying, hun⟩ := hC
    obtain ⟨n, -, ⟨hnot, -⟩ | ⟨-, rfl⟩ | ⟨hnot, -⟩⟩ := attemptEnds_cases hs
    · exact absurd hun hnot
    · rintro ⟨honce, -⟩
      have hone : h.count (.recorded request) = 1 := honce.of_split rfl
      rw [hI.silent request (.inl hflying)] at hone
      cases hone
    · exact absurd hun hnot

/-- **Results.** All along a run every admitted request records one result before it
returns, and the circuit is not left half-open without a request, exactly if no request
in flight is answered by a status that is neither a success nor an error of the server,
or by a response that is too large. -/
theorem reported_iff (as : List ApiCall) :
    flashApi.Always Reported flashApi.init [] as ↔
      flashApi.Along Records flashApi.init [] as := by
  have hinit : ReportInv flashApi.init [] :=
    ⟨Each.nil, fun _ hr => absurd rfl hr, fun _ _ => rfl, fun hstuck => (by cases hstuck.1)⟩
  exact Machine.always_iff_along (I := ReportInv) (fun hI => ⟨hI.once, hI.testing⟩)
    (fun hI hC hs => reportInv_step hI hC hs) (fun hI hC hs => not_reported_step hI hC hs) hinit as

/-- A circuit that is stuck stays so, and every request is refused. -/
theorem stuck_refuses {as : List ApiCall} (hstuck : Stuck s)
    (hrun : flashApi.runFrom s h as = some (s', es)) :
    Stuck s' ∧ es = h ++ List.replicate as.length .refused := by
  induction as generalizing s h with
  | nil =>
    obtain ⟨rfl, rfl⟩ : s = s' ∧ h = es := by simpa [Machine.runFrom] using hrun
    exact ⟨hstuck, (List.append_nil h).symm⟩
  | cons a as ih =>
    cases a with
    | attemptEnds request now attempt =>
      -- nothing is in flight
      simp [Machine.runFrom, flashApi, step, hstuck.2 request] at hrun
    | request now =>
      have hrefused : flashApi.step s (.request now) = some (s, [.refused]) := by
        simp [flashApi, step, ServiceCircuitBreaker.allowRequest, hstuck.1]
      rw [Machine.runFrom, hrefused] at hrun
      obtain ⟨hend, hes⟩ := ih hstuck hrun
      refine ⟨hend, hes.trans ?_⟩
      rw [List.append_assoc]
      rfl

/-- Five server errors open the circuit; the test request is answered by 404. -/
def brokenTest : List ApiCall :=
  (List.range 5).flatMap (fun i => [.request 0, .attemptEnds i 0 (.answered 503 none (.ok []))]) ++
    [.request 15000, .attemptEnds 5 15000 (.answered 404 none (.ok []))]

/-- The next three requests are refused. -/
theorem stuck_refuses_three : ∃ s h, flashApi.run brokenTest = some (s, h) ∧
    ∀ s' es, flashApi.runFrom s h [.request 20000, .request 90000, .request 900000000] =
      some (s', es) → Stuck s' ∧ es = h ++ List.replicate 3 .refused := by
  have hrun : (flashApi.run brokenTest).map (fun p => (p.1.cb.state, p.1.inFlight.size)) =
      some (.HALF_OPEN, 0) := by
    decide +kernel
  obtain ⟨⟨s, h⟩, hs, hend⟩ := Option.map_eq_some_iff.mp hrun
  obtain ⟨hstate, hsize⟩ := Prod.mk.inj hend
  have hstuck : Stuck s := by
    refine ⟨hstate, fun request => ?_⟩
    rw [OrderedMap.eq_empty_of_size hsize, OrderedMap.get?_empty]
  exact ⟨s, h, hs, fun s' es hfrom => stuck_refuses hstuck hfrom⟩

/-- After it the circuit is half-open for ever. -/
theorem not_reported : ¬ ∀ s h, flashApi.Reachable s h → Reported s h := by
  intro hall
  have hrun : (flashApi.run brokenTest).map (fun p => (p.1.cb.state, p.1.inFlight.size)) =
      some (.HALF_OPEN, 0) := by
    decide +kernel
  obtain ⟨⟨s, h⟩, hs, hend⟩ := Option.map_eq_some_iff.mp hrun
  obtain ⟨hstate, hsize⟩ := Prod.mk.inj hend
  refine (hall s h (Machine.reachable_of_run hs)).2 ⟨hstate, fun request => ?_⟩
  rw [OrderedMap.eq_empty_of_size hsize, OrderedMap.get?_empty]

end FlashApi

end FlashEdge
