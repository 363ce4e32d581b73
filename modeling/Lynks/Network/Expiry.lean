import Lynks.Network.Interleaving

/-!
# Requests and the clock

What the handlers and the cleanup thread do to the session store, in any run of the service, is
one run of the store's operations (`sessions_of_run`), so the answers of the store are those of
its history. A request for the video room is let in exactly while the session of its token has
been idle for less than five minutes (`let_in_while_active`). A session that one request has
found expired lets nobody in any more (`refused_for_good`).
-/

namespace Lynks
set_option autoImplicit false

open Lib Janus Handler

namespace SessionHandler

variable {maxSessions : UInt16} {ops before middle after : List Op} {s t : SessionHandler}
  {token : String}

/-- Whoever has a life was issued the token. -/
theorem issued_of_lifeOf {h : History} {l : Lease String} (found : lifeOf token h = some l) :
    token ∈ issued h := by
  induction h using List.reverseRecOn generalizing l with
  | nil => cases found
  | append_singleton h e ih =>
    rw [lifeOf_snoc] at found
    rw [issued_snoc, List.mem_append]
    unfold lifeStep at found
    split at found
    · split at found
      · rename_i same
        exact Or.inr (by simp [issued, same])
      · exact Or.inl (ih found)
    · split at found
      · obtain ⟨l', before, -⟩ := Option.map_eq_some_iff.1 found
        exact Or.inl (ih before)
      · exact Or.inl (ih found)
    · exact Or.inl (ih found)

/-- In a run, whoever was issued a token has one. -/
theorem lifeOf_of_issued (run : (machine maxSessions).Run ops s)
    (mem : token ∈ issued (history maxSessions ops)) :
    ∃ l, lifeOf token (history maxSessions ops) = some l := by
  revert mem
  refine Machine.Run.induct (M := machine maxSessions) (I := fun ops _ =>
    token ∈ issued (history maxSessions ops) → ∃ l, lifeOf token (history maxSessions ops) = some l)
    (fun mem => by cases mem) ?_ run
  intro ops s op t run ih taken mem
  rw [history_snoc run] at mem ⊢
  rw [issued_snoc, List.mem_append] at mem
  rw [lifeOf_snoc]
  rcases mem with old | new
  · obtain ⟨l, before⟩ := ih old
    rw [before]
    unfold lifeStep
    split
    · split <;> exact ⟨_, rfl⟩
    · split <;> exact ⟨_, rfl⟩
    · exact ⟨_, rfl⟩
  · cases op with
    | newSession username generated now =>
      have given : s.answer (.newSession username generated now) = .token (some token) := by
        simp only [issued, List.mem_filterMap, List.mem_singleton] at new
        obtain ⟨_, rfl, found⟩ := new
        split at found
        · rename_i same
          obtain rfl := Option.some.inj found
          exact (Prod.mk.inj same).2
        · cases found
      rw [given]
      exact ⟨_, if_pos rfl⟩
    | validateSession t now refreshed => cases new
    | getUsernameByToken t now => cases new
    | cleanup nows => cases new

/-- The answer of `validate_session` at any place of a run. -/
theorem validated_iff {now refreshed : UInt64}
    (run : (machine maxSessions).Run (before ++ .validateSession token now refreshed :: after) t)
    (runBefore : (machine maxSessions).Run before s)
    (clock : ((before ++ .validateSession token now refreshed :: after).flatMap
      Op.readings).Pairwise (· ≤ ·))
    (distinct : (issued (history maxSessions
      (before ++ .validateSession token now refreshed :: after))).Nodup) :
    (s.validateSession token now refreshed).2 = true ↔
      ∃ owner life, lifeOf token (history maxSessions before) = some ⟨owner, life⟩ ∧
        now.toNat < life + 300000 := by
  obtain ⟨tracks, ordered⟩ := tracks_at rfl run runBefore clock distinct
  have clockNow : ∀ r ∈ before.flatMap Op.readings, r ≤ now :=
    fun r mem => ordered r mem now (by simp [Op.readings])
  rw [validateSession_eq_lookup (tracks.lives_le clockNow), tracks.lookup_eq clockNow,
    Option.isSome_iff_exists]
  simp only [LeaseTable.lookup_eq_some]

/-- A life that is expired when an operation reads the clock is not taken up again. -/
theorem lifeOf_step {l : Lease String} {op : Op}
    (run : (machine maxSessions).Run (before ++ [op]) t)
    (clock : ((before ++ [op]).flatMap Op.readings).Pairwise (· ≤ ·))
    (distinct : (issued (history maxSessions (before ++ [op]))).Nodup)
    (found : lifeOf token (history maxSessions before) = some l)
    (expired : ∀ r ∈ op.readings, l.since + 300000 ≤ r.toNat) :
    lifeOf token (history maxSessions (before ++ [op])) = some l := by
  obtain ⟨s, runBefore, -⟩ := Machine.run_snoc.1 run
  rw [history_snoc runBefore, lifeOf_snoc, found]
  cases op with
  | newSession username generated now =>
    cases answered : s.answer (.newSession username generated now) with
    | token given =>
      cases given with
      | none => rfl
      | some t =>
        rw [history_snoc runBefore, issued_snoc, answered] at distinct
        have other : t ≠ token := by
          rintro rfl
          exact (List.nodup_append.1 distinct).2.2 _ (issued_of_lifeOf found) _
            (by simp [issued]) rfl
        simp [lifeStep, other]
    | valid b => rfl
    | username owner => rfl
    | cleaned => rfl
  | validateSession t now refreshed =>
    cases answered : (s.validateSession t now refreshed).2 with
    | false =>
      rw [show s.answer (.validateSession t now refreshed) = .valid false from
        congrArg Answer.valid answered]
      rfl
    | true =>
      have other : t ≠ token := by
        rintro rfl
        obtain ⟨owner, life, same, live⟩ := (validated_iff run runBefore clock distinct).1 answered
        rw [found] at same
        have late := expired now (by simp [Op.readings])
        rw [Option.some.inj same] at late
        exact absurd live (Nat.not_lt.2 late)
      rw [show s.answer (.validateSession t now refreshed) = .valid true from
        congrArg Answer.valid answered]
      simp [lifeStep, other]
  | getUsernameByToken t now => rfl
  | cleanup nows => rfl

/-- **An expired life stays as it is.** -/
theorem stays_expired {l : Lease String} (found : lifeOf token (history maxSessions before) = some l)
    (run : (machine maxSessions).Run (before ++ middle) t)
    (clock : ((before ++ middle).flatMap Op.readings).Pairwise (· ≤ ·))
    (distinct : (issued (history maxSessions (before ++ middle))).Nodup)
    (expired : ∀ op ∈ middle, ∀ r ∈ op.readings, l.since + 300000 ≤ r.toNat) :
    lifeOf token (history maxSessions (before ++ middle)) = some l := by
  induction middle using List.reverseRecOn generalizing t with
  | nil => simpa using found
  | append_singleton middle op ih =>
    rw [← List.append_assoc] at run clock distinct ⊢
    obtain ⟨s, runBefore, -⟩ := Machine.run_snoc.1 run
    have earlier : lifeOf token (history maxSessions (before ++ middle)) = some l := by
      refine ih runBefore ?_ ?_ fun op' mem => expired op' (List.mem_append_left _ mem)
      · rw [List.flatMap_append] at clock
        exact (List.pairwise_append.1 clock).1
      · rw [history_snoc runBefore, issued_snoc] at distinct
        exact (List.nodup_append.1 distinct).1
    exact lifeOf_step run clock distinct earlier (expired op (by simp))

end SessionHandler

namespace Service

variable {lib : Nlohmann} {sha : Sha256} {host : String} {maxSessions : UInt16} {s t : Service}
  {es fs gs : List ServiceEvent}

/-! ## The store of the service -/

/-- The operations on the session store that a step makes. -/
def sessionOps : ServiceEvent → List SessionHandler.Op
  | .arrive _ => []
  | .perform _ event now refreshed => ((storeOperation now refreshed event).map (·.1)).toList
  | .cleanup nows => [.cleanup nows]

/-- The history of the session store. -/
def sessionHistory (maxSessions : UInt16) (es : List ServiceEvent) : SessionHandler.History :=
  SessionHandler.history maxSessions (es.flatMap sessionOps)

/-- **The sessions of the service** are those of a run of the operations that its handlers and
its cleanup thread make. -/
theorem sessions_of_run (run : (service lib sha host maxSessions).Run es s) :
    (SessionHandler.machine maxSessions).Run (es.flatMap sessionOps) s.store := by
  have projected := run.project (N := SessionHandler.machine maxSessions) (π := Service.store)
    (k := fun _ e => sessionOps e) rfl ?_
  · rwa [run.log_events] at projected
  intro s e t stepped
  have taken : s.step lib sha host e = some t := stepped
  cases e with
  | arrive request =>
    obtain rfl := Option.some.inj taken
    rfl
  | perform i event now refreshed =>
    obtain ⟨f, program, store, -, -, admitted, rfl⟩ := perform_cases taken
    unfold storeAfter at admitted
    split at admitted
    · rename_i op answer operation
      obtain ⟨-, stepped⟩ := Option.ite_none_right_eq_some.1 admitted
      simp only [sessionOps, operation, Option.map_some, Option.toList_some]
      exact Option.bind_eq_some_iff.2 ⟨store, stepped, rfl⟩
    · rename_i operation
      simp only [sessionOps, operation, Option.map_none, Option.toList_none]
      exact admitted
  | cleanup nows =>
    obtain ⟨store, passed, rfl⟩ := Option.map_eq_some_iff.1 taken
    exact Option.bind_eq_some_iff.2 ⟨store, passed, rfl⟩

/-- The session of a token is live, by the history of the store. -/
def ActiveAt (maxSessions : UInt16) (es : List ServiceEvent) (token : String) (now : UInt64) :
    Prop :=
  ∃ owner life, SessionHandler.lifeOf token (sessionHistory maxSessions es) = some ⟨owner, life⟩ ∧
    now.toNat < life + 300000

/-- The clock does not run backwards, and no token is drawn twice. -/
structure Orderly (maxSessions : UInt16) (es : List ServiceEvent) : Prop where
  clock : ((es.flatMap sessionOps).flatMap SessionHandler.Op.readings).Pairwise (· ≤ ·)
  distinct : (SessionHandler.issued (sessionHistory maxSessions es)).Nodup

/-- What `validate_session` answers a handler. -/
theorem validated_iff {i : Nat} {token : String} {b : Bool} {now refreshed : UInt64}
    (run : (service lib sha host maxSessions).Run
      (fs ++ .perform i (validated token b) now refreshed :: gs) s)
    (orderly : Orderly maxSessions (fs ++ .perform i (validated token b) now refreshed :: gs)) :
    b = true ↔ ActiveAt maxSessions fs token now := by
  obtain ⟨u, earlier, later⟩ := Machine.run_append.1 run
  obtain ⟨v, stepped, -⟩ := Option.bind_eq_some_iff.1 later
  have taken : u.step lib sha host (.perform i (validated token b) now refreshed) = some v := stepped
  obtain ⟨_, _, _, -, -, admitted, -⟩ := perform_cases taken
  obtain ⟨answered, -⟩ := Option.ite_none_right_eq_some.1 admitted
  have given : (u.store.validateSession token now refreshed).2 = b :=
    SessionHandler.Answer.valid.inj answered
  have split : (fs ++ .perform i (validated token b) now refreshed :: gs).flatMap sessionOps =
      fs.flatMap sessionOps ++ .validateSession token now refreshed :: gs.flatMap sessionOps := by
    rw [List.flatMap_append, List.flatMap_cons]
    rfl
  have whole := sessions_of_run run
  obtain ⟨clock, distinct⟩ := orderly
  rw [sessionHistory] at distinct
  rw [split] at whole clock distinct
  rw [← given]
  exact SessionHandler.validated_iff whole (sessions_of_run earlier) clock distinct

/-! ## What a request meets -/

/-- The session is the first thing a handler of the video room asks about, and the last if it is
refused. -/
def Checked (request : HttpRequest) (past : List Event) (r : Outcome Exception HttpResponse) :
    Prop :=
  request.AsksJanus → ∀ token, request.authorization = some token →
    ∃ b rest, past = validated token b :: rest ∧
      (b = false → rest = [] ∧ r = .ok (Router.badRequest request))

theorem withToken_checked {request : HttpRequest} {token : String}
    {action : String → Handler (Option String)} (header : request.authorization = some token) :
    (Router.withToken request fun token => withSession token (action token)).wp (fun _ _ => True)
      (Checked request) [] := by
  unfold Router.withToken HttpRequest.atAuthorization
  rw [header]
  apply Prog.wp_catchAll
  apply Prog.wp_bind
  rw [wp_lift]
  apply Prog.wp_bind
  unfold withSession
  apply Prog.wp_bind
  rw [wp_validateSession]
  refine ⟨trivial, fun valid => ?_⟩
  have keyed {past : List Event} {b : Bool} (longer : [validated token b] <+: past)
      (refused : b = false → past = [validated token b]) {r : Outcome Exception HttpResponse}
      (reply : b = false → r = .ok (Router.badRequest request)) : Checked request past r := by
    obtain ⟨rest, rfl⟩ := longer
    intro endpoint token' header'
    obtain rfl := Option.some.inj (header.symm.trans header')
    refine ⟨b, rest, rfl, fun no => ⟨?_, reply no⟩⟩
    simpa using refused no
  cases valid with
  | false => exact keyed List.prefix_rfl (fun _ => rfl) fun _ => rfl
  | true =>
    refine Prog.wp_mono ?_ (Prog.wp_prefix _ _)
    intro past result longer
    have open_ : ∀ r, Checked request past r :=
      fun r => keyed longer (fun no => by cases no) fun no => by cases no
    cases result with
    | ok text => exact open_ _
    | throws e => exact open_ _
    | undefined => exact open_ _

theorem handleRequest_checked (request : HttpRequest) :
    (Router.handleRequest lib sha host request).wp (fun _ _ => True) (Checked request) [] := by
  cases header : request.authorization with
  | none =>
    refine Prog.wp_mono ?_ (Prog.wp_trivial [] _)
    intro past r _ endpoint token named
    rw [header] at named
    cases named
  | some token =>
    unfold Router.handleRequest Router.routeRequest
    split
    · rename_i login
      refine Prog.wp_mono ?_ (Prog.wp_trivial [] _)
      rintro past r - (create | list)
      · simp [login] at create
      · simp [login] at list
    · split
      · exact withToken_checked header
      · split
        · exact withToken_checked header
        · rename_i create list
          refine Prog.wp_mono ?_ (Prog.wp_trivial [] _)
          rintro past r - (path | path)
          · exact absurd path create
          · exact absurd path list

/-- The check of a request that has been answered, in the run. -/
theorem checked_of_run (run : (service lib sha host maxSessions).Run es s) {i : Nat}
    {request : HttpRequest} {response : HttpResponse}
    (found : s.inFlight[i]? = some ⟨request, .done (.ok response)⟩) (endpoint : request.AsksJanus)
    {token : String} (header : request.authorization = some token) :
    ∃ fs gs now refreshed b, es = fs ++ .perform i (validated token b) now refreshed :: gs ∧
      (b = false → pastOf i (history lib sha host maxSessions es) = [validated token false] ∧
        response = Router.badRequest request) := by
  obtain ⟨b, rest, past, refused⟩ := ended_of_run (G := fun _ _ _ => True) (Q := Checked)
    handleRequest_checked run found endpoint token header
  obtain ⟨before, r, after, split, own, event, -⟩ := pastBy_eq_cons past
  obtain ⟨fs, e, gs, u, v, rfl, -, taken, -, written⟩ := Machine.Run.entry? run split
  obtain ⟨refreshed, _, _, _, rfl, -⟩ := record_cases taken written
  rw [own, event]
  refine ⟨fs, gs, r.now, refreshed, b, rfl, fun no => ?_⟩
  obtain ⟨rfl, reply⟩ := refused no
  rw [own, event] at past
  exact ⟨no ▸ past, Outcome.ok.inj reply⟩

/-- A login at 1000 ms. -/
def loginAt : List ServiceEvent :=
  [.arrive ⟨"/login", 11, none, "login"⟩,
    .perform 0 (queried selectByUsername "alice" (some [aliceRow])) 0 0,
    .perform 0 (issued "alice" (some "a1")) 1000 0]

/-- Two requests with its token, five minutes later. -/
def tooLate : List ServiceEvent :=
  [.arrive ⟨"/create", 11, some "a1", ""⟩, .perform 1 (validated "a1" false) 301000 301000,
    .arrive ⟨"/create", 11, some "a1", ""⟩, .perform 2 (validated "a1" false) 301500 301500]

theorem Orderly.earlier (orderly : Orderly maxSessions (fs ++ gs))
    (run : (service lib sha host maxSessions).Run fs s) : Orderly maxSessions fs := by
  obtain ⟨clock, distinct⟩ := orderly
  rw [List.flatMap_append, List.flatMap_append] at clock
  refine ⟨(List.pairwise_append.1 clock).1, ?_⟩
  rw [sessionHistory, SessionHandler.history, Machine.log, List.flatMap_append,
    Machine.observe_append (sessions_of_run run), SessionHandler.issued,
    List.filterMap_append] at distinct
  exact (List.nodup_append.1 distinct).1

/-- No reading after a check is before its own. -/
theorem Orderly.after {i : Nat} {token : String} {b : Bool} {now refreshed : UInt64}
    (orderly : Orderly maxSessions (fs ++ .perform i (validated token b) now refreshed :: gs)) :
    ∀ op ∈ (ServiceEvent.perform i (validated token b) now refreshed :: gs).flatMap sessionOps,
      ∀ r ∈ op.readings, now ≤ r := by
  have clock := orderly.clock
  rw [List.flatMap_append, List.flatMap_append] at clock
  have later := (List.pairwise_append.1 clock).2.1
  intro op mem r reading
  have here : r ∈ ((ServiceEvent.perform i (validated token b) now refreshed :: gs).flatMap
      sessionOps).flatMap SessionHandler.Op.readings := List.mem_flatMap.2 ⟨op, mem, reading⟩
  have readings : ((ServiceEvent.perform i (validated token b) now refreshed :: gs).flatMap
      sessionOps).flatMap SessionHandler.Op.readings =
        now :: (refreshed :: (gs.flatMap sessionOps).flatMap SessionHandler.Op.readings) := rfl
  rw [readings] at here later
  rcases List.mem_cons.1 here with rfl | rest
  · exact UInt64.le_refl _
  · exact (List.pairwise_cons.1 later).1 r rest

theorem validated_inj {token token' : String} {b b' : Bool}
    (same : validated token b = validated token' b') : token = token' ∧ b = b' := by
  injection same with operation answer
  injection operation with token
  exact ⟨token, answer⟩

/-- The life of a session that was refused. -/
theorem stays_refused {i : Nat} {token : String} {now refreshed : UInt64} {l : Lease String}
    (run : (service lib sha host maxSessions).Run
      (fs ++ .perform i (validated token false) now refreshed :: gs) s)
    (orderly : Orderly maxSessions (fs ++ .perform i (validated token false) now refreshed :: gs))
    (known : SessionHandler.lifeOf token (sessionHistory maxSessions fs) = some l) :
    l.since + 300000 ≤ now.toNat ∧ SessionHandler.lifeOf token (sessionHistory maxSessions
      (fs ++ .perform i (validated token false) now refreshed :: gs)) = some l := by
  have expired : l.since + 300000 ≤ now.toNat := by
    by_contra live
    have active : ActiveAt maxSessions fs token now :=
      ⟨l.owner, l.since, known, Nat.lt_of_not_le live⟩
    cases (validated_iff run orderly).2 active
  refine ⟨expired, ?_⟩
  have whole := sessions_of_run run
  obtain ⟨clock, distinct⟩ := orderly
  rw [sessionHistory] at distinct ⊢
  rw [List.flatMap_append] at whole clock distinct ⊢
  refine SessionHandler.stays_expired known whole clock distinct fun op mem r reading => ?_
  have late := UInt64.le_iff_toNat_le.1 (Orderly.after ⟨by rwa [List.flatMap_append],
    by rwa [sessionHistory, List.flatMap_append]⟩ op mem r reading)
  omega

/-- **Once expired, for good.** When a check has refused a token that was issued before, every
later check of it is refused; and every request with it that was not checked earlier, whenever it
has arrived, is answered 400, the database and Janus having been asked nothing. -/
theorem refused_for_good {i : Nat} {token : String} {now refreshed : UInt64}
    (run : (service lib sha host maxSessions).Run
      (fs ++ .perform i (validated token false) now refreshed :: gs) s)
    (orderly : Orderly maxSessions (fs ++ .perform i (validated token false) now refreshed :: gs))
    (known : token ∈ SessionHandler.issued (sessionHistory maxSessions fs)) :
    (∀ ms j b now' refreshed' ns,
      gs = ms ++ .perform j (validated token b) now' refreshed' :: ns → b = false) ∧
    ∀ (j : Nat) (request : HttpRequest) (response : HttpResponse),
      (∀ b now' refreshed', .perform j (validated token b) now' refreshed' ∉ fs) →
      s.inFlight[j]? = some ⟨request, .done (.ok response)⟩ → request.AsksJanus →
      request.authorization = some token →
        response = Router.badRequest request ∧ pastOf j (history lib sha host maxSessions
          (fs ++ .perform i (validated token false) now refreshed :: gs)) =
            [validated token false] := by
  obtain ⟨w, earlier, -⟩ := Machine.run_append.1 run
  obtain ⟨l, alive⟩ := SessionHandler.lifeOf_of_issued (sessions_of_run earlier) known
  have checks : ∀ ms j b now' refreshed' ns,
      gs = ms ++ .perform j (validated token b) now' refreshed' :: ns → b = false := by
    rintro ms j b now' refreshed' ns rfl
    rw [← List.cons_append, ← List.append_assoc] at run orderly
    obtain ⟨v, middle, -⟩ := Machine.run_append.1 run
    have before := orderly.earlier middle
    obtain ⟨expired, same⟩ := stays_refused middle before alive
    refine Bool.eq_false_iff.2 fun yes => ?_
    obtain ⟨owner, life, found, live⟩ := (validated_iff run orderly).1 yes
    obtain rfl := Option.some.inj (same.symm.trans found)
    have later : now ≤ now' := by
      rw [List.append_assoc] at orderly
      refine orderly.after (.validateSession token now' refreshed') ?_ now' (by
        simp [SessionHandler.Op.readings])
      simp [sessionOps, storeOperation, validated]
    have le := UInt64.le_iff_toNat_le.1 later
    dsimp only at expired
    omega
  refine ⟨checks, fun j request response unchecked found endpoint header => ?_⟩
  obtain ⟨fs', gs', now', refreshed', b, split, refused⟩ := checked_of_run run found endpoint header
  have no : b = false := by
    rcases List.append_eq_append_iff.1 split with ⟨ms, later, rest⟩ | ⟨ms, before, rest⟩
    · cases ms with
      | nil =>
        -- it is this very check
        have same := (List.cons.inj (rest.trans (List.nil_append _))).1
        injection same with _ event
        exact (validated_inj event).2.symm
      | cons x ms =>
        obtain ⟨rfl, mem⟩ := List.cons.inj rest
        exact checks ms j b now' refreshed' gs' mem
    · cases ms with
      | nil =>
        have same := (List.cons.inj ((List.nil_append _).symm.trans rest.symm)).1
        injection same with _ event
        exact (validated_inj event).2.symm
      | cons x ms =>
        obtain ⟨rfl, -⟩ := List.cons.inj rest
        exact absurd (by simp [before]) (unchecked b now' refreshed')
  exact (refused no).symm

/-- Two requests arrive, and both are checked five minutes later. -/
def bothLate : List ServiceEvent :=
  [.arrive ⟨"/create", 11, some "a1", ""⟩, .arrive ⟨"/create", 11, some "a1", ""⟩,
    .perform 1 (validated "a1" false) 301000 301000, .perform 2 (validated "a1" false) 301500 301500]

theorem refused_for_good_bothLate :
    ∃ s, (service loginLib constantSha "janus" 10).Run (loginAt ++ bothLate) s ∧
      pastOf 2 (history loginLib constantSha "janus" 10 (loginAt ++ bothLate)) =
        [validated "a1" false] := by
  obtain ⟨s, run, found⟩ : ∃ s,
      (service loginLib constantSha "janus" 10).Run (loginAt ++ bothLate) s ∧
      s.inFlight[2]? = some ⟨⟨"/create", 11, some "a1", ""⟩,
        .done (.ok (Router.badRequest ⟨"/create", 11, some "a1", ""⟩))⟩ := ⟨_, rfl, rfl⟩
  have run' : (service loginLib constantSha "janus" 10).Run (loginAt ++ bothLate.take 2 ++
      ServiceEvent.perform 1 (validated "a1" false) 301000 301000 :: bothLate.drop 3) s := run
  obtain ⟨-, answered⟩ := refused_for_good run' ⟨by decide, by decide⟩ (by decide)
  have unchecked : ∀ b now' refreshed', ServiceEvent.perform 2 (validated "a1" b) now' refreshed' ∉
      loginAt ++ bothLate.take 2 := by
    simp [loginAt, bothLate]
  exact ⟨s, run, (answered 2 _ _ unchecked found (Or.inl rfl) rfl).2⟩

end Service

end Lynks
