import Mathlib.Data.Finset.Card
import Lynks.Network.Credentials
import Lynks.Network.Transport

/-!
# Handlers on their sockets, in any interleaving

The service with every query and every message to Janus taken apart: other handlers go on between
a fetch and an execute, or between a write and a read. It refines the service
(`transport_refines_service`), so what is said of sessions, operations and replies there holds
here. What is new are the connections: those of the pool that are in use are those of the
handlers inside a query (`connections_returned`), and a handler writes to Janus once, on a socket
that it has opened itself and closes again (`sockets_closed`).
-/

namespace Lynks
set_option autoImplicit false

open Lib Janus Handler Transport

/-- `pool_params::max_size`, by default. -/
def maxPoolSize : Nat := 151

/-- The session store, how many connections of the pool are in use, and whether `start` has failed
and stopped the Janus context. -/
structure TransportState where
  store : SessionHandler
  borrowed : Nat
  stopped : Bool

/-- What happens behind the handlers' backs. -/
inductive TransportBackground where
  /-- a pass of the cleanup thread -/
  | cleanup (nows : List UInt64)
  /-- `janus::stop` -/
  | stop

namespace TransportState

/-- The state after an answer. The pool hands out a connection only if it has one. -/
def after (s : TransportState) (now refreshed : UInt64) : TransportEvent → Option TransportState
  | ⟨.direct o, a⟩ => (storeAfter s.store now refreshed ⟨o, a⟩).map fun store => { s with store }
  | ⟨.getConnection, true⟩ =>
    if s.borrowed < maxPoolSize then some { s with borrowed := s.borrowed + 1 } else none
  | ⟨.returnConnection, _⟩ => some { s with borrowed := s.borrowed - 1 }
  | _ => some s

/-- What waits for the Janus context is answered only while that runs. -/
def react (s : TransportState) (now refreshed : UInt64) (e : TransportEvent) :
    Option TransportState :=
  if s.stopped && e.1.awaitsContext then none else s.after now refreshed e

variable {s t : TransportState} {now refreshed : UInt64} {e : TransportEvent}

/-- An answer on a socket leaves the store alone. -/
theorem after_store (reacted : s.after now refreshed e = some t)
    (socket : e.1.onSocket = true) : t.store = s.store := by
  obtain ⟨o, a⟩ := e
  cases o with
  | direct o => cases socket
  | getConnection =>
    cases a with
    | true =>
      obtain ⟨-, same⟩ := Option.ite_none_right_eq_some.1 reacted
      obtain rfl := Option.some.inj same
      rfl
    | false =>
      obtain rfl := Option.some.inj reacted
      rfl
  | _ =>
    obtain rfl := Option.some.inj reacted
    rfl

theorem react_cases (reacted : s.react now refreshed e = some t) :
    s.after now refreshed e = some t ∧ (s.stopped && e.1.awaitsContext) = false := by
  obtain ⟨runs, answered⟩ := Option.ite_none_left_eq_some.1 reacted
  exact ⟨answered, by simpa using runs⟩

/-- No answer stops the context. -/
theorem after_stopped (reacted : s.after now refreshed e = some t) : t.stopped = s.stopped := by
  unfold after at reacted
  split at reacted
  · obtain ⟨store, -, rfl⟩ := Option.map_eq_some_iff.1 reacted
    rfl
  · obtain ⟨-, same⟩ := Option.ite_none_right_eq_some.1 reacted
    obtain rfl := Option.some.inj same
    rfl
  · obtain rfl := Option.some.inj reacted
    rfl
  · obtain rfl := Option.some.inj reacted
    rfl

/-- What an answer does to the pool. -/
theorem after_borrowed (reacted : s.after now refreshed e = some t) :
    (e = fetched true ∧ s.borrowed < maxPoolSize ∧ t.borrowed = s.borrowed + 1) ∨
      (e = givenBack ∧ t.borrowed = s.borrowed - 1) ∨
      (pooled e = none ∧ t.borrowed = s.borrowed) := by
  obtain ⟨o, a⟩ := e
  cases o with
  | direct o =>
    obtain ⟨store, -, rfl⟩ := Option.map_eq_some_iff.1 reacted
    exact Or.inr (Or.inr ⟨rfl, rfl⟩)
  | getConnection =>
    cases a with
    | true =>
      obtain ⟨room, same⟩ := Option.ite_none_right_eq_some.1 reacted
      obtain rfl := Option.some.inj same
      exact Or.inl ⟨rfl, room, rfl⟩
    | false =>
      obtain rfl := Option.some.inj reacted
      exact Or.inr (Or.inr ⟨rfl, rfl⟩)
  | returnConnection =>
    obtain rfl := Option.some.inj reacted
    exact Or.inr (Or.inl ⟨rfl, rfl⟩)
  | _ =>
    obtain rfl := Option.some.inj reacted
    exact Or.inr (Or.inr ⟨rfl, rfl⟩)

end TransportState

namespace Transport

section

variable (lib : Nlohmann) (sha : Sha256) (host : String) (port : UInt16) (maxSessions : UInt16)

/-- A call to `host` and `port`. -/
abbrev impl : (o : Op) → Transport o.Ans := call host (toString port.toNat)

/-- The handlers, with every call taken apart. -/
def coroutines : Coroutines TransportState HttpRequest (UInt64 × UInt64) TransportBackground
    TransportOp TransportOp.Ans Exception HttpResponse where
  init := ⟨.new maxSessions, 0, false⟩
  body request := (Router.handleRequest lib sha host request).expand (impl host port)
  react s readings event := s.react readings.1 readings.2 event
  background
    | s, .cleanup nows => (s.store.step (.cleanup nows)).map fun store => { s with store }
    | s, .stop => some { s with stopped := true }

end

/-- A step of the handlers on their sockets. -/
abbrev TransportStep : Type :=
  PoolEvent HttpRequest (UInt64 × UInt64) TransportBackground TransportOp TransportOp.Ans

/-- An operation performed in a run. -/
abbrev TransportEntry : Type :=
  Entry TransportState HttpRequest (UInt64 × UInt64) TransportOp TransportOp.Ans

variable {lib : Nlohmann} {sha : Sha256} {host : String} {port : UInt16} {maxSessions : UInt16}

/-! ## The service behind it -/

/-- Until its last answer a call has only been on sockets. -/
theorem Steps.on_sockets {host port : String} {o : Op} {seg : List TransportEvent}
    {o' : TransportOp} (step : Steps host port o seg o') : ∀ e ∈ seg, e.1.onSocket = true := by
  cases step <;>
    simp [TransportOp.onSocket, fetched, prepared, executed, resolved, connected, written, received]

/-- A call on sockets is on sockets to its end; another is one operation. -/
theorem Returned.cases {host port : String} {o : Op} {a : o.Ans} {seg : List TransportEvent}
    (returned : Returned host port o a seg) :
    seg = [ofDirect o a] ∨ o.isDirect = false ∧ ∀ e ∈ seg, e.1.onSocket = true := by
  cases o with
  | sendQuery sql param =>
    have queried : Queried sql param a seg := returned
    refine Or.inr ⟨rfl, ?_⟩
    cases queried <;> simp [TransportOp.onSocket, fetched, prepared, executed, givenBack]
  | sendTemporary request =>
    have exchanged : Exchanged host port request a seg := returned
    refine Or.inr ⟨rfl, ?_⟩
    cases exchanged <;> simp [TransportOp.onSocket, resolved, connected, written, received, closed]
  | _ => exact Or.inl returned

theorem refines : Refines (coroutines lib sha host port maxSessions)
    (Service.coroutines lib sha host maxSessions) (impl host port) TransportState.store where
  implements := call_implements
  init := rfl
  body _ := rfl
  silent s readings e t o seg o' k left reacted := by
    have allowed := Prog.after_allowed (call_wp o) left
    exact TransportState.after_store (TransportState.react_cases reacted).1 (Steps.on_sockets allowed e (by simp))
  returns s readings e t o seg a left answered := by
    obtain ⟨reacted, -⟩ := TransportState.react_cases answered
    obtain ⟨a', same, returned⟩ := Prog.after_ended (call_wp o) left
    obtain rfl := Outcome.ok.inj same
    refine ⟨readings, ?_⟩
    rcases Returned.cases returned with single | ⟨indirect, sockets⟩
    · obtain ⟨rfl, direct⟩ := List.append_eq_singleton_iff.1 single |>.resolve_right (by simp)
      obtain rfl := List.singleton_inj.1 direct
      obtain ⟨store, admitted, rfl⟩ := Option.map_eq_some_iff.1 reacted
      exact admitted
    · rw [TransportState.after_store reacted (sockets e (by simp))]
      cases o with
      | sendQuery sql param => rfl
      | sendTemporary request => rfl
      | _ => cases indirect
  background s b t passed := by
    cases b with
    | cleanup nows =>
      obtain ⟨store, kept, rfl⟩ := Option.map_eq_some_iff.1 passed
      exact Or.inr ⟨nows, kept⟩
    | stop =>
      obtain rfl := Option.some.inj passed
      exact Or.inl rfl

variable {es : List TransportStep}
  {s : Pool TransportState HttpRequest TransportOp TransportOp.Ans Exception HttpResponse}

/-- The run of the service behind a run down to the sockets. -/
theorem behind_of_run (run : (coroutines lib sha host port maxSessions).machine.Run es s) :
    ∃ fs p h, (service lib sha host maxSessions).Run fs (Service.ofPool p) ∧
      h.map Service.recordOf = Service.history lib sha host maxSessions fs ∧
      Matched (impl host port) TransportState.store
        ((coroutines lib sha host port maxSessions).history es) h s p := by
  obtain ⟨gs, p, run', matched⟩ := refines.simulates run
  obtain ⟨fs, served, same⟩ := Service.of_pool run'
  exact ⟨fs, p, _, served, same, matched⟩

/-- Where a handler of the service stands that is matched. -/
theorem matched_handler {fs : List ServiceEvent}
    {p : Pool SessionHandler HttpRequest Op Op.Ans Exception HttpResponse}
    {h' : List TransportEntry}
    {h : List (Entry SessionHandler HttpRequest (UInt64 × UInt64) Op Op.Ans)}
    (same : h.map Service.recordOf = Service.history lib sha host maxSessions fs)
    (matched : Matched (impl host port) TransportState.store h' h s p) {i : Nat}
    {task : Task HttpRequest TransportOp TransportOp.Ans Exception HttpResponse}
    (found : s.tasks[i]? = some task) :
    ∃ f, (Service.ofPool p).inFlight[i]? = some f ∧ f.request = task.request ∧
      Position (impl host port) (Coroutines.pastOf i h')
        (pastOf i (Service.history lib sha host maxSessions fs)) task.program f.program := by
  obtain ⟨task', here, request, position⟩ := matched.tasks i task found
  refine ⟨Service.ofTask task', by simp [Service.ofPool, here], request, ?_⟩
  rw [← same, Service.pastOf_map]
  exact position

/-- **The service refined.** However the fetches, statements, writes and reads of the handlers
interleave, the run is one of the service: with the same sessions, each handler in the same
place, and its past made of the calls of the handler there. -/
theorem transport_refines_service
    (run : (coroutines lib sha host port maxSessions).machine.Run es s) :
    ∃ fs t, (service lib sha host maxSessions).Run fs t ∧ t.store = s.shared.store ∧
      t.inFlight.length = s.tasks.length ∧ ∀ i task, s.tasks[i]? = some task →
        ∃ f, t.inFlight[i]? = some f ∧ f.request = task.request ∧
          Position (impl host port)
            (Coroutines.pastOf i ((coroutines lib sha host port maxSessions).history es))
            (pastOf i (Service.history lib sha host maxSessions fs)) task.program f.program := by
  obtain ⟨fs, p, h, served, same, matched⟩ := behind_of_run run
  exact ⟨fs, _, served, matched.shared, by simp [Service.ofPool, matched.length],
    fun i task found => matched_handler same matched found⟩

/-! ## What every handler keeps to -/

/-- Each operation is one of a call of the script. -/
abbrev Within (lib : Nlohmann) (sha : Sha256) (host : String) (port : UInt16)
    (request : HttpRequest) : List TransportEvent → TransportOp → Prop :=
  WithinCall (impl host port) (Script lib sha host request) (Steps host (toString port.toNat))

/-- Each end is one of the script, over calls that have all returned. -/
abbrev Over (lib : Nlohmann) (sha : Sha256) (host : String) (port : UInt16)
    (request : HttpRequest) : List TransportEvent → Outcome Exception HttpResponse → Prop :=
  OverCalls (impl host port) (Concludes lib sha request)

theorem handler_wp (request : HttpRequest) :
    ((coroutines lib sha host port maxSessions).body request).wp
      (Within lib sha host port request) (Over lib sha host port request) [] :=
  wp_expand call_wp call_implements .none (handleRequest_script request)

/-! ## Resources -/

theorem Calls.free {past' : List TransportEvent} {past : List Event}
    (calls : Calls (impl host port) past' past) :
    held pooled past' = false ∧ held socket past' = false := by
  induction calls with
  | none => exact ⟨rfl, rfl⟩
  | call earlier left free =>
    obtain ⟨a, -, returned⟩ := Prog.after_ended (call_wp _) left
    obtain ⟨connection, open'⟩ := Returned.free returned
    exact ⟨(held_append free.1 _).trans connection, (held_append free.2 _).trans open'⟩

/-- Within a call, what is held is held by the call. -/
theorem held_within {request : HttpRequest} {past : List TransportEvent} {o' : TransportOp}
    (within : Within lib sha host port request past o') :
    ∃ seg o, Steps host (toString port.toNat) o seg o' ∧
      held pooled past = held pooled seg ∧ held socket past = held socket seg := by
  obtain ⟨before, seg, _, o, rfl, calls, -, step⟩ := within
  exact ⟨seg, o, step, held_append (Calls.free calls).1 seg, held_append (Calls.free calls).2 seg⟩

/-- The handlers that have a connection of the pool. -/
def holders (h : List TransportEntry) : Finset Nat :=
  ((h.map (·.task)).toFinset).filter fun i => held pooled (Coroutines.pastOf i h) = true

theorem mem_holders {h : List TransportEntry} {i : Nat} :
    i ∈ holders h ↔ held pooled (Coroutines.pastOf i h) = true := by
  simp only [holders, Finset.mem_filter, List.mem_toFinset, and_iff_right_iff_imp]
  intro holds
  by_contra unheard
  have silent : Coroutines.pastOf i h = [] :=
    Coroutines.pastOf_eq_nil fun x mem same => unheard (List.mem_map.2 ⟨x, mem, same⟩)
  rw [silent] at holds
  cases holds

theorem mem_holders_snoc {h : List TransportEntry} {x : TransportEntry} {i : Nat} :
    i ∈ holders (h ++ [x]) ↔
      if i = x.task then (pooled x.event).getD (held pooled (Coroutines.pastOf i h)) = true
      else i ∈ holders h := by
  rw [mem_holders]
  split
  · rename_i same
    subst same
    rw [Coroutines.pastOf_snoc_self, held_snoc]
  · rename_i other
    rw [Coroutines.pastOf_snoc_other (Ne.symm other), mem_holders]

/-- One operation on the pool, and who holds its connections. -/
theorem borrowed_step {h : List TransportEntry} {x : TransportEntry} {t : TransportState}
    (count : x.shared.borrowed = (holders h).card)
    (within : Within lib sha host port x.request (Coroutines.pastOf x.task h) x.event.1)
    (reacted : x.shared.after x.hint.1 x.hint.2 x.event = some t) :
    t.borrowed = (holders (h ++ [x])).card := by
  obtain ⟨seg, o, step, holds, -⟩ := held_within within
  rcases TransportState.after_borrowed reacted with
    ⟨event, room, more⟩ | ⟨event, less⟩ | ⟨quiet, same⟩
  · -- a handler fetches before it has anything
    have free : x.task ∉ holders h := by
      rw [mem_holders, holds]
      rw [event] at step
      cases step
      decide
    have new : holders (h ++ [x]) = insert x.task (holders h) := by
      ext i
      rw [mem_holders_snoc, Finset.mem_insert, event]
      by_cases own : i = x.task <;> simp [own, pooled, fetched]
    rw [new, Finset.card_insert_of_notMem free, more, count]
  · -- and gives back what it has
    have holder : x.task ∈ holders h := by
      rw [mem_holders, holds]
      rw [event] at step
      cases step <;> rfl
    have new : holders (h ++ [x]) = (holders h).erase x.task := by
      ext i
      rw [mem_holders_snoc, Finset.mem_erase, event]
      by_cases own : i = x.task <;> simp [own, pooled, givenBack]
    rw [new, Finset.card_erase_of_mem holder, less, count]
  · have new : holders (h ++ [x]) = holders h := by
      ext i
      rw [mem_holders_snoc, quiet]
      by_cases own : i = x.task <;> simp [own, mem_holders]
    rw [new, same, count]

/-- What is in use of the pool, after every run. -/
theorem borrowed_of_run (run : (coroutines lib sha host port maxSessions).machine.Run es s) :
    s.shared.borrowed =
        (holders ((coroutines lib sha host port maxSessions).history es)).card ∧
      s.shared.borrowed ≤ maxPoolSize := by
  refine Coroutines.traced (C := coroutines lib sha host port maxSessions)
    (I := fun h shared => shared.borrowed = (holders h).card ∧ shared.borrowed ≤ maxPoolSize)
    handler_wp ⟨rfl, Nat.zero_le _⟩ ?_ ?_ run
  · rintro h x shared ⟨count, room⟩ within answered
    obtain ⟨reacted, -⟩ := TransportState.react_cases answered
    refine ⟨borrowed_step count within reacted, ?_⟩
    rcases TransportState.after_borrowed reacted with ⟨-, free, more⟩ | ⟨-, less⟩ | ⟨-, same⟩
    · omega
    · omega
    · omega
  · rintro h shared (nows | _) t bound passed
    · obtain ⟨store, -, rfl⟩ := Option.map_eq_some_iff.1 passed
      exact bound
    · obtain rfl := Option.some.inj passed
      exact bound

/-- A handler that has ended holds nothing. -/
theorem free_of_ended (run : (coroutines lib sha host port maxSessions).machine.Run es s) {i : Nat}
    {request : HttpRequest} {r : Outcome Exception HttpResponse}
    (ended : s.tasks[i]? = some ⟨request, .done r⟩) :
    held pooled (Coroutines.pastOf i ((coroutines lib sha host port maxSessions).history es)) =
        false ∧
      held socket (Coroutines.pastOf i ((coroutines lib sha host port maxSessions).history es)) =
        false := by
  obtain ⟨past, calls, -⟩ := (Coroutines.followed_of_run handler_wp run).within i _ ended
  exact Calls.free calls

/-- **No connection of the pool is lost.** Those in use are those of the handlers inside a query,
one each, never more than the pool has; a handler that has ended, with a reply or an exception,
has given its own back. -/
theorem connections_returned (run : (coroutines lib sha host port maxSessions).machine.Run es s) :
    s.shared.borrowed =
        (holders ((coroutines lib sha host port maxSessions).history es)).card ∧
      s.shared.borrowed ≤ maxPoolSize ∧ ∀ i request r, s.tasks[i]? = some ⟨request, .done r⟩ →
        i ∉ holders ((coroutines lib sha host port maxSessions).history es) := by
  obtain ⟨count, room⟩ := borrowed_of_run run
  refine ⟨count, room, fun i request r ended holds => ?_⟩
  have holds := mem_holders.1 holds
  rw [(free_of_ended run ended).1] at holds
  cases holds

/-! ## Messages -/

theorem Returned.toJanus {host port : String} {o : Op} {a : o.Ans} {seg : List TransportEvent}
    (returned : Returned host port o a seg) (other : o.kind ≠ .send) :
    ∀ e ∈ seg, e.1.toJanus = false := by
  cases o with
  | sendQuery sql param =>
    have queried : Queried sql param a seg := returned
    cases queried <;> simp [TransportOp.toJanus, fetched, prepared, executed, givenBack]
  | sendTemporary request => exact absurd rfl other
  | _ =>
    rw [show seg = _ from returned]
    simp [TransportOp.toJanus, ofDirect]

/-- Before a message is sent no call has been made to Janus. -/
theorem Calls.toJanus {past' : List TransportEvent} {past : List Event}
    (calls : Calls (impl host port) past' past) (unsent : ∀ e ∈ past, e.1.kind ≠ .send) :
    ∀ e ∈ past', e.1.toJanus = false := by
  induction calls with
  | none => simp
  | @call _ seg _ o a earlier left ih =>
    obtain ⟨a', -, returned⟩ := Prog.after_ended (call_wp _) left
    have before := ih fun e mem => unsent e (List.mem_append_left _ mem)
    have kind : o.kind ≠ .send := unsent ⟨o, a⟩ (by simp)
    intro e mem
    rcases List.mem_append.1 mem with old | new
    · exact before e old
    · exact Returned.toJanus returned kind e new

/-- **Every message is written once, on a socket of its own.** A write of any handler is the one
message its request asks for, on a socket that the handler has opened and not closed, and the
first of the handler; a read follows it there; and a handler that has ended has closed it. -/
theorem sockets_closed (run : (coroutines lib sha host port maxSessions).machine.Run es s) :
    (∀ before x after message,
      (coroutines lib sha host port maxSessions).history es = before ++ x :: after →
      x.event.1 = .write message →
        held socket (Coroutines.pastOf x.task before) = true ∧
        (∃ path, outgoing lib host x.request path = some message) ∧
        ∀ e ∈ Coroutines.pastOf x.task before, ∀ m, e.1 ≠ .write m) ∧
    (∀ before x after,
      (coroutines lib sha host port maxSessions).history es = before ++ x :: after →
      x.event.1 = .read → held socket (Coroutines.pastOf x.task before) = true ∧
        ∃ m, (Coroutines.pastOf x.task before).getLast? = some (written m true)) ∧
    ∀ i request r, s.tasks[i]? = some ⟨request, .done r⟩ → held socket
      (Coroutines.pastOf i ((coroutines lib sha host port maxSessions).history es)) = false := by
  refine ⟨?_, ?_, fun i request r ended => (free_of_ended run ended).2⟩
  · intro before x after message split event
    have within := Coroutines.allowed_of_run handler_wp run split
    obtain ⟨earlier, seg, past, o, whole, calls, script, step⟩ := within
    rw [event] at step
    rw [whole, held_append (Calls.free calls).2]
    cases step with
    | write =>
      refine ⟨rfl, ?_, ?_⟩
      · cases script with
        | send token username rows user path _ endpoint header resolves named => exact ⟨path, named⟩
      · intro e mem m same
        rcases List.mem_append.1 mem with old | new
        · have quiet := Calls.toJanus calls script.fresh e old
          rw [same] at quiet
          cases quiet
        · simp only [List.mem_cons, List.not_mem_nil, or_false] at new
          rcases new with rfl | rfl <;> cases same
  · intro before x after split event
    obtain ⟨earlier, seg, past, o, whole, calls, script, step⟩ :=
      Coroutines.allowed_of_run handler_wp run split
    rw [event] at step
    rw [whole, held_append (Calls.free calls).2]
    cases step with
    | read message => exact ⟨rfl, message, by simp⟩

/-! ## The whole conversation -/

/-- The last call of a past. -/
theorem Calls.last {past' : List TransportEvent} {past : List Event} {o : Op} {a : o.Ans}
    (calls : Calls (impl host port) past' (past ++ [⟨o, a⟩])) :
    ∃ before seg, past' = before ++ seg ∧ Calls (impl host port) before past ∧
      Returned host (toString port.toNat) o a seg := by
  generalize whole : past ++ [(⟨o, a⟩ : Event)] = all at calls
  cases calls with
  | none => simp at whole
  | @call before seg past₀ o' a' earlier left =>
    obtain ⟨rfl, last⟩ := List.append_inj' whole rfl
    obtain ⟨same⟩ := List.singleton_inj.1 last
    obtain ⟨a'', returns, returned⟩ := Prog.after_ended (call_wp _) left
    obtain rfl := Outcome.ok.inj returns
    exact ⟨before, seg, rfl, earlier, returned⟩

theorem Calls.eq_nil {past' : List TransportEvent} (calls : Calls (impl host port) past' []) :
    past' = [] := by
  generalize whole : ([] : List Event) = past at calls
  cases calls with
  | none => rfl
  | call earlier left => simp at whole

/-- What a handler has been answered when the gate is behind it. -/
def gateTransport (token username : String) (rows : List Row) : List TransportEvent :=
  [ofDirect (.validateSession token) true, ofDirect (.getUsernameByToken token) (some username),
    fetched true, prepared selectByUsername true, executed username (some rows), givenBack]

/-- The exchange with Janus. -/
def exchange (host : String) (port : UInt16) (message : JanusRequest) (body : String) :
    List TransportEvent :=
  [resolved host (toString port.toNat) true, connected true, written message true,
    received (some body), closed]

theorem Calls.exchanged {past' : List TransportEvent} {token username path : String}
    {rows : List Row} {message : JanusRequest} {body : String}
    (calls : Calls (impl host port) past'
      (gateEvents token username rows ++ [located path, sent message (some body)])) :
    past' = gateTransport token username rows ++ [ofDirect .getPath path] ++
      exchange host port message body := by
  have split : gateEvents token username rows ++ [located path, sent message (some body)] =
      ((([] ++ [validated token true]) ++ [owned token (some username)]) ++
        [queried selectByUsername username (some rows)] ++ [located path]) ++
        [sent message (some body)] := rfl
  rw [split] at calls
  obtain ⟨p₁, seg₁, rfl, calls₁, sending⟩ := Calls.last calls
  obtain ⟨p₂, seg₂, rfl, calls₂, locating⟩ := Calls.last calls₁
  obtain ⟨p₃, seg₃, rfl, calls₃, querying⟩ := Calls.last calls₂
  obtain ⟨p₄, seg₄, rfl, calls₄, owning⟩ := Calls.last calls₃
  obtain ⟨p₅, seg₅, rfl, calls₅, validating⟩ := Calls.last calls₄
  have exchanged : Exchanged host (toString port.toNat) message (some body) seg₁ := sending
  have rowsRead : Queried selectByUsername username (some rows) seg₃ := querying
  obtain rfl : seg₂ = _ := locating
  obtain rfl : seg₄ = _ := owning
  obtain rfl : seg₅ = _ := validating
  obtain rfl := Calls.eq_nil calls₅
  cases exchanged with
  | received =>
    cases rowsRead with
    | executed => rfl

/-- **The whole conversation of a served request.** Before a request on the video room is answered
with 200, its handler has validated the session, fetched a connection, read the owner's row and
given the connection back, and then resolved Janus, connected, written the message of the request,
read a body and closed the socket; nothing else, but for the event of an `ack`. -/
theorem served_over_sockets (run : (coroutines lib sha host port maxSessions).machine.Run es s)
    {i : Nat} {request : HttpRequest} {response : HttpResponse}
    (found : s.tasks[i]? = some ⟨request, .done (.ok response)⟩) (endpoint : request.AsksJanus)
    (accepted : response.result = .ok) :
    ∃ token username rows user path message body more,
      request.authorization = some token ∧ Resolves rows user ∧
      outgoing lib host request path = some message ∧
      Coroutines.pastOf i ((coroutines lib sha host port maxSessions).history es) =
        gateTransport token username rows ++ [ofDirect .getPath path] ++
          exchange host port message body ++ more ∧
      (more = [] ∨ ∃ tx event, more = [ofDirect (.waitForTransaction tx) (some event)]) := by
  obtain ⟨fs, t, h, served, history, matched⟩ := behind_of_run run
  obtain ⟨⟨request', p⟩, here, same, position⟩ := matched_handler history matched found
  obtain rfl : request' = request := same
  cases position with
  | ended r calls =>
    obtain ⟨message, got⟩ := Service.told_of_ok served here endpoint accepted
    rcases Service.told_cases got with ⟨past, out, body, last, -⟩ | ⟨past, tx, last⟩
    · obtain ⟨before, x, after, split, own, event, answered⟩ := Service.last_record last
      have script := Service.script_of_run served split
      have asked := Service.request_of_record served (x := x) (by simp [split]) (own ▸ here)
      rw [event, own, answered, asked] at script
      rw [last] at calls
      cases script with
      | send token username rows user path _ _ header resolves named =>
        refine ⟨token, username, rows, user, path, out, body, [], header, resolves, named, ?_,
          Or.inl rfl⟩
        rw [List.append_nil]
        rw [List.append_assoc] at calls
        exact Calls.exchanged calls
    · obtain ⟨before, x, after, split, own, event, answered⟩ := Service.last_record last
      have script := Service.script_of_run served split
      have asked := Service.request_of_record served (x := x) (by simp [split]) (own ▸ here)
      rw [event, own, answered, asked] at script
      rw [last] at calls
      cases script with
      | wait token username rows user path out body ack _ header resolves named =>
        obtain ⟨p₁, seg₁, whole, earlier, waiting⟩ := Calls.last calls
        obtain rfl : seg₁ = _ := waiting
        refine ⟨token, username, rows, user, path, out, body, _, header, resolves, named, ?_,
          Or.inr ⟨ack.transaction, message, rfl⟩⟩
        rw [whole, Calls.exchanged earlier]

/-! ## A run -/

open Service (ackLib constantSha aliceRow)

def alicesQuery : List TransportEvent :=
  [fetched true, prepared selectByUsername true, executed "alice" (some [aliceRow]), givenBack]

/-- The message that creates a room. -/
def createMessage : JanusRequest := RequestMapper.postRequest .createRoom "room" "janus" "/janus/1/2"

/-- Two clients log in. The first one is done and creates a meeting, up to the write to Janus,
while the query of the second is still waiting for its statement. -/
def transportRun : List TransportStep :=
  [.start ⟨"/login", 11, none, "login"⟩, .start ⟨"/login", 11, none, "login"⟩,
    .answer 1 (0, 0) (fetched true)] ++
  alicesQuery.map (.answer 0 (0, 0)) ++
  [.answer 0 (1000, 0) (ofDirect (.newSession "alice") (some "a1")),
    .start ⟨"/create", 11, some "a1", ""⟩,
    .answer 2 (2000, 2001) (ofDirect (.validateSession "a1") true),
    .answer 2 (2002, 0) (ofDirect (.getUsernameByToken "a1") (some "alice"))] ++
  alicesQuery.map (.answer 2 (0, 0)) ++
  [.answer 2 (0, 0) (ofDirect .getPath "/janus/1/2"),
    .answer 2 (0, 0) (resolved "janus" "8088" true), .answer 2 (0, 0) (connected true),
    .answer 2 (0, 0) (written createMessage true)]

/-- The same, to the end of the meeting's request. -/
def servedRun : List TransportStep :=
  transportRun ++ [.answer 2 (0, 0) (received (some "room")), .answer 2 (0, 0) closed]

theorem transport_refines_service_transportRun :
    ∃ fs t, (service ackLib constantSha "janus" 10).Run fs t ∧
      t.store.sessions.length = 1 ∧ t.inFlight.length = 3 := by
  obtain ⟨s, run, sessions, tasks⟩ : ∃ s,
      (coroutines ackLib constantSha "janus" 8088 10).machine.Run transportRun s ∧
      s.shared.store.sessions.length = 1 ∧ s.tasks.length = 3 := ⟨_, rfl, rfl, rfl⟩
  obtain ⟨fs, t, served, store, length, -⟩ := transport_refines_service run
  exact ⟨fs, t, served, store ▸ sessions, length.trans tasks⟩

theorem connections_returned_transportRun :
    ∃ s, (coroutines ackLib constantSha "janus" 8088 10).machine.Run transportRun s ∧
      (holders ((coroutines ackLib constantSha "janus" 8088 10).history transportRun)).card = 1 ∧
      0 ∉ holders ((coroutines ackLib constantSha "janus" 8088 10).history transportRun) := by
  obtain ⟨s, run, borrowed, ended⟩ : ∃ s,
      (coroutines ackLib constantSha "janus" 8088 10).machine.Run transportRun s ∧
      s.shared.borrowed = 1 ∧ s.tasks[0]? = some ⟨⟨"/login", 11, none, "login"⟩,
        .done (.ok (Router.succesfulRequest ⟨"/login", 11, none, "login"⟩ (loginReply "a1")))⟩ :=
    ⟨_, rfl, rfl, rfl⟩
  obtain ⟨count, -, returned⟩ := connections_returned run
  exact ⟨s, run, count.symm.trans borrowed, returned 0 _ _ ended⟩

theorem sockets_closed_transportRun :
    ∃ s, (coroutines ackLib constantSha "janus" 8088 10).machine.Run transportRun s ∧
      ∃ before x,
        (coroutines ackLib constantSha "janus" 8088 10).history transportRun = before ++ [x] ∧
        held socket (Coroutines.pastOf x.task before) = true := by
  obtain ⟨s, run⟩ : ∃ s,
      (coroutines ackLib constantSha "janus" 8088 10).machine.Run transportRun s := ⟨_, rfl⟩
  have entries : (coroutines ackLib constantSha "janus" 8088 10).history transportRun ≠ [] :=
    fun h => by cases h
  have split := (List.dropLast_append_getLast entries).symm
  exact ⟨s, run, _, _, split, ((sockets_closed run).1 _ _ [] createMessage split rfl).1⟩

theorem served_over_sockets_servedRun :
    ∃ s, (coroutines ackLib constantSha "janus" 8088 10).machine.Run servedRun s ∧
      ∃ token username rows path message body more,
        Coroutines.pastOf 2 ((coroutines ackLib constantSha "janus" 8088 10).history servedRun) =
          gateTransport token username rows ++ [ofDirect .getPath path] ++
            exchange "janus" 8088 message body ++ more := by
  obtain ⟨s, run, found⟩ : ∃ s,
      (coroutines ackLib constantSha "janus" 8088 10).machine.Run servedRun s ∧
      s.tasks[2]? = some ⟨⟨"/create", 11, some "a1", ""⟩,
        .done (.ok (Router.succesfulRequest ⟨"/create", 11, some "a1", ""⟩ "room"))⟩ :=
    ⟨_, rfl, rfl⟩
  obtain ⟨token, username, rows, -, path, message, body, more, -, -, -, past, -⟩ :=
    served_over_sockets run found (Or.inl rfl) rfl
  exact ⟨s, run, token, username, rows, path, message, body, more, past⟩

end Transport

end Lynks
