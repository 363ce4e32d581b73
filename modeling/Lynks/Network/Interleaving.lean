import Lynks.Network.Authorisation
import Lynks.Network.Script

/-!
# Handlers in any interleaving

`handlers_keep_to_script` carries the whole script to every run: what any handler asks for, what
it replies, and when it does not, with other requests, with the cleanup thread, and with whatever
the database and Janus answer. `no_operation_twice` counts what that costs Janus, the database and
the store.
-/

namespace Lynks
set_option autoImplicit false

open Lib Janus Handler

/-! ## No operation twice -/

/-- What an operation is, whatever it is about. -/
inductive OpKind where
  | query
  | issue
  | validate
  | own
  | locate
  | send
  | wait
  deriving DecidableEq, Repr

def Op.kind : Op → OpKind
  | .sendQuery _ _ => .query
  | .newSession _ => .issue
  | .validateSession _ => .validate
  | .getUsernameByToken _ => .own
  | .getPath => .locate
  | .sendTemporary _ => .send
  | .waitForTransaction _ => .wait

/-- The script asks for nothing it has asked for before. -/
theorem Script.fresh {lib : Nlohmann} {sha : Sha256} {host : String} {request : HttpRequest}
    {past : List Event} {o : Op} (script : Script lib sha host request past o) :
    ∀ e ∈ past, e.1.kind ≠ o.kind := by
  cases script <;>
    simp [gateEvents, validated, owned, queried, located, sent, Op.kind]

namespace Service

variable {lib : Nlohmann} {sha : Sha256} {host : String} {maxSessions : UInt16} {s : Service}

/-! ## The script, in any interleaving -/

theorem script_of_run {es : List ServiceEvent}
    (run : (service lib sha host maxSessions).Run es s) {before after : List Record} {x : Record}
    (split : history lib sha host maxSessions es = before ++ x :: after) :
    Script lib sha host x.request (pastOf x.handler before) x.event.1 :=
  allowed_of_run handleRequest_script run split

theorem concludes_of_run {es : List ServiceEvent}
    (run : (service lib sha host maxSessions).Run es s) {i : Nat} {request : HttpRequest}
    {r : Outcome Exception HttpResponse} (found : s.inFlight[i]? = some ⟨request, .done r⟩) :
    Concludes lib sha request (pastOf i (history lib sha host maxSessions es)) r :=
  ended_of_run handleRequest_script run found

/-- **Whatever else runs, every handler keeps to its script.** An operation comes after exactly
the answers the script asks for; a handler that has ended has replied with its verdict, unless
it met a NULL column at a login or a participant without `publisher`. -/
theorem handlers_keep_to_script {es : List ServiceEvent}
    (run : (service lib sha host maxSessions).Run es s) :
    (∀ before x after, history lib sha host maxSessions es = before ++ x :: after →
      Script lib sha host x.request (pastOf x.handler before) x.event.1) ∧
    ∀ (i : Nat) (request : HttpRequest) (r : Outcome Exception HttpResponse),
      s.inFlight[i]? = some ⟨request, .done r⟩ →
        Concludes lib sha request (pastOf i (history lib sha host maxSessions es)) r :=
  ⟨fun _ _ _ split => script_of_run run split, fun _ _ _ found => concludes_of_run run found⟩

theorem handlers_keep_to_script_meetingRun :
    ∃ s, (service loginLib constantSha "janus" 10).Run meetingRun s ∧
      ∃ before x, history loginLib constantSha "janus" 10 meetingRun = before ++ [x] ∧
        Script loginLib constantSha "janus" x.request (pastOf x.handler before) x.event.1 := by
  obtain ⟨s, run⟩ : ∃ s, (service loginLib constantSha "janus" 10).Run meetingRun s := ⟨_, rfl⟩
  have some_records : history loginLib constantSha "janus" 10 meetingRun ≠ [] := fun h => by cases h
  have split := (List.dropLast_append_getLast some_records).symm
  exact ⟨s, run, _, _, split, (handlers_keep_to_script run).1 _ _ [] split⟩

/-- The handler of a record is one of those started. -/
theorem handler_lt {es : List ServiceEvent} (run : (service lib sha host maxSessions).Run es s)
    {r : Record} (mem : r ∈ history lib sha host maxSessions es) :
    r.handler < s.inFlight.length := by
  obtain ⟨f, known, -⟩ := handler_of_record run mem
  exact (List.getElem?_eq_some_iff.1 known).1

/-- **No request is amplified.** A handler performs no kind of operation twice, so the messages
to Janus, the queries and the sessions opened never outnumber the requests that arrived. -/
theorem no_operation_twice {es : List ServiceEvent}
    (run : (service lib sha host maxSessions).Run es s) :
    ((history lib sha host maxSessions es).map fun r => (r.handler, r.event.1.kind)).Nodup ∧
      ∀ kind, (history lib sha host maxSessions es).countP (·.event.1.kind = kind) ≤
        s.inFlight.length := by
  have nodup : ((history lib sha host maxSessions es).map
      fun r => (r.handler, r.event.1.kind)).Nodup := by
    refine traced
      (I := fun h _ => (h.map fun r : Record => (r.handler, r.event.1.kind)).Nodup)
      handleRequest_script run List.nodup_nil ?_ (fun h _ _ _ nodup _ => nodup)
    intro h x refreshed store nodup script admitted
    rw [List.map_append, List.nodup_append]
    refine ⟨nodup, List.nodup_singleton _, ?_⟩
    intro key mem key' mem' same
    obtain ⟨r, old, rfl⟩ := List.mem_map.1 mem
    obtain rfl := List.mem_singleton.1 mem'
    obtain ⟨handler, kind⟩ := Prod.mk.inj same
    exact script.fresh r.event (mem_pastBy.2 ⟨r, old, handler, rfl⟩) kind
  refine ⟨nodup, fun kind => ?_⟩
  -- the handlers of one kind of operation are distinct numbers of started handlers
  have sub : ((history lib sha host maxSessions es).filter (·.event.1.kind = kind)).map
      (·.handler) ⊆ List.range s.inFlight.length := by
    intro i mem
    obtain ⟨r, inside, rfl⟩ := List.mem_map.1 mem
    exact List.mem_range.2 (handler_lt run (List.mem_filter.1 inside).1)
  have distinct : (((history lib sha host maxSessions es).filter
      (·.event.1.kind = kind)).map (·.handler)).Nodup := by
    have part := List.Nodup.of_map _ nodup |>.filter (·.event.1.kind = kind)
    refine (List.nodup_map_iff_inj_on part).2 ?_
    intro r mem r' mem' same
    obtain ⟨mem, is⟩ := List.mem_filter.1 mem
    obtain ⟨mem', is'⟩ := List.mem_filter.1 mem'
    apply List.inj_on_of_nodup_map nodup mem mem'
    rw [Prod.mk.injEq]
    exact ⟨same, (of_decide_eq_true is).trans (of_decide_eq_true is').symm⟩
  have bound := (List.subperm_of_subset distinct sub).length_le
  rw [List.length_map, List.length_range] at bound
  rw [List.countP_eq_length_filter]
  exact bound

theorem no_operation_twice_meetingRun :
    ∃ s, (service loginLib constantSha "janus" 10).Run meetingRun s ∧
      ((history loginLib constantSha "janus" 10 meetingRun).map
        fun r => (r.handler, r.event.1.kind)).Nodup := by
  obtain ⟨s, run⟩ : ∃ s, (service loginLib constantSha "janus" 10).Run meetingRun s := ⟨_, rfl⟩
  exact ⟨s, run, (no_operation_twice run).1⟩

end Service

end Lynks
