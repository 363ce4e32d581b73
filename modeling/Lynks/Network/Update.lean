import Mathlib.Data.List.Basic
import Lynks.Network.Server

/-!
# `update` and its bound

One call of `update(max_requests, false)`. The loop compares `request_count` with the bound and
never changes it, so the bound is only ever read as "none" or "any number": `update_eq` gives
the requests passed to `on_request` and the queue left, and `update_bounded_iff` when these are
what the bound asks for.
-/

namespace Lynks
set_option autoImplicit false

open Lib

/-- What the other threads do before each round of the loop. None of them pushes a request. -/
structure Background where
  act : Nat → Server → Server
  noProducer : ∀ round s, (act round s).requests = s.requests

/-- Nothing else runs. -/
def Background.idle : Background := ⟨fun _ s => s, fun _ _ => rfl⟩

namespace Server

theorem onRequest_requests (s : Server) (owned : OwnedRequest) :
    (s.onRequest owned).requests = s.requests := by
  rcases onRequest_cases (s := s) owned with spawned | ⟨clients, gone⟩
  · rw [spawned]
  · rw [gone]

variable (bg : Background)

/-- The loop of `server_interface::update`: the requests passed to `on_request`, in order, and
the server left. -/
def updateLoop (maxRequests requestCount : UInt64) (round : Nat) (s : Server) :
    List OwnedRequest × Server :=
  let s' := bg.act round s
  if requestCount < maxRequests then
    match _ : s'.requests with
    | [] => ([], s')
    | owned :: rest =>
      let (handled, left) :=
        updateLoop maxRequests requestCount (round + 1)
          ({ s' with requests := rest }.onRequest owned)
      (owned :: handled, left)
  else ([], s')
termination_by s.requests.length
decreasing_by
  rename_i queue
  rw [onRequest_requests]
  change rest.length < s.requests.length
  rw [← bg.noProducer round s]
  change rest.length < s'.requests.length
  rw [queue]
  exact Nat.lt_succ_self _

/-- `server_interface::update(max_requests, false)`. -/
def update (maxRequests : UInt64) (s : Server) : List OwnedRequest × Server :=
  updateLoop bg maxRequests 0 0 s

variable {bg} {maxRequests : UInt64}

theorem updateLoop_done {requestCount : UInt64} (round : Nat) (s : Server)
    (full : ¬ requestCount < maxRequests) :
    updateLoop bg maxRequests requestCount round s = ([], bg.act round s) := by
  rw [updateLoop, if_neg full]

theorem updateLoop_nil {requestCount : UInt64} (round : Nat) {s : Server}
    (empty : s.requests = []) :
    updateLoop bg maxRequests requestCount round s = ([], bg.act round s) := by
  have still := bg.noProducer round s
  rw [empty] at still
  rw [updateLoop]
  split
  · split
    · rfl
    · rename_i owned rest pending
      rw [still] at pending
      cases pending
  · rfl

/-- A round takes the first request; the count is the one it began with. -/
theorem updateLoop_cons {requestCount : UInt64} (below : requestCount < maxRequests) (round : Nat)
    {s : Server} {owned : OwnedRequest} {rest : List OwnedRequest}
    (queue : s.requests = owned :: rest) :
    updateLoop bg maxRequests requestCount round s =
      let after := updateLoop bg maxRequests requestCount (round + 1)
        ({ bg.act round s with requests := rest }.onRequest owned)
      (owned :: after.1, after.2) := by
  have still := bg.noProducer round s
  rw [queue] at still
  rw [updateLoop, if_pos below]
  split
  · rename_i empty
    rw [still] at empty
    cases empty
  · rename_i first others pending
    rw [still] at pending
    obtain ⟨rfl, rfl⟩ := List.cons_eq_cons.1 pending
    rfl

/-- The count stays below the bound, so only an empty queue ends the loop. -/
theorem updateLoop_all {requestCount : UInt64} (below : requestCount < maxRequests) (round : Nat)
    (s : Server) : (updateLoop bg maxRequests requestCount round s).1 = s.requests ∧
      (updateLoop bg maxRequests requestCount round s).2.requests = [] := by
  induction queue : s.requests generalizing s round with
  | nil =>
    rw [updateLoop_nil round queue, bg.noProducer round s]
    exact ⟨rfl, queue⟩
  | cons owned rest ih =>
    have next := ih (round + 1) ({ bg.act round s with requests := rest }.onRequest owned)
      (onRequest_requests _ _)
    rw [updateLoop_cons below round queue]
    exact ⟨congrArg (List.cons owned) next.1, next.2⟩

/-- A bound of zero handles nothing, any other bound everything. -/
theorem update_eq (s : Server) :
    (update bg maxRequests s).1 = (if maxRequests = 0 then [] else s.requests) ∧
      (update bg maxRequests s).2.requests = (if maxRequests = 0 then s.requests else []) := by
  unfold update
  by_cases zero : maxRequests = 0
  · rw [if_pos zero, if_pos zero, updateLoop_done 0 s (by rw [zero]; exact UInt64.lt_irrefl 0)]
    exact ⟨rfl, bg.noProducer 0 s⟩
  · have below : 0 < maxRequests := by
      apply UInt64.pos_iff_ne_zero.2
      exact zero
    rw [if_neg zero, if_neg zero]
    exact updateLoop_all below 0 s

/-- The call handles the first `maxRequests` requests of the queue, and leaves the rest. -/
def Bounded (bg : Background) (maxRequests : UInt64) (s : Server) : Prop :=
  (update bg maxRequests s).1 = s.requests.take maxRequests.toNat ∧
    (update bg maxRequests s).2.requests = s.requests.drop maxRequests.toNat

/-- **Main result.** The bound is kept exactly when it is zero or the queue is no longer. -/
theorem update_bounded_iff (bg : Background) (maxRequests : UInt64) (s : Server) :
    Bounded bg maxRequests s ↔ maxRequests = 0 ∨ s.requests.length ≤ maxRequests.toNat := by
  obtain ⟨handled, left⟩ := @update_eq bg maxRequests s
  unfold Bounded
  rw [handled, left]
  by_cases zero : maxRequests = 0
  · simp [zero]
  · rw [if_neg zero, if_neg zero]
    constructor
    · rintro ⟨-, rest⟩
      exact Or.inr (List.drop_eq_nil_iff.1 rest.symm)
    · rintro (none | short)
      · exact absurd none zero
      · exact ⟨(List.take_of_length_le short).symm, (List.drop_eq_nil_of_le short).symm⟩

/-- Two requests are handled where one was asked for. -/
theorem update_one_of_two : ∃ s, server.Run
      [.accept, .read 0 ⟨"/", 11, none, ""⟩, .read 0 ⟨"/", 11, none, ""⟩] s ∧
    ¬ Bounded Background.idle 1 s := by
  have ran : ∃ s, server.Run
      [.accept, .read 0 ⟨"/", 11, none, ""⟩, .read 0 ⟨"/", 11, none, ""⟩] s ∧
        s.requests.length = 2 := ⟨_, rfl, rfl⟩
  obtain ⟨s, run, two⟩ := ran
  refine ⟨s, run, ?_⟩
  rintro ⟨-, rest⟩
  rw [(update_eq s).2, if_neg (by decide)] at rest
  have left := congrArg List.length rest
  rw [List.length_drop, two] at left
  cases left

/-- With nothing else running, a call is so many rounds of the machine. -/
theorem update_exec (maxRequests : UInt64) (s : Server) :
    server.exec s (List.replicate (update Background.idle maxRequests s).1.length .update) =
      some (update Background.idle maxRequests s).2 := by
  suffices loop : ∀ round, server.exec s (List.replicate
      (updateLoop Background.idle maxRequests 0 round s).1.length .update) =
        some (updateLoop Background.idle maxRequests 0 round s).2 from loop 0
  by_cases below : 0 < maxRequests
  · induction queue : s.requests generalizing s with
    | nil =>
      intro round
      rw [updateLoop_nil round queue]
      rfl
    | cons owned rest ih =>
      intro round
      have taken : s.updateOne = some ({ s with requests := rest }.onRequest owned) := by
        rw [updateOne, queue]
      have next := ih ({ s with requests := rest }.onRequest owned) (onRequest_requests _ _)
        (round + 1)
      rw [updateLoop_cons below round queue, List.length_cons, List.replicate_succ]
      exact (congrArg (Option.bind · _) taken).trans next
  · intro round
    rw [updateLoop_done round s below]
    rfl

end Server

end Lynks
