import Lynks.Network.ConnectionRuns
import Lynks.Network.Pipelining

/-!
# A client that has finished sending

A client may shut down its sending side after its last request and still read the responses.
The read loop is already waiting for the next request by then, and takes the `end_of_stream`
as the end of the connection: it closes the socket at once (`closes_at_end_of_stream`),
whatever is still being handled or written.
-/

namespace Lynks
set_option autoImplicit false

open Lib

/-- Every request read has its response written. -/
def Connection.allAnswered (c : Connection) : Bool :=
  (List.range c.requestsRead).all fun k => c.written.any fun a => a.number = k

namespace Connection

variable {c d : Connection} {e : ConnectionEvent}

/-- Once nothing more is read, an answered connection stays so. -/
theorem allAnswered_step (answered : c.allAnswered = true) (idle : c.reading = .idle)
    (taken : c.step e = some d) : d.allAnswered = true := by
  have other : e ≠ .read := by
    rintro rfl
    obtain ⟨started, -⟩ := Option.ite_none_right_eq_some.1 taken
    rw [idle] at started
    cases started
  have count : d.requestsRead = c.requestsRead := by
    rw [requestsRead_step taken, if_neg other, Nat.add_zero]
  have more : c.written <+: d.written := written_step taken
  simp only [allAnswered, List.all_eq_true, List.any_eq_true] at answered ⊢
  intro k inside
  rw [count] at inside
  obtain ⟨a, mem, number⟩ := answered k inside
  exact ⟨a, more.subset mem, number⟩

end Connection

namespace Server

/-- On the connection of the client no write fails while the socket is open: its reads fail by
`end_of_stream`, and nothing else does. -/
def onlyStreamEnds (client : Nat) (s : Server) : ServerEvent → Bool
  | .writeFail target => target ≠ client || !(s.view client).socketOpen
  | _ => true

/-- The end of the client's stream is read once all its requests are answered. -/
def endsAnswered (client : Nat) (s : Server) : ServerEvent → Bool
  | .readFail target => target ≠ client || (s.view client).allAnswered
  | _ => true

/-- The socket of the client's connection is closed only with all its requests answered. -/
def ClosedAnswered (client : Nat) (s : Server) : Prop :=
  (s.view client).socketOpen = false → (s.view client).allAnswered = true

variable {s t : Server} {client : Nat}

theorem touches_readFail {e : ServerEvent} :
    touches client s e = [.readFail] ↔ e = .readFail client := by
  refine ⟨fun touched => ?_, fun same => by simp [touches, same]⟩
  simpa using touches_cases touched

theorem touches_writeFail {e : ServerEvent} :
    touches client s e = [.writeFail] ↔ e = .writeFail client := by
  refine ⟨fun touched => ?_, fun same => by simp [touches, same]⟩
  simpa using touches_cases touched

/-- `end_of_stream` closes the socket and ends the read loop, and changes nothing else. -/
theorem view_readFail (taken : s.step (.readFail client) = some t) :
    t.view client = (s.view client).readFailed := by
  rcases view_cases taken client with ⟨untouched, -⟩ | ⟨ce, touched, moved⟩
  · simp [touches] at untouched
  · have handler : ce = .readFail := by simpa [touches] using touched.symm
    subst handler
    exact (Option.some.inj (Option.ite_none_left_eq_some.1 moved).2).symm

/-- While no write fails, reading the end of the stream is what closes the socket. -/
theorem closed_iff {e : ServerEvent} (only : onlyStreamEnds client s e = true)
    (taken : s.step e = some t) : (t.view client).socketOpen = false ↔
      (s.view client).socketOpen = false ∨ e = .readFail client := by
  rcases view_cases taken client with ⟨untouched, same⟩ | ⟨ce, touched, moved⟩
  · have other : e ≠ .readFail client := by
      intro ends
      rw [touches_readFail.2 ends] at untouched
      cases untouched
    rw [same]
    simp [other]
  · have ends : ce = .readFail ↔ e = .readFail client := by
      rw [← touches_readFail (s := s), touched, List.singleton_inj]
    have fails : ce = .writeFail → (s.view client).socketOpen = false := by
      rintro rfl
      have failed : e = .writeFail client := touches_writeFail.1 touched
      subst failed
      simpa [onlyStreamEnds] using only
    rw [Connection.closed_step moved, ends]
    constructor
    · rintro (closed | ended | failed)
      · exact Or.inl closed
      · exact Or.inr ended
      · exact Or.inl (fails failed)
    · rintro (closed | ended)
      · exact Or.inl closed
      · exact Or.inr (Or.inl ended)

/-- On a closed socket nothing more is read, and every request is answered. -/
def Settled (client : Nat) (s : Server) : Prop :=
  (s.view client).socketOpen = false →
    (s.view client).reading = .idle ∧ (s.view client).allAnswered = true

theorem Settled.step {e : ServerEvent} (settled : Settled client s)
    (only : onlyStreamEnds client s e = true) (ends : endsAnswered client s e = true)
    (taken : s.step e = some t) : Settled client t := by
  intro closed
  by_cases here : e = .readFail client
  · subst here
    have answered : (s.view client).allAnswered = true := by simpa [endsAnswered] using ends
    rw [view_readFail taken]
    exact ⟨rfl, answered⟩
  · obtain ⟨idle, answered⟩ := settled (((closed_iff only taken).1 closed).resolve_right here)
    rcases view_cases taken client with ⟨-, same⟩ | ⟨ce, touched, moved⟩
    · rw [same]
      exact ⟨idle, answered⟩
    · refine ⟨?_, Connection.allAnswered_step answered idle moved⟩
      rcases Connection.reading_step moved with ⟨-, started⟩ | ⟨-, ended⟩ | ⟨-, same⟩
      · rw [idle] at started
        cases started
      · exact ended
      · rw [same]
        exact idle

/-- A stream that ends with a request unanswered closes the socket on it. -/
theorem not_closedAnswered {e : ServerEvent} (early : ¬ endsAnswered client s e = true)
    (taken : s.step e = some t) : ¬ ClosedAnswered client t := by
  cases e with
  | readFail target =>
    obtain ⟨hit, missing⟩ : target = client ∧ (s.view client).allAnswered = false := by
      simpa [endsAnswered] using early
    subst hit
    unfold ClosedAnswered
    rw [view_readFail taken]
    intro answered
    rw [show (s.view target).allAnswered = true from answered rfl] at missing
    cases missing
  | _ => exact absurd rfl early

/-- **The socket is closed when the end of the stream is read, at once.** On a connection where
no write fails, the socket is closed exactly when `end_of_stream` has been read; so it is never
closed on an unanswered request exactly when `end_of_stream` is never read before the last
response is written. -/
theorem closes_at_end_of_stream {es : List ServerEvent} (run : server.Run es s) (client : Nat)
    (only : server.Guarded (fun s e => onlyStreamEnds client s e = true) es) :
    ((s.view client).socketOpen = false ↔ .readFail client ∈ es) ∧
      (server.Always (ClosedAnswered client) es ↔
        server.Guarded (fun s e => endsAnswered client s e = true) es) := by
  constructor
  · revert only
    refine Machine.Run.induct (M := server) (I := fun es s =>
      server.Guarded (fun s e => onlyStreamEnds client s e = true) es →
        ((s.view client).socketOpen = false ↔ .readFail client ∈ es)) ?_ ?_ run
    · intro _
      have isOpen : (server.init.view client).socketOpen = true := rfl
      simp [isOpen]
    · intro es s e t run ih taken only
      obtain ⟨earlier, now⟩ := Machine.guarded_snoc.1 only
      rw [closed_iff (now s run) taken, ih earlier]
      simp [eq_comm]
  · apply Machine.always_iff_guarded_assuming (I := Settled client) _ _ _ _ run only
    · intro closed
      cases closed
    · exact fun s e t settled only ends taken => settled.step only ends taken
    · exact fun s settled closed => (settled closed).2
    · exact fun s e t _ _ early taken => not_closedAnswered early taken

/-- A client that sends one request, reads the response and leaves. -/
def patient : List ServerEvent :=
  [.accept, .read 0 stray, .update, .finish 0 (some (Router.notFound stray)), .runPosted,
    .writeDone 0, .readFail 0]

theorem closes_at_end_of_stream_patient : server.Always (ClosedAnswered 0) patient := by
  have ran : ∃ s, server.Run patient s := ⟨_, rfl⟩
  obtain ⟨s, run⟩ := ran
  have only : server.Guarded (fun s e => onlyStreamEnds 0 s e = true) patient :=
    Machine.guarded_of_check (by decide)
  exact (closes_at_end_of_stream run 0 only).2.2 (Machine.guarded_of_check (by decide))

/-- A client that sends one request and shuts down its sending side. -/
def halfClosed : List ServerEvent := [.accept, .read 0 stray, .update, .readFail 0]

/-- The connection is closed while the request is being handled. -/
theorem closed_unanswered :
    (∃ s, server.Run halfClosed s ∧ (s.view 0).socketOpen = false ∧ (s.view 0).written = []) ∧
    ¬ ∀ client es, (∃ s, server.Run es s) →
      server.Guarded (fun s e => onlyStreamEnds client s e = true) es →
      server.Always (ClosedAnswered client) es := by
  have closed : ∃ s, server.Run halfClosed s ∧ (s.view 0).socketOpen = false ∧
      (s.view 0).allAnswered = false := ⟨_, rfl, rfl, rfl⟩
  refine ⟨⟨_, rfl, rfl, rfl⟩, fun answered => ?_⟩
  obtain ⟨s, run, shut, missing⟩ := closed
  have only : server.Guarded (fun s e => onlyStreamEnds 0 s e = true) halfClosed :=
    Machine.guarded_of_check (by decide)
  have always := (answered 0 halfClosed ⟨s, run⟩ only).final run shut
  rw [missing] at always
  cases always

end Server

end Lynks
