import Lynks.Network.Server

/-!
# The order of responses

What is written on a connection is a prefix of the responses its coroutines ended with, in the
order they ended (`produced_eq_completed`), and all of them while the connection stays open
(`drain`). So the responses answer the requests in order exactly when the coroutines of the
connection end in order, each with a response (`responses_in_order`). Nothing makes them
(`pipelined_overtaken`).
-/

namespace Lynks
set_option autoImplicit false

open Lib

namespace Server

/-- The posted responses for a connection. -/
def postedTo (s : Server) (client : Nat) : List Answer :=
  s.posted.filterMap fun p => if p.1 = client then some p.2 else none

/-- The responses to a connection's requests so far: written, queued or posted. -/
def produced (s : Server) (client : Nat) : List Answer :=
  (s.connections[client]?.elim [] Connection.given) ++ s.postedTo client

/-- The response a step produces for a connection. -/
def completed (client : Nat) (s : Server) : ServerEvent → List Answer
  | .finish i (some r) =>
    match s.coroutines[i]? with
    | some ⟨owned, false⟩ => if owned.client = client then [⟨owned.number, r⟩] else []
    | _ => []
  | _ => []

/-- The k-th response answers the k-th request. -/
def Numbered (answers : List Answer) : Prop :=
  ∀ (k : Nat) (a : Answer), answers[k]? = some a → a.number = k

/-- The k-th response written on the connection answers the k-th request read from it. -/
def InOrder (client : Nat) (s : Server) : Prop :=
  ∀ c, s.connections[client]? = some c → Numbered c.written

/-- The step does not end a coroutine of the connection with a response unless all earlier
requests of the connection have theirs. -/
def finishesInOrder (client : Nat) (s : Server) : ServerEvent → Bool
  | .finish i (some _) =>
    s.coroutines[i]?.all fun co =>
      co.finished || co.owned.client ≠ client || co.owned.number = (s.produced client).length
  | _ => true

variable {s t : Server} {client : Nat}

/-! ## What is produced -/

/-- A change of one connection that keeps what it has been given. -/
theorem produced_set {c d : Connection} {i : Nat} (found : s.connections[i]? = some c)
    (same : d.given = c.given) (client : Nat) :
    produced { s with connections := s.connections.set i d } client = s.produced client := by
  have len : i < s.connections.length := (List.getElem?_eq_some_iff.1 found).1
  unfold produced postedTo
  by_cases hit : i = client
  · subst hit
    simp [List.getElem?_set_self len, found, same]
  · simp [List.getElem?_set_ne hit]

theorem produced_accept (client : Nat) : s.accept.produced client = s.produced client := by
  unfold produced postedTo accept
  rcases Nat.lt_trichotomy client s.connections.length with less | same | more
  · simp [List.getElem?_append_left less]
  · simp [same, Connection.accepted, Connection.connectToClient, Connection.readRequest,
      Connection.given]
  · have beyond : (s.connections ++ [Connection.accepted.connectToClient]).length ≤ client := by
      rw [List.length_append]
      exact more
    simp [List.getElem?_eq_none beyond, List.getElem?_eq_none (Nat.le_of_lt more)]

theorem produced_runPosted (taken : s.runPosted = some t) (client : Nat) :
    t.produced client = s.produced client := by
  obtain ⟨target, a, rest, c, queue, found, rfl⟩ := runPosted_cases taken
  have len : target < s.connections.length := (List.getElem?_eq_some_iff.1 found).1
  unfold produced postedTo
  by_cases hit : target = client
  · subst hit
    simp [List.getElem?_set_self len, found, queue]
  · simp [List.getElem?_set_ne hit, queue, hit]

theorem produced_finish {i : Nat} {response : Option HttpResponse}
    (taken : s.finish i response = some t) (client : Nat) :
    t.produced client = s.produced client ++ completed client s (.finish i response) := by
  obtain ⟨owned, running, rfl⟩ := finish_cases taken
  cases response with
  | none => simp [produced, postedTo, completed]
  | some r =>
    by_cases hit : owned.client = client
    · simp [produced, postedTo, completed, running, hit]
    · simp [produced, postedTo, completed, running, hit]

/-- **A step produces what the coroutine it ends returns, and nothing is lost or reordered.** -/
theorem produced_step {e : ServerEvent} (taken : s.step e = some t) (client : Nat) :
    t.produced client = s.produced client ++ completed client s e := by
  have unchanged : completed client s e = [] → t.produced client = s.produced client →
      t.produced client = s.produced client ++ completed client s e := by
    intro nothing same
    rw [nothing, List.append_nil, same]
  cases e with
  | accept =>
    obtain rfl := Option.some.inj taken
    exact unchanged rfl (produced_accept client)
  | read target request =>
    obtain ⟨c, found, -, rfl⟩ := read_cases taken
    exact unchanged rfl (produced_set (d := c.addToIncomingRequests) found rfl client)
  | readFail target =>
    obtain ⟨c, found, -, rfl⟩ := readFail_cases taken
    exact unchanged rfl (produced_set (d := c.readFailed) found rfl client)
  | update =>
    obtain ⟨owned, rest, queue, rfl⟩ := update_cases taken
    apply unchanged rfl
    rcases onRequest_cases (s := { s with requests := rest }) owned with spawned | ⟨clients, gone⟩
    · rw [spawned]
      rfl
    · rw [gone]
      rfl
  | finish i response => exact produced_finish taken client
  | runPosted => exact unchanged rfl (produced_runPosted taken client)
  | writeDone target =>
    obtain ⟨c, found, -, rfl⟩ := writeDone_cases taken
    exact unchanged rfl (produced_set found Connection.given_writeDone client)
  | writeFail target =>
    obtain ⟨c, found, -, rfl⟩ := writeFail_cases taken
    exact unchanged rfl (produced_set (d := c.writeFailed) found rfl client)

/-- The responses of a connection, in the order its coroutines ended. -/
theorem produced_eq_completed {es : List ServerEvent} (run : server.Run es s) (client : Nat) :
    s.produced client = server.log (completed client) es := by
  refine Machine.Run.induct (M := server) (I := fun es s =>
    s.produced client = server.log (completed client) es) ?_ ?_ run
  · simp [server, produced, postedTo]
  · intro es s e t run ih taken
    rw [Machine.log_snoc run, ← ih, produced_step taken]

/-! ## In order -/

theorem numbered_append {before after : List Answer} (numbered : Numbered (before ++ after)) :
    Numbered before := by
  intro k a found
  apply numbered k a
  have inside : k < before.length := (List.getElem?_eq_some_iff.1 found).1
  rw [List.getElem?_append_left inside]
  exact found

theorem numbered_snoc {answers : List Answer} {a : Answer} :
    Numbered (answers ++ [a]) ↔ Numbered answers ∧ a.number = answers.length := by
  constructor
  · intro numbered
    exact ⟨numbered_append numbered, numbered answers.length a (by simp)⟩
  · rintro ⟨numbered, next⟩ k b found
    rw [List.getElem?_append] at found
    split at found
    · exact numbered k b found
    · rename_i beyond
      obtain ⟨here, same⟩ := List.getElem?_eq_some_iff.1 found
      have last : k = answers.length := by
        rw [List.length_singleton] at here
        omega
      subst last
      simp only [Nat.sub_self, List.getElem_cons_zero] at same
      rw [← same]
      exact next

/-- What a step produces keeps the responses in order exactly when the guard admits the step. -/
theorem numbered_step {e : ServerEvent} (taken : s.step e = some t) :
    Numbered (t.produced client) ↔
      Numbered (s.produced client) ∧ finishesInOrder client s e = true := by
  rw [produced_step taken]
  have silent : completed client s e = [] → finishesInOrder client s e = true →
      (Numbered (s.produced client ++ completed client s e) ↔
        Numbered (s.produced client) ∧ finishesInOrder client s e = true) := by
    intro nothing free
    simp [nothing, free]
  cases e with
  | finish i response =>
    cases response with
    | none => exact silent rfl rfl
    | some r =>
      obtain ⟨owned, running, -⟩ := finish_cases taken
      by_cases mine : owned.client = client
      · have answered : completed client s (.finish i (some r)) = [⟨owned.number, r⟩] := by
          simp [completed, running, mine]
        rw [answered, numbered_snoc]
        simp [finishesInOrder, running, mine]
      · apply silent
        · simp [completed, running, mine]
        · simp [finishesInOrder, running, mine]
  | _ => exact silent rfl rfl

/-- The responses produced for a connection are in order exactly when its coroutines ended in
order. -/
theorem numbered_iff_guarded {es : List ServerEvent} (run : server.Run es s) (client : Nat) :
    Numbered (s.produced client) ↔
      server.Guarded (fun s e => finishesInOrder client s e = true) es := by
  refine Machine.Run.induct (M := server) (I := fun es s => Numbered (s.produced client) ↔
    server.Guarded (fun s e => finishesInOrder client s e = true) es) ?_ ?_ run
  · simp [Machine.guarded_nil, server, produced, postedTo, Numbered]
  · intro es s e t run ih taken
    rw [numbered_step taken, Machine.guarded_snoc, ih]
    refine and_congr_right fun _ => ⟨fun free s' run' => run.unique run' ▸ free, fun free => ?_⟩
    exact free s run

/-- What is written is the first part of what is produced. -/
theorem produced_eq_written_append {c : Connection} (found : s.connections[client]? = some c) :
    s.produced client = c.written ++ (c.responses ++ s.postedTo client) := by
  simp [produced, found, Connection.given]

theorem inOrder_of_numbered (numbered : Numbered (s.produced client)) : InOrder client s := by
  intro c found
  rw [produced_eq_written_append found] at numbered
  exact numbered_append numbered

/-! ## What is produced gets written -/

/-- Every write that is due is outstanding, and every client named has a connection. -/
structure Sound (s : Server) : Prop where
  writes : ∀ c ∈ s.connections, c.Writes
  asked : ∀ owned ∈ s.requests, owned.client < s.connections.length
  spawned : ∀ co ∈ s.coroutines, co.owned.client < s.connections.length
  answered : ∀ p ∈ s.posted, p.1 < s.connections.length

/-- A handler leaves one connection with its writes in order. -/
theorem Sound.set (sound : s.Sound) {i : Nat} {d : Connection} (writes : d.Writes) :
    Sound { s with connections := s.connections.set i d } where
  writes := forall_set sound.writes writes
  asked := by simpa using sound.asked
  spawned := by simpa using sound.spawned
  answered := by simpa using sound.answered

theorem Sound.accept (sound : s.Sound) : s.accept.Sound := by
  have more {n : Nat} (less : n < s.connections.length) :
      n < (s.connections ++ [Connection.accepted.connectToClient]).length := by
    rw [List.length_append]
    exact Nat.lt_add_right _ less
  constructor
  · exact forall_append sound.writes Connection.Writes.accepted
  · exact fun owned mem => more (sound.asked owned mem)
  · exact fun co mem => more (sound.spawned co mem)
  · exact fun p mem => more (sound.answered p mem)

theorem Sound.runPosted (sound : s.Sound) (taken : s.runPosted = some t) : t.Sound := by
  obtain ⟨client, a, rest, c, queue, found, rfl⟩ := runPosted_cases taken
  have fewer : Sound { s with posted := rest } :=
    { sound with answered := fun p mem => sound.answered p (queue ▸ List.mem_cons_of_mem _ mem) }
  apply fewer.set
  exact (sound.writes c (List.mem_of_getElem? found)).sendResponse a

theorem Sound.finish (sound : s.Sound) {i : Nat} {response : Option HttpResponse}
    (taken : s.finish i response = some t) : t.Sound := by
  obtain ⟨owned, running, rfl⟩ := finish_cases taken
  have known : owned.client < s.connections.length :=
    sound.spawned _ (List.mem_of_getElem? running)
  refine { sound with spawned := forall_set sound.spawned known, answered := ?_ }
  cases response with
  | none => simpa using sound.answered
  | some r => exact forall_append sound.answered known

theorem Sound.update (sound : s.Sound) (taken : s.updateOne = some t) : t.Sound := by
  obtain ⟨owned, rest, queue, rfl⟩ := update_cases taken
  have fewer : Sound { s with requests := rest } :=
    { sound with asked := fun o mem => sound.asked o (queue ▸ List.mem_cons_of_mem _ mem) }
  rcases onRequest_cases (s := { s with requests := rest }) owned with spawned | ⟨clients, gone⟩
  · rw [spawned]
    have known : owned.client < s.connections.length := sound.asked owned (by simp [queue])
    exact { fewer with spawned := forall_append sound.spawned known }
  · rw [gone]
    exact { fewer with }

theorem Sound.step (sound : s.Sound) {e : ServerEvent} (taken : s.step e = some t) : t.Sound := by
  cases e with
  | accept =>
    obtain rfl := Option.some.inj taken
    exact sound.accept
  | read target request =>
    obtain ⟨c, found, -, rfl⟩ := read_cases taken
    have mem : c ∈ s.connections := List.mem_of_getElem? found
    have known : target < s.connections.length := (List.getElem?_eq_some_iff.1 found).1
    have written : Sound { s with
        connections := s.connections.set target c.addToIncomingRequests } :=
      sound.set (d := c.addToIncomingRequests) (sound.writes c mem)
    refine { written with asked := forall_append written.asked ?_ }
    rw [List.length_set]
    exact known
  | readFail target =>
    obtain ⟨c, found, -, rfl⟩ := readFail_cases taken
    exact sound.set fun isOpen => absurd isOpen (by simp [Connection.readFailed])
  | update => exact sound.update taken
  | finish i response => exact sound.finish taken
  | runPosted => exact sound.runPosted taken
  | writeDone target =>
    obtain ⟨c, found, -, rfl⟩ := writeDone_cases taken
    exact sound.set Connection.Writes.writeDone
  | writeFail target =>
    obtain ⟨c, found, -, rfl⟩ := writeFail_cases taken
    exact sound.set fun isOpen => absurd isOpen (by simp [Connection.writeFailed])

theorem sound {es : List ServerEvent} (run : server.Run es s) : s.Sound := by
  refine Machine.Run.invariant (M := server) ?_ (fun s e t sound taken => sound.step taken) run
  constructor <;> simp [server]

/-- The connection of the client, with its socket open. -/
def Open (client : Nat) (s : Server) : Prop :=
  ∃ c, s.connections[client]? = some c ∧ c.socketOpen = true

/-- The context only runs what is posted and the writes of the client. -/
def draining (client : Nat) (e : ServerEvent) : Prop := e = .runPosted ∨ e = .writeDone client

/-- The context runs everything that is posted. -/
theorem run_posted (sound : s.Sound) (isOpen : Open client s) :
    ∃ fs t, (∀ e ∈ fs, draining client e) ∧ server.exec s fs = some t ∧ t.posted = [] ∧
      t.Sound ∧ Open client t ∧ t.produced client = s.produced client := by
  induction queue : s.posted generalizing s with
  | nil => exact ⟨[], s, by simp, rfl, queue, sound, isOpen, rfl⟩
  | cons p rest ih =>
    obtain ⟨target, a⟩ := p
    obtain ⟨c, found⟩ : ∃ c, s.connections[target]? = some c :=
      ⟨_, List.getElem?_eq_getElem (sound.answered (target, a) (by simp [queue]))⟩
    let u : Server := { s with
      posted := rest, connections := s.connections.set target (c.sendResponse a) }
    have taken : s.runPosted = some u := by
      simp [runPosted, queue, onConnection, found, u]
    have stillOpen : Open client u := by
      obtain ⟨d, here, socketOpen⟩ := isOpen
      by_cases same : target = client
      · subst same
        obtain rfl := Option.some.inj (found.symm.trans here)
        have len : target < s.connections.length := (List.getElem?_eq_some_iff.1 found).1
        exact ⟨_, List.getElem?_set_self len, by simp [socketOpen]⟩
      · have kept : u.connections[client]? = some d := by
          rw [List.getElem?_set_ne same]
          exact here
        exact ⟨d, kept, socketOpen⟩
    obtain ⟨fs, t, allowed, run, empty, sound', openAfter, kept⟩ :=
      ih (sound.runPosted taken) stillOpen rfl
    refine ⟨.runPosted :: fs, t, ?_, ?_, empty, sound', openAfter, ?_⟩
    · rintro e (_ | ⟨_, mem⟩)
      · exact Or.inl rfl
      · exact allowed e mem
    · rw [Machine.exec, show server.step s .runPosted = some u from taken]
      exact run
    · rw [kept, produced_runPosted taken]

/-- The client's writes are all completed. -/
theorem complete_writes {c : Connection} (found : s.connections[client]? = some c)
    (writes : c.Writes) (socketOpen : c.socketOpen = true) :
    ∃ fs t d, (∀ e ∈ fs, draining client e) ∧ server.exec s fs = some t ∧
      t.connections[client]? = some d ∧ d.written = c.given := by
  induction queue : c.responses generalizing s c with
  | nil => exact ⟨[], s, c, by simp, rfl, found, by simp [Connection.given, queue]⟩
  | cons a rest ih =>
    let u : Server := { s with connections := s.connections.set client c.writeDone }
    have len : client < s.connections.length := (List.getElem?_eq_some_iff.1 found).1
    have writing : c.writing = .started true := by
      rw [writes socketOpen, queue]
      rfl
    have taken : server.step s (.writeDone client) = some u := by
      simp [server, step, onConnection, found, writing, u]
    have next : u.connections[client]? = some c.writeDone := List.getElem?_set_self len
    obtain ⟨fs, t, d, allowed, run, after, complete⟩ :=
      ih next Connection.Writes.writeDone (by simp [socketOpen])
        (Connection.responses_writeDone queue)
    refine ⟨.writeDone client :: fs, t, d, ?_, ?_, after, ?_⟩
    · rintro e (_ | ⟨_, mem⟩)
      · exact Or.inr rfl
      · exact allowed e mem
    · rw [Machine.exec, taken]
      exact run
    · rw [complete, Connection.given_writeDone]

/-- **On an open connection all that is produced can get written, with no other request or
coroutine moving.** -/
theorem drain (sound : s.Sound) (isOpen : Open client s) :
    ∃ fs t d, (∀ e ∈ fs, draining client e) ∧ server.exec s fs = some t ∧
      t.connections[client]? = some d ∧ d.written = s.produced client := by
  obtain ⟨fs, u, allowed, run, empty, sound', ⟨c, found, socketOpen⟩, kept⟩ :=
    run_posted sound isOpen
  have writes : c.Writes := sound'.writes c (List.mem_of_getElem? found)
  obtain ⟨gs, t, d, allowed', run', after, complete⟩ := complete_writes found writes socketOpen
  refine ⟨fs ++ gs, t, d, ?_, ?_, after, ?_⟩
  · intro e mem
    rcases List.mem_append.1 mem with first | last
    · exact allowed e first
    · exact allowed' e last
  · rw [Machine.exec_append, run]
    exact run'
  · have given : u.produced client = c.given := by
      simp [produced, found, postedTo, empty]
    rw [complete, ← kept, given]

/-- **Responses are in order while coroutines end in order, and only then.** A run whose
coroutines of the connection end in the order of its requests has their responses in order in
every state it passes through; from any other run that leaves the connection open, the writes
that are due put a response in another's place. -/
theorem responses_in_order {es : List ServerEvent} (run : server.Run es s) (client : Nat) :
    (server.Guarded (fun s e => finishesInOrder client s e = true) es →
        server.Always (InOrder client) es) ∧
      (Open client s → ¬ server.Guarded (fun s e => finishesInOrder client s e = true) es →
        ∃ fs t, (∀ e ∈ fs, draining client e) ∧ server.Run (es ++ fs) t ∧
          ¬ InOrder client t) := by
  constructor
  · intro guarded before u inside passed
    apply inOrder_of_numbered
    rw [numbered_iff_guarded passed]
    exact fun earlier e v inner => guarded earlier e v (inner.trans inside)
  · intro isOpen unguarded
    obtain ⟨fs, t, d, allowed, drained, after, complete⟩ := drain (sound run) isOpen
    refine ⟨fs, t, allowed, ?_, fun ordered => unguarded ?_⟩
    · rw [Machine.Run, Machine.exec_append, run]
      exact drained
    · rw [← numbered_iff_guarded run, ← complete]
      exact ordered d after

/-- A request whose coroutine waits for the database. -/
def listing : HttpRequest := ⟨"/list_participants", 11, some "a1", "\x7b\x7d"⟩

/-- A request whose coroutine never waits. -/
def stray : HttpRequest := ⟨"/", 11, none, ""⟩

/-- One connection with both requests read and spawned. -/
def pipelined : List ServerEvent := [.accept, .read 0 listing, .read 0 stray, .update, .update]

/-- Both responses run and written. -/
def written : List ServerEvent := [.runPosted, .writeDone 0, .runPosted, .writeDone 0]

/-- The run in which the coroutines end in the order of the requests. -/
def inTurn : List ServerEvent :=
  pipelined ++ [.finish 0 (some (Router.badRequest listing)),
    .finish 1 (some (Router.notFound stray))] ++ written

theorem responses_in_order_inTurn : server.Always (InOrder 0) inTurn := by
  have ran : ∃ t, server.Run inTurn t := ⟨_, rfl⟩
  obtain ⟨t, run⟩ := ran
  exact (responses_in_order run 0).1 (Machine.guarded_of_check (by decide))

/-- The run in which the second request's coroutine ends first. -/
def overtaking : List ServerEvent :=
  pipelined ++ [.finish 1 (some (Router.notFound stray)),
    .finish 0 (some (Router.badRequest listing))] ++ written

/-- The second request's response is written first. -/
theorem pipelined_overtaken :
    (∃ s, server.Run overtaking s ∧ s.connections[0]?.map Connection.written =
      some [⟨1, Router.notFound stray⟩, ⟨0, Router.badRequest listing⟩]) ∧
    ¬ ∀ client es s, server.Run es s → InOrder client s := by
  have overtaken : ∃ s, server.Run overtaking s ∧ s.connections[0]?.map Connection.written =
      some [⟨1, Router.notFound stray⟩, ⟨0, Router.badRequest listing⟩] := ⟨_, rfl, rfl⟩
  refine ⟨overtaken, fun ordered => ?_⟩
  obtain ⟨s, run, shown⟩ := overtaken
  obtain ⟨c, found, first⟩ := Option.map_eq_some_iff.1 shown
  have answers : (1 : Nat) = 0 :=
    ordered 0 overtaking s run c found 0 ⟨1, Router.notFound stray⟩ (by simp [first])
  cases answers

end Server

end Lynks
