import Lynks.Network.Intake

/-!
# Clients that are gone

`on_request` drops its pointer to a client that is gone before it looks for the pointer in
`connected_clients`, so it compares with null and removes nothing: the list holds every
connection ever accepted (`connectedClients_eq`). `clients_removed_iff` has the runs in which
that does not show.
-/

namespace Lynks
set_option autoImplicit false

open Lib

namespace Server

/-- The connection of the client is there, with an open socket. -/
def connected (s : Server) (client : Nat) : Bool :=
  s.connections[client]?.any Connection.isConnected

/-- The client whose request a step handles, if it is gone. -/
def goneOf (s : Server) (e : ServerEvent) : List Nat :=
  ((handledOf s e).map OwnedRequest.client).filter fun client => !s.connected client

/-- A step that handles a request of a client that is gone removes exactly that client from
`connected_clients`, and keeps the others in order. -/
def RemovesGone (s : Server) (e : ServerEvent) : Prop :=
  ∀ t, s.step e = some t → ∀ client ∈ goneOf s e,
    t.connectedClients = s.connectedClients.filter (· ≠ client)

/-- No client reported as disconnected is still held. -/
def NoneHeld (s : Server) : Prop := ∀ client ∈ s.disconnected, client ∉ s.connectedClients

/-- The step handles no request of a client that is gone. -/
def handlesNoneGone (s : Server) (e : ServerEvent) : Bool := (goneOf s e).isEmpty

variable {s t : Server}

/-- No client is null. -/
theorem removeClient_none (clients : List Nat) : removeClient none clients = clients := by
  rw [removeClient, List.filter_eq_self]
  intro client _
  exact decide_eq_true (Option.some_ne_none client)

theorem onRequest_connected {owned : OwnedRequest} (present : s.connected owned.client = true) :
    s.onRequest owned = { s with coroutines := s.coroutines ++ [⟨owned, false⟩] } := by
  rw [onRequest]
  exact if_pos present

theorem onRequest_gone {owned : OwnedRequest} (gone : s.connected owned.client = false) :
    s.onRequest owned = { s with disconnected := s.disconnected ++ [owned.client] } := by
  have absent : ¬ s.connected owned.client = true := by rw [gone]; exact Bool.false_ne_true
  rw [onRequest, removeClient_none]
  exact if_neg absent

/-- Clients are held as they are accepted, and all that becomes of one that is gone is a
report. -/
theorem clients_cases {e : ServerEvent} (taken : s.step e = some t) :
    (e = .accept ∧ t.connectedClients = s.connectedClients ++ [s.connections.length] ∧
      t.connections.length = s.connections.length + 1 ∧ t.disconnected = s.disconnected) ∨
    (t.connectedClients = s.connectedClients ∧ t.connections.length = s.connections.length ∧
      t.disconnected = s.disconnected ++ goneOf s e) := by
  have still (quiet : goneOf s e = []) (clients : t.connectedClients = s.connectedClients)
      (size : t.connections.length = s.connections.length)
      (reported : t.disconnected = s.disconnected) :
      t.connectedClients = s.connectedClients ∧ t.connections.length = s.connections.length ∧
        t.disconnected = s.disconnected ++ goneOf s e :=
    ⟨clients, size, by rw [quiet, reported, List.append_nil]⟩
  cases e with
  | accept =>
    obtain rfl := Option.some.inj taken
    exact Or.inl ⟨rfl, rfl, List.length_append, rfl⟩
  | read client request =>
    obtain ⟨c, -, -, rfl⟩ := read_cases taken
    exact Or.inr (still rfl rfl List.length_set rfl)
  | update =>
    obtain ⟨owned, rest, queue, rfl⟩ := update_cases taken
    have handled : goneOf s .update = [owned.client].filter fun client => !s.connected client := by
      rw [goneOf, handledOf, queue]
      rfl
    refine Or.inr ?_
    cases present : s.connected owned.client with
    | true =>
      have nobody : goneOf s .update = [] := by simp [handled, present]
      rw [onRequest_connected (s := { s with requests := rest }) present, nobody]
      exact ⟨rfl, rfl, (List.append_nil _).symm⟩
    | false =>
      have gone : goneOf s .update = [owned.client] := by simp [handled, present]
      rw [onRequest_gone (s := { s with requests := rest }) present, gone]
      exact ⟨rfl, rfl, rfl⟩
  | readFail client =>
    obtain ⟨c, -, -, rfl⟩ := readFail_cases taken
    exact Or.inr (still rfl rfl List.length_set rfl)
  | finish i response =>
    obtain ⟨owned, -, rfl⟩ := finish_cases taken
    exact Or.inr (still rfl rfl rfl rfl)
  | runPosted =>
    obtain ⟨client, a, rest, c, -, -, rfl⟩ := runPosted_cases taken
    exact Or.inr (still rfl rfl List.length_set rfl)
  | writeDone client =>
    obtain ⟨c, -, -, rfl⟩ := writeDone_cases taken
    exact Or.inr (still rfl rfl List.length_set rfl)
  | writeFail client =>
    obtain ⟨c, -, -, rfl⟩ := writeFail_cases taken
    exact Or.inr (still rfl rfl List.length_set rfl)

/-- **Nothing is ever removed.** The server holds every connection it has accepted. -/
theorem connectedClients_eq {es : List ServerEvent} (run : server.Run es s) :
    s.connectedClients = List.range s.connections.length := by
  refine Machine.Run.invariant (M := server)
    (I := fun s => s.connectedClients = List.range s.connections.length) rfl ?_ run
  intro s e t held taken
  rcases clients_cases taken with ⟨-, clients, size, -⟩ | ⟨clients, size, -⟩
  · rw [clients, size, held, List.range_succ]
  · rw [clients, size, held]

/-- A client whose request is handled is still held, gone or not. -/
theorem gone_held {es : List ServerEvent} (run : server.Run es s) {e : ServerEvent} {client : Nat}
    (gone : client ∈ goneOf s e) : client ∈ s.connectedClients := by
  obtain ⟨owned, handled, rfl⟩ := List.mem_map.1 (List.mem_filter.1 gone).1
  have queued : owned ∈ s.requests := by
    cases e with
    | update => exact List.mem_of_mem_head? (Option.mem_toList.1 handled)
    | _ => cases handled
  rw [connectedClients_eq run, List.mem_range]
  exact (sound run).asked owned queued

theorem not_removesGone {es : List ServerEvent} (run : server.Run es s) {e : ServerEvent}
    {client : Nat} (gone : client ∈ goneOf s e) (taken : s.step e = some t) :
    ¬ RemovesGone s e := by
  intro removes
  have removed := removes t taken client gone
  have held : client ∈ t.connectedClients := by
    rcases clients_cases taken with ⟨-, clients, -⟩ | ⟨clients, -⟩
    · rw [clients]
      exact List.mem_append_left _ (gone_held run gone)
    · rw [clients]
      exact gone_held run gone
  rw [removed] at held
  simp at held

/-- **Main result.** Clients that are gone are removed, and none reported is still held, in
exactly the runs that handle no request of a client that is gone. -/
theorem clients_removed_iff {es : List ServerEvent} (run : server.Run es s) :
    server.Guarded RemovesGone es ∧ server.Always NoneHeld es ↔
      server.Guarded (fun s e => handlesNoneGone s e = true) es := by
  constructor
  · rintro ⟨removes, -⟩ before e u part run'
    obtain ⟨t, taken⟩ := run.step_of_prefix part run'
    refine List.isEmpty_iff.2 (List.eq_nil_iff_forall_not_mem.2 ?_)
    intro client gone
    exact not_removesGone run' gone taken (removes before e u part run')
  · intro noneGone
    constructor
    · intro before e u part run' t taken client gone
      rw [List.isEmpty_iff.1 (noneGone before e u part run')] at gone
      cases gone
    · -- as long as no request of a client that is gone is handled, nothing is reported
      refine Machine.always_of_guarded (I := fun s => s.disconnected = []) rfl ?_ ?_ noneGone
      · intro s e t none quiet taken
        rcases clients_cases taken with ⟨-, -, -, reported⟩ | ⟨-, -, reported⟩
        · rw [reported, none]
        · rw [reported, none, List.isEmpty_iff.1 quiet]
          rfl
      · intro s none client reported
        rw [none] at reported
        cases reported

/-- A client that sends a request and stays. -/
theorem clients_removed_staying :
    ∃ s, server.Run [.accept, .read 0 ⟨"/", 11, none, ""⟩, .update] s ∧
      server.Guarded RemovesGone [.accept, .read 0 ⟨"/", 11, none, ""⟩, .update] := by
  have ran : ∃ s, server.Run [.accept, .read 0 ⟨"/", 11, none, ""⟩, .update] s := ⟨_, rfl⟩
  obtain ⟨s, run⟩ := ran
  have check : server.checkGuarded handlesNoneGone server.init
      [.accept, .read 0 ⟨"/", 11, none, ""⟩, .update] = true := rfl
  exact ⟨s, run, ((clients_removed_iff run).2 (Machine.guarded_of_check check)).1⟩

/-- A client that sends a request and leaves is reported, and stays in the list. -/
theorem client_left_is_held : ∃ s,
    server.Run [.accept, .read 0 ⟨"/", 11, none, ""⟩, .readFail 0, .update] s ∧
      0 ∈ s.disconnected ∧ 0 ∈ s.connectedClients ∧
      ¬ server.Guarded RemovesGone
        [.accept, .read 0 ⟨"/", 11, none, ""⟩, .readFail 0, .update] := by
  have ran : ∃ s t, server.Run [.accept, .read 0 ⟨"/", 11, none, ""⟩, .readFail 0] s ∧
      s.step .update = some t ∧ t.disconnected = [0] ∧ t.connectedClients = [0] ∧
      goneOf s .update = [0] := ⟨_, _, rfl, rfl, rfl, rfl, rfl⟩
  obtain ⟨s, t, run, taken, reported, held, gone⟩ := ran
  refine ⟨t, run.snoc taken, by simp [reported], by simp [held], ?_⟩
  intro removes
  have last := removes _ .update s List.prefix_rfl run
  exact not_removesGone run (gone ▸ List.mem_singleton_self 0) taken last

end Server

end Lynks
