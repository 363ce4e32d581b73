import Mathlib.Data.List.Nodup
import Lynks.Lib.Machine
import Lynks.Lib.Lease
import Lynks.Network.SessionHandler

/-!
# Runs of the session store

Any interleaving of the store's operations and cleanup passes is a list of `Op`s, each
atomic under `mtx` and carrying the clock readings it takes. `lifeOf` reads off the history
alone who a token was issued to and when its life last started; the store itself forgets
sessions when a pass removes them. The two are related by `LeaseTable.Prunes`, which every
operation keeps (`Tracks.step`), so the store's answers are those of the history
(`answers_by_history`).
-/

namespace Lynks
set_option autoImplicit false

open Lib

namespace SessionHandler

/-- One operation on the store. -/
inductive Op where
  | newSession (username generated : String) (now : UInt64)
  | validateSession (token : String) (now refreshed : UInt64)
  | getUsernameByToken (token : String) (now : UInt64)
  | cleanup (nows : List UInt64)
  deriving DecidableEq, Repr

/-- What an operation returns to its caller. -/
inductive Answer where
  | token (issued : Option String)
  | valid (b : Bool)
  | username (owner : Option String)
  | cleaned
  deriving DecidableEq, Repr

/-- The clock readings of an operation, in the order it takes them. -/
def Op.readings : Op → List UInt64
  | newSession _ _ now => [now]
  | validateSession _ now refreshed => [now, refreshed]
  | getUsernameByToken _ now => [now]
  | cleanup nows => nows

/-- The effect of an operation. A pass takes one reading for each session it tests. -/
def step (s : SessionHandler) : Op → Option SessionHandler
  | .newSession username generated now => some (s.newSession username generated now).1
  | .validateSession token now refreshed => some (s.validateSession token now refreshed).1
  | .getUsernameByToken _ _ => some s
  | .cleanup nows => if nows.length = s.sessions.length then some (s.cleanupPass nows) else none

/-- The answer of an operation. -/
def answer (s : SessionHandler) : Op → Answer
  | .newSession username generated now => .token (s.newSession username generated now).2
  | .validateSession token now refreshed => .valid (s.validateSession token now refreshed).2
  | .getUsernameByToken token now => .username (s.getUsernameByToken token now)
  | .cleanup _ => .cleaned

/-- The store under any interleaving of its operations. -/
def machine (maxSessions : UInt16) : Machine SessionHandler Op :=
  { init := .new maxSessions, step := step }

/-- A pass, and when it may be one. -/
theorem cleanup_cases {s t : SessionHandler} {nows : List UInt64}
    (taken : s.step (.cleanup nows) = some t) :
    nows.length = s.sessions.length ∧ t = s.cleanupPass nows := by
  obtain ⟨all, passed⟩ := Option.ite_none_right_eq_some.1 taken
  exact ⟨all, (Option.some.inj passed).symm⟩

/-- Where the sessions stored after a step come from: stored before, issued or renewed. -/
theorem step_sessions {s t : SessionHandler} {op : Op} (taken : s.step op = some t) :
    ∀ u ∈ t.sessions, u ∈ s.sessions ∨
      (∃ username generated now, op = .newSession username generated now ∧
        u = .new username generated now ∧ s.answer op = .token (some generated)) ∨
      ∃ token now refreshed, op = .validateSession token now refreshed ∧
        ∃ v ∈ s.sessions, u = v.updateLife refreshed := by
  intro u mem
  cases op with
  | newSession username generated now =>
    obtain rfl := Option.some.inj taken
    by_cases room : s.sessions.length < s.maxSessions.toNat
    · simp only [newSession, room, dif_pos, List.mem_append, List.mem_singleton] at mem
      rcases mem with mem | rfl
      · exact Or.inl mem
      · refine Or.inr (Or.inl ⟨username, generated, now, rfl, rfl, ?_⟩)
        simp [SessionHandler.answer, newSession, room, SessionToken.new]
    · simp only [newSession, room, dif_neg, not_false_iff] at mem
      exact Or.inl mem
  | validateSession token now refreshed =>
    obtain rfl := Option.some.inj taken
    change u ∈ (findTokenIn token now refreshed s.sessions).1 at mem
    rcases findTokenIn_cases token now refreshed s.sessions with
      ⟨kept, -⟩ | ⟨before, v, after, split, -, -, -, renewed⟩
    · rw [kept] at mem
      exact Or.inl mem
    · rw [renewed, List.mem_append, List.mem_cons] at mem
      rcases mem with mem | same | mem
      · exact Or.inl (by simp [split, mem])
      · exact Or.inr (Or.inr ⟨token, now, refreshed, rfl, v, by simp [split], same⟩)
      · exact Or.inl (by simp [split, mem])
  | getUsernameByToken token now =>
    obtain rfl := Option.some.inj taken
    exact Or.inl mem
  | cleanup nows =>
    obtain ⟨-, rfl⟩ := cleanup_cases taken
    exact Or.inl ((removeInactive_sublist s.sessions nows).subset mem)

/-- A token is accepted only if it is stored and active. -/
theorem validateSession_active {s : SessionHandler} {token : String} {now refreshed : UInt64}
    (valid : (s.validateSession token now refreshed).2 = true) :
    ∃ t ∈ s.sessions, t.token = token ∧ t.isActive now = true := by
  change (findTokenIn token now refreshed s.sessions).2 = true at valid
  rcases findTokenIn_cases token now refreshed s.sessions with
    ⟨kept, -⟩ | ⟨before, t, after, split, -, hit, active, -⟩
  · rw [kept] at valid
    cases valid
  · exact ⟨t, by simp [split], hit, active⟩

/-- A token has an owner only if it is stored and active. -/
theorem getUsernameByToken_active {s : SessionHandler} {token owner : String} {now : UInt64}
    (answered : s.getUsernameByToken token now = some owner) :
    ∃ t ∈ s.sessions, t.token = token ∧ t.ownerIdentifier = owner ∧ t.isActive now = true := by
  unfold getUsernameByToken at answered
  split at answered
  · rename_i t found
    obtain ⟨active, same⟩ := Option.ite_none_right_eq_some.1 answered
    have hit : token = t.token := by simpa using List.find?_some found
    exact ⟨t, List.mem_of_find?_eq_some found, hit.symm, Option.some.inj same, active⟩
  · cases answered

/-- The operations of a run, each with its answer. -/
abbrev History := List (Op × Answer)

def history (maxSessions : UInt16) (ops : List Op) : History :=
  (machine maxSessions).log (fun s op => [(op, s.answer op)]) ops

/-- The tokens handed out, in order. -/
def issued (h : History) : List String :=
  h.filterMap fun
    | (_, .token (some token)) => some token
    | _ => none

/-- How one answered operation changes a token's owner and life. -/
def lifeStep (token : String) (life : Option (Lease String)) : Op × Answer → Option (Lease String)
  | (.newSession username _ now, .token (some t)) =>
    if t = token then some ⟨username, now.toNat⟩ else life
  | (.validateSession t _ refreshed, .valid true) =>
    if t = token then life.map fun l => { l with since := refreshed.toNat } else life
  | _ => life

/-- The owner a token was issued to and the reading its life started at: the one taken at its
issue, or at its last successful `validate_session`. -/
def lifeOf (token : String) (h : History) : Option (Lease String) :=
  h.foldl (lifeStep token) none

/-- The history without the cleanup passes. -/
def withoutCleanup (h : History) : History :=
  h.filter fun
    | (.cleanup _, _) => false
    | _ => true

theorem lifeOf_snoc (token : String) (h : History) (e : Op × Answer) :
    lifeOf token (h ++ [e]) = lifeStep token (lifeOf token h) e := by
  simp [lifeOf]

theorem lifeOf_withoutCleanup (token : String) (h : History) :
    lifeOf token (withoutCleanup h) = lifeOf token h := by
  induction h using List.reverseRecOn with
  | nil => rfl
  | append_singleton h e ih =>
    obtain ⟨op, a⟩ := e
    rw [lifeOf_snoc, ← ih]
    cases op <;> simp [withoutCleanup, lifeOf, lifeStep]

/-! ## The store as a table of leases -/

/-- The first session with a token, as a lease. -/
def tableOf (ts : List SessionToken) : LeaseTable String String := fun token =>
  (ts.find? fun t => token = t.token).map fun t => ⟨t.ownerIdentifier, t.lifeMs.toNat⟩

theorem tableOf_insert {before after : List SessionToken} {t : SessionToken}
    (first : ∀ u ∈ before, u.token ≠ t.token) :
    tableOf (before ++ t :: after) = Function.update (tableOf (before ++ after)) t.token
      (some ⟨t.ownerIdentifier, t.lifeMs.toNat⟩) := by
  funext token
  by_cases same : token = t.token
  · subst same
    have none : before.find? (fun u => t.token = u.token) = none := by
      simpa [List.find?_eq_none] using fun u h => Ne.symm (first u h)
    simp [tableOf, List.find?_append, none]
  · rw [Function.update_of_ne same]
    simp [tableOf, List.find?_append, same]

theorem tableOf_eq_some {ts : List SessionToken} (nodup : (ts.map (·.token)).Nodup)
    {token : String} {l : Lease String} : tableOf ts token = some l ↔
      ∃ t ∈ ts, t.token = token ∧ l = ⟨t.ownerIdentifier, t.lifeMs.toNat⟩ := by
  simp only [tableOf, Option.map_eq_some_iff]
  constructor
  · rintro ⟨t, found, rfl⟩
    have hit : token = t.token := by simpa using List.find?_some found
    exact ⟨t, List.mem_of_find?_eq_some found, hit.symm, rfl⟩
  · rintro ⟨t, mem, rfl, rfl⟩
    cases found : ts.find? fun u => t.token = u.token with
    | none =>
      have other := List.find?_eq_none.1 found t mem
      simp at other
    | some u =>
      have same : t.token = u.token := by simpa using List.find?_some found
      have mem' : u ∈ ts := List.mem_of_find?_eq_some found
      obtain rfl : t = u := List.inj_on_of_nodup_map nodup mem mem' same
      exact ⟨t, rfl, rfl⟩

/-- A session a pass drops was inactive at one of the pass's readings. -/
theorem removeInactive_dropped {ts : List SessionToken} {nows : List UInt64}
    (all : nows.length = ts.length) {t : SessionToken} (mem : t ∈ ts)
    (dropped : t ∉ removeInactive ts nows) : ∃ now ∈ nows, t.isActive now = false := by
  induction ts generalizing nows with
  | nil => cases mem
  | cons u ts ih =>
    cases nows with
    | nil => cases all
    | cons now nows =>
      have rest : nows.length = ts.length := by simpa using all
      cases active : u.isActive now with
      | true =>
        simp only [removeInactive, active, if_true, List.mem_cons, not_or] at dropped
        obtain ⟨other, dropped⟩ := dropped
        obtain ⟨r, hr, inactive⟩ := ih rest ((List.mem_cons.1 mem).resolve_left other) dropped
        exact ⟨r, List.mem_cons_of_mem _ hr, inactive⟩
      | false =>
        rcases List.mem_cons.1 mem with rfl | mem
        · exact ⟨now, List.mem_cons_self, active⟩
        · simp only [removeInactive, active, Bool.false_eq_true, if_false] at dropped
          obtain ⟨r, hr, inactive⟩ := ih rest mem dropped
          exact ⟨r, List.mem_cons_of_mem _ hr, inactive⟩

/-! ## Answers are lookups -/

theorem getUsernameByToken_eq_lookup {s : SessionHandler} {token : String} {now : UInt64}
    (lives : ∀ t ∈ s.sessions, t.lifeMs.toNat ≤ now.toNat) :
    s.getUsernameByToken token now = (tableOf s.sessions).lookup 300000 now.toNat token := by
  apply Option.ext
  intro owner
  rw [LeaseTable.lookup_eq_some, getUsernameByToken]
  cases found : s.sessions.find? fun t => token = t.token with
  | none => simp [tableOf, found]
  | some t =>
    have active := SessionToken.isActive_iff (lives t (List.mem_of_find?_eq_some found))
    have stored : tableOf s.sessions token = some ⟨t.ownerIdentifier, t.lifeMs.toNat⟩ := by
      simp only [tableOf, found, Option.map_some]
    simp only [stored, Option.ite_none_right_eq_some, active, Option.some.injEq, Lease.mk.injEq]
    constructor
    · rintro ⟨live, rfl⟩
      exact ⟨_, ⟨rfl, rfl⟩, live⟩
    · rintro ⟨_, ⟨rfl, rfl⟩, live⟩
      exact ⟨live, rfl⟩

theorem validateSession_eq_lookup {s : SessionHandler} {token : String} {now refreshed : UInt64}
    (lives : ∀ t ∈ s.sessions, t.lifeMs.toNat ≤ now.toNat) :
    (s.validateSession token now refreshed).2 =
      ((tableOf s.sessions).lookup 300000 now.toNat token).isSome := by
  rw [← getUsernameByToken_eq_lookup lives]
  change (findTokenIn token now refreshed s.sessions).2 = _
  unfold getUsernameByToken
  rcases findTokenIn_cases token now refreshed s.sessions with
    ⟨kept, inactive⟩ | ⟨before, t, after, split, first, hit, active, renewed⟩
  · cases found : s.sessions.find? fun t => token = t.token with
    | none => simp [kept]
    | some t => simp [kept, inactive t found]
  · have none : before.find? (fun u => token = u.token) = none := by
      simpa [List.find?_eq_none] using fun u h => Ne.symm (first u h)
    have found : s.sessions.find? (fun u => token = u.token) = some t := by
      simp [split, List.find?_append, none, hit]
    simp [renewed, found, active]

/-! ## The invariant -/

/-- How a store goes with the history that led to it and the readings taken on the way. -/
structure Tracks (h : History) (readings : List UInt64) (s : SessionHandler) : Prop where
  nodup : (s.sessions.map (·.token)).Nodup
  issued : ∀ t ∈ s.sessions, t.token ∈ issued h
  lives : ∀ t ∈ s.sessions, t.lifeMs ∈ readings
  prunes : ∀ now : ℕ, (∀ r ∈ readings, r.toNat ≤ now) →
    LeaseTable.Prunes 300000 now (tableOf s.sessions) fun token => lifeOf token h

variable {h : History} {readings : List UInt64} {s t : SessionHandler} {op : Op}

theorem Tracks.new (maxSessions : UInt16) : Tracks [] [] (.new maxSessions) := by
  constructor <;> try simp [SessionHandler.new]
  intro _
  constructor <;> simp [tableOf, lifeOf]

theorem Tracks.lives_le (tracks : Tracks h readings s) {now : UInt64}
    (clock : ∀ r ∈ readings, r ≤ now) : ∀ t ∈ s.sessions, t.lifeMs.toNat ≤ now.toNat :=
  fun t mem => UInt64.le_iff_toNat_le.1 (clock _ (tracks.lives t mem))

/-- The answer to a lookup at a reading after all earlier ones is the history's. -/
theorem Tracks.lookup_eq (tracks : Tracks h readings s) {now : UInt64}
    (clock : ∀ r ∈ readings, r ≤ now) (token : String) :
    (tableOf s.sessions).lookup 300000 now.toNat token =
      LeaseTable.lookup 300000 now.toNat (fun token => lifeOf token h) token :=
  (tracks.prunes now.toNat fun r mem => UInt64.le_iff_toNat_le.1 (clock r mem)).lookup_eq token

theorem issued_snoc (h : History) (e : Op × Answer) :
    issued (h ++ [e]) = issued h ++ issued [e] := by
  simp [SessionHandler.issued]

/-- An operation that issues no token and changes neither store nor lives. -/
theorem Tracks.keep (tracks : Tracks h readings s) {e : Op × Answer} {more : List UInt64}
    (same : t.sessions = s.sessions) (none : SessionHandler.issued [e] = [])
    (lives : ∀ token life, lifeStep token life e = life) :
    Tracks (h ++ [e]) (readings ++ more) t := by
  constructor
  · exact same ▸ tracks.nodup
  · rw [same, issued_snoc, none, List.append_nil]
    exact tracks.issued
  · rw [same]
    exact fun u mem => List.mem_append_left _ (tracks.lives u mem)
  · intro now clock
    simp only [same, lifeOf_snoc, lives]
    exact tracks.prunes now fun r mem => clock r (List.mem_append_left _ mem)

/-- A new session appends a token nobody holds. -/
theorem Tracks.newSession (tracks : Tracks h readings s) {username generated : String}
    {now : UInt64} (room : s.sessions.length < s.maxSessions.toNat)
    (fresh : generated ∉ SessionHandler.issued h) :
    Tracks (h ++ [(.newSession username generated now, .token (some generated))])
      (readings ++ [now]) (s.newSession username generated now).1 := by
  have sessions : (s.newSession username generated now).1.sessions =
      s.sessions ++ [.new username generated now] := by simp [SessionHandler.newSession, room]
  have other : ∀ u ∈ s.sessions, u.token ≠ generated :=
    fun u mem same => fresh (same ▸ tracks.issued u mem)
  have table : tableOf (s.sessions ++ [.new username generated now]) =
      Function.update (tableOf s.sessions) generated (some ⟨username, now.toNat⟩) := by
    have inserted : tableOf (s.sessions ++ .new username generated now :: []) = _ :=
      tableOf_insert other
    simpa [SessionToken.new] using inserted
  have ledger : (fun token => lifeOf token
      (h ++ [(.newSession username generated now, .token (some generated))])) =
      Function.update (fun token => lifeOf token h) generated (some ⟨username, now.toNat⟩) := by
    funext token
    rw [lifeOf_snoc, Function.update_apply]
    simp [lifeStep, eq_comm]
  constructor
  · rw [sessions, List.map_append, List.nodup_append]
    refine ⟨tracks.nodup, by simp, ?_⟩
    intro a old b last same
    obtain ⟨u, mem, rfl⟩ := List.mem_map.1 old
    have drawn : b = generated := by simpa [SessionToken.new] using last
    exact other u mem (same.trans drawn)
  · intro u mem
    rw [sessions] at mem
    rw [issued_snoc]
    rcases List.mem_append.1 mem with mem | mem
    · exact List.mem_append_left _ (tracks.issued u mem)
    · obtain rfl := List.mem_singleton.1 mem
      simp [SessionHandler.issued, SessionToken.new]
  · intro u mem
    rw [sessions] at mem
    rcases List.mem_append.1 mem with mem | mem
    · exact List.mem_append_left _ (tracks.lives u mem)
    · obtain rfl := List.mem_singleton.1 mem
      simp [SessionToken.new]
  · intro later clock
    rw [sessions, table, ledger]
    exact (tracks.prunes later fun r mem => clock r (List.mem_append_left _ mem)).update _ _

/-- A successful validation renews one lease, in the store and in the history. -/
theorem Tracks.validated (tracks : Tracks h readings s) {token : String} {now refreshed : UInt64}
    {before after : List SessionToken} {u : SessionToken}
    (split : s.sessions = before ++ u :: after)
    (first : ∀ v ∈ before, v.token ≠ token) (hit : u.token = token)
    (sessions : t.sessions = before ++ u.updateLife refreshed :: after) :
    Tracks (h ++ [(.validateSession token now refreshed, .valid true)])
      (readings ++ [now, refreshed]) t := by
  subst hit
  have tokens : t.sessions.map (·.token) = s.sessions.map (·.token) := by
    simp [sessions, split, SessionToken.updateLife]
  have stored : tableOf s.sessions = Function.update (tableOf (before ++ after)) u.token
      (some ⟨u.ownerIdentifier, u.lifeMs.toNat⟩) := split ▸ tableOf_insert first
  have renewed : tableOf t.sessions = Function.update (tableOf s.sessions) u.token
      (some ⟨u.ownerIdentifier, refreshed.toNat⟩) := by
    rw [stored, Function.update_idem, sessions]
    exact tableOf_insert (t := u.updateLife refreshed) first
  constructor
  · exact tokens ▸ tracks.nodup
  · intro v mem
    rw [issued_snoc]
    have present : v.token ∈ s.sessions.map (·.token) := tokens ▸ List.mem_map_of_mem mem
    obtain ⟨w, mem, same⟩ := List.mem_map.1 present
    exact List.mem_append_left _ (same ▸ tracks.issued w mem)
  · intro v mem
    rw [sessions] at mem
    have old : v ∈ s.sessions ∨ v = u.updateLife refreshed := by
      rw [split]
      rcases List.mem_append.1 mem with mem | mem
      · exact Or.inl (List.mem_append_left _ mem)
      · rcases List.mem_cons.1 mem with rfl | mem
        · exact Or.inr rfl
        · exact Or.inl (List.mem_append_right _ (List.mem_cons_of_mem _ mem))
    rcases old with mem | rfl
    · exact List.mem_append_left _ (tracks.lives v mem)
    · exact List.mem_append_right _ (by simp [SessionToken.updateLife])
  · intro later clock
    have pruned := tracks.prunes later fun r mem => clock r (List.mem_append_left _ mem)
    have known : lifeOf u.token h = some ⟨u.ownerIdentifier, u.lifeMs.toNat⟩ :=
      pruned.sub _ _ (by rw [stored]; simp)
    have ledger : (fun token => lifeOf token
        (h ++ [(.validateSession u.token now refreshed, .valid true)])) =
        Function.update (fun token => lifeOf token h) u.token
          (some ⟨u.ownerIdentifier, refreshed.toNat⟩) := by
      funext token
      rw [lifeOf_snoc, Function.update_apply]
      by_cases same : token = u.token
      · simp [lifeStep, same, known]
      · simp [lifeStep, same, Ne.symm same]
    rw [renewed, ledger]
    exact pruned.update _ _

/-- A pass drops only sessions that have expired at the end of it. -/
theorem Tracks.cleaned (tracks : Tracks h readings s) {nows : List UInt64}
    (all : nows.length = s.sessions.length) (clock : ∀ r ∈ readings, ∀ now ∈ nows, r ≤ now) :
    Tracks (h ++ [(.cleanup nows, .cleaned)]) (readings ++ nows) (s.cleanupPass nows) := by
  have sublist : (s.cleanupPass nows).sessions.Sublist s.sessions :=
    removeInactive_sublist s.sessions nows
  have nodup : ((s.cleanupPass nows).sessions.map (·.token)).Nodup :=
    (sublist.map _).nodup tracks.nodup
  constructor
  · exact nodup
  · intro u mem
    rw [issued_snoc]
    exact List.mem_append_left _ (tracks.issued u (sublist.subset mem))
  · exact fun u mem => List.mem_append_left _ (tracks.lives u (sublist.subset mem))
  · intro later end_
    have same : (fun token => lifeOf token (h ++ [(.cleanup nows, .cleaned)])) =
        fun token => lifeOf token h := by
      funext token
      rw [lifeOf_snoc]
      rfl
    rw [same]
    refine (tracks.prunes later fun r mem => end_ r (List.mem_append_left _ mem)).drop ?_ ?_
    · intro token l kept
      obtain ⟨u, mem, hit, rfl⟩ := (tableOf_eq_some nodup).1 kept
      exact (tableOf_eq_some tracks.nodup).2 ⟨u, sublist.subset mem, hit, rfl⟩
    · intro token l stored dropped live
      obtain ⟨u, mem, hit, rfl⟩ := (tableOf_eq_some tracks.nodup).1 stored
      have gone : u ∉ (s.cleanupPass nows).sessions := by
        intro kept
        rw [(tableOf_eq_some nodup).2 ⟨u, kept, hit, rfl⟩] at dropped
        cases dropped
      obtain ⟨now, hnow, inactive⟩ := removeInactive_dropped all mem gone
      have le : u.lifeMs.toNat ≤ now.toNat :=
        UInt64.le_iff_toNat_le.1 (clock _ (tracks.lives u mem) now hnow)
      have active := (SessionToken.isActive_iff le).2
        (live.earlier (end_ now (List.mem_append_right _ hnow)))
      rw [active] at inactive
      cases inactive

/-- Every operation keeps the invariant, with readings not before the earlier ones and a
token not issued before. -/
theorem Tracks.step (tracks : Tracks h readings s) (taken : s.step op = some t)
    (clock : ∀ r ∈ readings, ∀ now ∈ op.readings, r ≤ now)
    (distinct : (SessionHandler.issued (h ++ [(op, s.answer op)])).Nodup) :
    Tracks (h ++ [(op, s.answer op)]) (readings ++ op.readings) t := by
  cases op with
  | newSession username generated now =>
    obtain rfl := Option.some.inj taken
    by_cases room : s.sessions.length < s.maxSessions.toNat
    · have issuedNow : s.answer (.newSession username generated now) = .token (some generated) := by
        simp [answer, SessionHandler.newSession, room, SessionToken.new]
      rw [issuedNow] at distinct ⊢
      rw [issued_snoc] at distinct
      refine tracks.newSession room fun old => ?_
      exact (List.nodup_append.1 distinct).2.2 _ old _ (by simp [SessionHandler.issued]) rfl
    · have refused : s.newSession username generated now = (s.cleanInactiveSessions, none) := by
        simp [SessionHandler.newSession, room]
      simp only [answer, refused]
      exact tracks.keep rfl rfl fun _ _ => rfl
  | validateSession token now refreshed =>
    obtain rfl := Option.some.inj taken
    rcases findTokenIn_cases token now refreshed s.sessions with
      ⟨kept, -⟩ | ⟨before, u, after, split, first, hit, -, renewed⟩
    · have invalid : s.answer (.validateSession token now refreshed) = .valid false := by
        simp [answer, validateSession, kept]
      rw [invalid]
      exact tracks.keep (by simp [validateSession, kept]) rfl fun _ _ => rfl
    · have valid : s.answer (.validateSession token now refreshed) = .valid true := by
        simp [answer, validateSession, renewed]
      rw [valid]
      exact tracks.validated split first hit (by simp [validateSession, renewed])
  | getUsernameByToken token now =>
    obtain rfl := Option.some.inj taken
    exact tracks.keep rfl rfl fun _ _ => rfl
  | cleanup nows =>
    obtain ⟨all, rfl⟩ := cleanup_cases taken
    exact tracks.cleaned all clock

theorem history_snoc {maxSessions : UInt16} {ops : List Op}
    (run : (machine maxSessions).Run ops s) (op : Op) :
    history maxSessions (ops ++ [op]) = history maxSessions ops ++ [(op, s.answer op)] :=
  Machine.log_snoc run

/-- The invariant holds at the end of every run with a clock that does not run backwards and
distinct tokens. -/
theorem tracks_of_run {maxSessions : UInt16} {ops : List Op} (run : (machine maxSessions).Run ops s)
    (clock : (ops.flatMap Op.readings).Pairwise (· ≤ ·))
    (distinct : (issued (history maxSessions ops)).Nodup) :
    Tracks (history maxSessions ops) (ops.flatMap Op.readings) s := by
  revert clock distinct
  refine Machine.Run.induct (M := machine maxSessions)
    (I := fun ops s => (ops.flatMap Op.readings).Pairwise (· ≤ ·) →
      (issued (history maxSessions ops)).Nodup →
      Tracks (history maxSessions ops) (ops.flatMap Op.readings) s)
    (fun _ _ => Tracks.new maxSessions) ?_ run
  intro ops s op t run ih taken clock distinct
  simp only [List.flatMap_append, List.flatMap_cons, List.flatMap_nil, List.append_nil] at clock ⊢
  obtain ⟨earlier, -, after⟩ := List.pairwise_append.1 clock
  rw [history_snoc run] at distinct ⊢
  have before : (issued (history maxSessions ops)).Nodup := by
    rw [issued_snoc] at distinct
    exact (List.nodup_append.1 distinct).1
  exact (ih earlier before).step taken (fun r mem now hnow => after r mem now hnow) distinct

theorem maxSessions_of_run {maxSessions : UInt16} {ops : List Op}
    (run : (machine maxSessions).Run ops s) : s.maxSessions = maxSessions := by
  refine Machine.Run.invariant (I := fun s => s.maxSessions = maxSessions) rfl ?_ run
  intro s op t same taken
  cases op with
  | newSession username generated now =>
    obtain rfl := Option.some.inj taken
    unfold newSession
    split <;> exact same
  | validateSession token now refreshed =>
    obtain rfl := Option.some.inj taken
    exact same
  | getUsernameByToken token now =>
    obtain rfl := Option.some.inj taken
    exact same
  | cleanup nows =>
    obtain ⟨-, rfl⟩ := cleanup_cases taken
    exact same

/-- The invariant at any operation of a run, with the clock reading it starts from. -/
theorem tracks_at {maxSessions : UInt16} {ops before after : List Op} {op : Op}
    (split : ops = before ++ op :: after) (run : (machine maxSessions).Run ops t)
    (runBefore : (machine maxSessions).Run before s)
    (clock : (ops.flatMap Op.readings).Pairwise (· ≤ ·))
    (distinct : (issued (history maxSessions ops)).Nodup) :
    Tracks (history maxSessions before) (before.flatMap Op.readings) s ∧
      ∀ r ∈ before.flatMap Op.readings, ∀ now ∈ op.readings, r ≤ now := by
  subst split
  rw [List.flatMap_append] at clock
  obtain ⟨earlier, -, ordered⟩ := List.pairwise_append.1 clock
  have earlierTokens : (issued (history maxSessions before)).Nodup := by
    rw [history, Machine.log, Machine.observe_append runBefore, issued, List.filterMap_append]
      at distinct
    exact (List.nodup_append.1 distinct).1
  refine ⟨tracks_of_run runBefore earlier earlierTokens, fun r mem now hnow => ?_⟩
  exact ordered r mem now (by simp [hnow])

/-- **The store answers from its history.** In every interleaving with a clock that does not
run backwards and distinct tokens, a token is accepted exactly when it was issued and the
reading is less than 300000 ms after its life started; its owner is the one it was issued to.
Only issues and successful validations count, so neither lookups nor passes of the cleanup
thread show in any answer. -/
theorem answers_by_history {maxSessions : UInt16} {ops : List Op} {s : SessionHandler}
    (run : (machine maxSessions).Run ops s)
    (clock : (ops.flatMap Op.readings).Pairwise (· ≤ ·))
    (distinct : (issued (history maxSessions ops)).Nodup) :
    s.sessions.length ≤ maxSessions.toNat ∧
    (∀ before after token now refreshed b, history maxSessions ops =
        before ++ (.validateSession token now refreshed, .valid b) :: after →
      (b = true ↔ ∃ owner life, lifeOf token (withoutCleanup before) = some ⟨owner, life⟩ ∧
        now.toNat < life + 300000)) ∧
    (∀ before after token now answered, history maxSessions ops =
        before ++ (.getUsernameByToken token now, .username answered) :: after →
      ∀ owner, answered = some owner ↔
        ∃ life, lifeOf token (withoutCleanup before) = some ⟨owner, life⟩ ∧
          now.toNat < life + 300000) := by
  refine ⟨maxSessions_of_run run ▸ s.bounded, ?_, ?_⟩
  · intro before after token now refreshed b split
    obtain ⟨fs, op, gs, u, rfl, runBefore, rfl, entry⟩ := run.entry split
    obtain ⟨rfl, answered⟩ := Prod.mk.inj entry
    obtain ⟨tracks, ordered⟩ := tracks_at rfl run runBefore clock distinct
    have clockNow : ∀ r ∈ fs.flatMap Op.readings, r ≤ now :=
      fun r mem => ordered r mem now (by simp [Op.readings])
    have valid : b = (u.validateSession token now refreshed).2 := Answer.valid.inj answered
    rw [valid, validateSession_eq_lookup (tracks.lives_le clockNow), tracks.lookup_eq clockNow,
      Option.isSome_iff_exists]
    simp only [LeaseTable.lookup_eq_some, lifeOf_withoutCleanup]
    rfl
  · intro before after token now answered split owner
    obtain ⟨fs, op, gs, u, rfl, runBefore, rfl, entry⟩ := run.entry split
    obtain ⟨rfl, returned⟩ := Prod.mk.inj entry
    obtain ⟨tracks, ordered⟩ := tracks_at rfl run runBefore clock distinct
    have clockNow : ∀ r ∈ fs.flatMap Op.readings, r ≤ now :=
      fun r mem => ordered r mem now (by simp [Op.readings])
    have name : answered = u.getUsernameByToken token now := Answer.username.inj returned
    rw [name, getUsernameByToken_eq_lookup (tracks.lives_le clockNow), tracks.lookup_eq clockNow]
    simp only [LeaseTable.lookup_eq_some, lifeOf_withoutCleanup]
    rfl

/-- A session is issued, refreshed and looked up before a pass, and refused once expired. -/
def shortRun : List Op :=
  [.newSession "ann" "a1" 1000, .validateSession "a1" 2000 2001, .getUsernameByToken "a1" 302000,
    .cleanup [302001], .validateSession "a1" 302001 302001]

theorem answers_by_history_shortRun : ∃ s, (machine 2).Run shortRun s ∧ s.sessions.length ≤ 2 ∧
    (true = true ↔ ∃ owner life,
      lifeOf "a1" (withoutCleanup [(.newSession "ann" "a1" 1000, .token (some "a1"))]) =
        some ⟨owner, life⟩ ∧ (2000 : UInt64).toNat < life + 300000) := by
  obtain ⟨s, run⟩ : ∃ s, (machine 2).Run shortRun s := ⟨_, rfl⟩
  have clock : (shortRun.flatMap Op.readings).Pairwise (· ≤ ·) := by decide
  have distinct : (issued (history 2 shortRun)).Nodup := by decide
  obtain ⟨bound, valid, -⟩ := answers_by_history run clock distinct
  exact ⟨s, run, bound, valid _ _ "a1" 2000 2001 true (by rfl)⟩

end SessionHandler

end Lynks
