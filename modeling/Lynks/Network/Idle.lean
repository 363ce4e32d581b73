import Lynks.Network.SessionRuns

/-!
# One session from its issue on

From any state in which a session is the first with its token, whatever the store does next and
whoever else draws the same token later: while the clock does not run backwards,
`validate_session` accepts the token until it has been idle for 300000 ms
(`accepted_until_idle`), and no longer if the token is not drawn again (`rejected_when_idle`).
-/

namespace Lynks
set_option autoImplicit false

open Lib

namespace SessionHandler

/-- The store from a given state on. -/
def machineFrom (s : SessionHandler) : Machine SessionHandler Op := { init := s, step := step }

/-- The reading of the last renewal of a token, after one more answered operation. -/
def renewStep (token : String) (life : UInt64) : Op × Answer → UInt64
  | (.validateSession t _ refreshed, .valid true) => if t = token then refreshed else life
  | _ => life

/-- The reading of the last renewal of a token after `ops`, when `life` was the one before. -/
def lifeAfter (token : String) (life : UInt64) (s : SessionHandler) (ops : List Op) : UInt64 :=
  (s.machineFrom.log (fun s op => [(op, s.answer op)]) ops).foldl (renewStep token) life

/-- The last renewal of the first session with a token. -/
def lifeIn (token : String) (ts : List SessionToken) : Option UInt64 :=
  (ts.find? fun t => token = t.token).map (·.lifeMs)

variable {s t : SessionHandler} {token : String} {life : UInt64} {ts : List SessionToken}

theorem lifeAfter_snoc {s₀ : SessionHandler} {ops : List Op} (run : s₀.machineFrom.Run ops s)
    (op : Op) : lifeAfter token life s₀ (ops ++ [op]) =
      renewStep token (lifeAfter token life s₀ ops) (op, s.answer op) := by
  rw [lifeAfter, Machine.log_snoc run, List.foldl_append]
  rfl

/-! ## What an operation does to the session -/

theorem lifeIn_cons (t : SessionToken) (ts : List SessionToken) :
    lifeIn token (t :: ts) = if token = t.token then some t.lifeMs else lifeIn token ts := by
  by_cases same : token = t.token <;> simp [lifeIn, same]

/-- A session stored later does not come before it. -/
theorem lifeIn_newSession (holds : lifeIn token s.sessions = some life)
    (username generated : String) (now : UInt64) :
    lifeIn token (s.newSession username generated now).1.sessions = some life := by
  obtain ⟨t, found, renewed⟩ := Option.map_eq_some_iff.1 holds
  unfold newSession
  split
  · simp [lifeIn, List.find?_append, found, renewed]
  · exact holds

/-- A token that is looked for and active is renewed; any other lookup changes nothing. -/
theorem lifeIn_findTokenIn (looked : String) (now refreshed : UInt64) :
    lifeIn token (findTokenIn looked now refreshed ts).1 =
      if looked = token ∧ (findTokenIn looked now refreshed ts).2 = true then some refreshed
      else lifeIn token ts := by
  induction ts with
  | nil => simp [findTokenIn, lifeIn]
  | cons t ts ih =>
    by_cases hit : looked = t.token
    · cases active : t.isActive now with
      | false =>
        simp [findTokenIn, hit, SessionToken.validateToken, active]
      | true =>
        simp only [findTokenIn, hit, if_true, SessionToken.validateToken, active, lifeIn_cons,
          SessionToken.updateLife, and_true]
        by_cases same : t.token = token
        · simp [same]
        · simp [same, Ne.symm same]
    · simp only [findTokenIn, hit, if_false, lifeIn_cons, ih]
      by_cases same : token = t.token
      · simp [same, hit]
      · simp [same]

/-- The verdict on a stored token is that on its first session. -/
theorem findTokenIn_valid (holds : lifeIn token ts = some life) {now refreshed : UInt64}
    (later : life ≤ now) :
    (findTokenIn token now refreshed ts).2 = true ↔ now.toNat < life.toNat + 300000 := by
  induction ts with
  | nil => cases holds
  | cons t ts ih =>
    rw [lifeIn_cons] at holds
    by_cases hit : token = t.token
    · rw [if_pos hit] at holds
      obtain rfl := Option.some.inj holds
      rw [← SessionToken.isActive_iff (UInt64.le_iff_toNat_le.1 later)]
      cases active : t.isActive now <;>
        simp [findTokenIn, hit, SessionToken.validateToken, active]
    · rw [if_neg hit] at holds
      simp only [findTokenIn, hit, if_false]
      exact ih holds

/-- A pass keeps the session, or has read a time at which it had been idle for too long. -/
theorem lifeIn_removeInactive {nows : List UInt64} (holds : lifeIn token ts = some life)
    (all : nows.length = ts.length) (later : ∀ now ∈ nows, life ≤ now) :
    lifeIn token (removeInactive ts nows) = some life ∨
      ∃ now ∈ nows, life.toNat + 300000 ≤ now.toNat := by
  induction ts generalizing nows with
  | nil => cases holds
  | cons t ts ih =>
    cases nows with
    | nil => cases all
    | cons now nows =>
      have rest : nows.length = ts.length := by simpa using all
      rw [lifeIn_cons] at holds
      by_cases hit : token = t.token
      · rw [if_pos hit] at holds
        obtain rfl := Option.some.inj holds
        have active : t.isActive now = true ↔ now.toNat < t.lifeMs.toNat + 300000 :=
          SessionToken.isActive_iff (UInt64.le_iff_toNat_le.1 (later now List.mem_cons_self))
        by_cases live : t.isActive now = true
        · simp [removeInactive, live, lifeIn_cons, hit]
        · rw [active] at live
          exact Or.inr ⟨now, List.mem_cons_self, Nat.le_of_not_lt live⟩
      · rw [if_neg hit] at holds
        have laterRest : ∀ now ∈ nows, life ≤ now :=
          fun now mem => later now (List.mem_cons_of_mem _ mem)
        rcases ih holds rest laterRest with kept | ⟨late, mem, idle⟩
        · left
          unfold removeInactive
          split
          · rw [lifeIn_cons, if_neg hit]
            exact kept
          · exact kept
        · exact Or.inr ⟨late, List.mem_cons_of_mem _ mem, idle⟩

/-! ## Runs -/

/-- The first session with the token has its life in the store, unless a reading was taken at
which it had been idle for too long. -/
def Kept (token : String) (life : UInt64) (readings : List UInt64) (s : SessionHandler) : Prop :=
  lifeIn token s.sessions = some life ∨ ∃ now ∈ readings, life.toNat + 300000 ≤ now.toNat

/-- The sessions with the token are one at most, with this life. -/
structure Sole (token : String) (life : UInt64) (s : SessionHandler) : Prop where
  few : (s.sessions.map (·.token)).count token ≤ 1
  life : ∀ t ∈ s.sessions, t.token = token → t.lifeMs = life

variable {op : Op} {readings : List UInt64}

@[simp] theorem renewStep_validate (looked : String) (now refreshed : UInt64) (b : Bool) :
    renewStep token life (.validateSession looked now refreshed, .valid b) =
      if looked = token ∧ b = true then refreshed else life := by
  cases b <;> simp [renewStep]

/-- A renewal is a reading of the operation. -/
theorem renewStep_mem (token : String) (life : UInt64) (op : Op) (a : Answer) :
    renewStep token life (op, a) = life ∨ renewStep token life (op, a) ∈ op.readings := by
  unfold renewStep
  split
  · rename_i t now refreshed same
    obtain ⟨rfl, rfl⟩ := Prod.mk.inj same
    split
    · exact Or.inr (by simp [Op.readings])
    · exact Or.inl rfl
  · exact Or.inl rfl

/-- With a clock that does not run backwards, a session was renewed before the next reading. -/
theorem lifeAfter_mem {ops : List Op} (run : s.machineFrom.Run ops t) :
    lifeAfter token life s ops ∈ life :: ops.flatMap Op.readings := by
  refine Machine.Run.induct (M := s.machineFrom) (I := fun ops _ =>
    lifeAfter token life s ops ∈ life :: ops.flatMap Op.readings) List.mem_cons_self ?_ run
  intro ops u op _ run ih _
  rw [lifeAfter_snoc run, List.flatMap_append, ← List.cons_append]
  rcases renewStep_mem token (lifeAfter token life s ops) op (u.answer op) with same | read
  · rw [same]
    exact List.mem_append_left _ ih
  · exact List.mem_append_right _ (by simpa using read)

theorem Kept.step (kept : Kept token life readings s) (taken : s.step op = some t)
    (later : ∀ now ∈ op.readings, life ≤ now) :
    Kept token (renewStep token life (op, s.answer op)) (readings ++ op.readings) t := by
  have earlier (same : lifeIn token s.sessions = some life → lifeIn token t.sessions = some life) :
      Kept token life (readings ++ op.readings) t := by
    rcases kept with stored | ⟨now, mem, idle⟩
    · exact Or.inl (same stored)
    · exact Or.inr ⟨now, List.mem_append_left _ mem, idle⟩
  cases op with
  | newSession username generated now =>
    obtain rfl := Option.some.inj taken
    exact earlier fun stored => lifeIn_newSession stored username generated now
  | validateSession looked now refreshed =>
    obtain rfl := Option.some.inj taken
    have after := @lifeIn_findTokenIn token s.sessions looked now refreshed
    rw [answer, renewStep_validate]
    by_cases renewed : looked = token ∧ (s.validateSession looked now refreshed).2 = true
    · rw [if_pos renewed]
      exact Or.inl (after.trans (if_pos renewed))
    · rw [if_neg renewed]
      exact earlier fun stored => (after.trans (if_neg renewed)).trans stored
  | getUsernameByToken looked now =>
    obtain rfl := Option.some.inj taken
    exact earlier id
  | cleanup nows =>
    obtain ⟨all, rfl⟩ := cleanup_cases taken
    rcases kept with stored | ⟨now, mem, idle⟩
    · rcases lifeIn_removeInactive stored all later with kept | ⟨now, mem, idle⟩
      · exact Or.inl kept
      · exact Or.inr ⟨now, List.mem_append_right _ mem, idle⟩
    · exact Or.inr ⟨now, List.mem_append_left _ mem, idle⟩

/-- **While it is not idle for too long, the session is accepted.** -/
theorem accepted_until_idle {ops : List Op} {now refreshed : UInt64}
    (stored : lifeIn token s.sessions = some life) (run : s.machineFrom.Run ops t)
    (clock : (life :: ops.flatMap Op.readings ++ [now]).Pairwise (· ≤ ·))
    (active : now.toNat < (lifeAfter token life s ops).toNat + 300000) :
    (t.validateSession token now refreshed).2 = true := by
  obtain ⟨sorted, -, last⟩ := List.pairwise_append.1 clock
  have before : ∀ r ∈ life :: ops.flatMap Op.readings, r ≤ now :=
    fun r mem => last r mem now List.mem_cons_self
  have kept : Kept token (lifeAfter token life s ops) (ops.flatMap Op.readings) t := by
    clear active clock last before
    revert sorted
    refine Machine.Run.induct (M := s.machineFrom) (I := fun ops t =>
      (life :: ops.flatMap Op.readings).Pairwise (· ≤ ·) →
      Kept token (lifeAfter token life s ops) (ops.flatMap Op.readings) t)
      (fun _ => Or.inl stored) ?_ run
    intro ops u op v run ih taken sorted
    rw [List.flatMap_append, ← List.cons_append] at sorted
    obtain ⟨sorted, -, ordered⟩ := List.pairwise_append.1 sorted
    rw [lifeAfter_snoc run, List.flatMap_append]
    have later : ∀ now ∈ op.readings, lifeAfter token life s ops ≤ now :=
      fun now mem => ordered _ (lifeAfter_mem run) now (by simpa using mem)
    simpa using (ih sorted).step taken later
  rcases kept with stored | ⟨r, mem, idle⟩
  · exact (findTokenIn_valid stored (before _ (lifeAfter_mem run))).2 active
  · have passed : r.toNat ≤ now.toNat :=
      UInt64.le_iff_toNat_le.1 (before r (List.mem_cons_of_mem _ mem))
    omega

theorem findTokenIn_tokens (looked : String) (now refreshed : UInt64) (ts : List SessionToken) :
    (findTokenIn looked now refreshed ts).1.map (·.token) = ts.map (·.token) := by
  rcases findTokenIn_cases looked now refreshed ts with
    ⟨kept, -⟩ | ⟨before, u, after, split, -, -, -, renewed⟩
  · rw [kept]
  · rw [renewed, split]
    simp [SessionToken.updateLife]

/-- Another token's session does not count. -/
theorem Sole.newSession (sole : Sole token life s) {generated : String}
    (differ : generated ≠ token) (username : String) (now : UInt64) :
    Sole token life (s.newSession username generated now).1 := by
  unfold SessionHandler.newSession
  split
  · constructor
    · simpa [SessionToken.new, List.count_cons, differ] using sole.few
    · intro u mem hit
      rcases List.mem_append.1 mem with mem | mem
      · exact sole.life u mem hit
      · rw [List.mem_singleton.1 mem] at hit
        exact absurd hit differ
  · exact ⟨sole.few, sole.life⟩

/-- The first session with the token is the only one. -/
theorem Sole.first (sole : Sole token life s) {before after : List SessionToken}
    {v u : SessionToken} (split : s.sessions = before ++ v :: after) (found : v.token = token)
    (hit : u.token = token) : u ∉ after := by
  intro mem
  have twice : 1 ≤ (after.map (·.token)).count token :=
    List.count_pos_iff.2 (List.mem_map.2 ⟨u, mem, hit⟩)
  have few : (s.sessions.map (·.token)).count token ≤ 1 := sole.few
  simp only [split, List.map_append, List.map_cons, List.count_append, List.count_cons, found,
    beq_self_eq_true, if_true] at few
  omega

/-- The session is renewed if it is the one validated. -/
theorem Sole.validated (sole : Sole token life s) (looked : String) (now refreshed : UInt64) :
    Sole token
      (if looked = token ∧ (s.validateSession looked now refreshed).2 = true then refreshed
        else life)
      (s.validateSession looked now refreshed).1 := by
  constructor
  · change ((findTokenIn looked now refreshed s.sessions).1.map (·.token)).count token ≤ 1
    rw [findTokenIn_tokens]
    exact sole.few
  intro u mem hit
  change u ∈ (findTokenIn looked now refreshed s.sessions).1 at mem
  rcases findTokenIn_cases looked now refreshed s.sessions with
    ⟨kept, -⟩ | ⟨before, v, after, split, first, found, -, renewed⟩
  · have rejected : (s.validateSession looked now refreshed).2 = false := by
      simp [validateSession, kept]
    rw [kept] at mem
    simpa [rejected] using sole.life u mem hit
  · have accepted : (s.validateSession looked now refreshed).2 = true := by
      simp [validateSession, renewed]
    have elsewhere (mem : u ∈ before ∨ u ∈ after) : u ∈ s.sessions := by
      rw [split]
      rcases mem with mem | mem <;> simp [mem]
    rw [renewed, List.mem_append, List.mem_cons] at mem
    by_cases same : looked = token
    · subst same
      have alone : u = v.updateLife refreshed := by
        rcases mem with mem | rfl | mem
        · exact absurd hit (first u mem)
        · rfl
        · exact absurd mem (sole.first split found hit)
      rw [alone, if_pos ⟨rfl, accepted⟩]
      rfl
    · rw [if_neg fun both => same both.1]
      rcases mem with mem | rfl | mem
      · exact sole.life u (elsewhere (Or.inl mem)) hit
      · exact absurd (found.symm.trans hit) same
      · exact sole.life u (elsewhere (Or.inr mem)) hit

/-- A pass keeps or drops it. -/
theorem Sole.cleaned (sole : Sole token life s) (nows : List UInt64) :
    Sole token life (s.cleanupPass nows) := by
  have sublist : (s.cleanupPass nows).sessions.Sublist s.sessions :=
    removeInactive_sublist s.sessions nows
  constructor
  · exact Nat.le_trans ((sublist.map _).count_le token) sole.few
  · exact fun u mem hit => sole.life u (sublist.subset mem) hit

theorem Sole.step (sole : Sole token life s) (taken : s.step op = some t)
    (other : ∀ username now, op ≠ .newSession username token now) :
    Sole token (renewStep token life (op, s.answer op)) t := by
  cases op with
  | newSession username generated now =>
    obtain rfl := Option.some.inj taken
    have differ : generated ≠ token := fun same => other username now (by rw [same])
    exact sole.newSession differ username now
  | validateSession looked now refreshed =>
    obtain rfl := Option.some.inj taken
    rw [answer, renewStep_validate]
    exact sole.validated looked now refreshed
  | getUsernameByToken looked now =>
    obtain rfl := Option.some.inj taken
    exact ⟨sole.few, sole.life⟩
  | cleanup nows =>
    obtain ⟨-, rfl⟩ := cleanup_cases taken
    exact sole.cleaned nows

/-- **And no longer.** -/
theorem rejected_when_idle {ops : List Op} {now refreshed : UInt64} (sole : Sole token life s)
    (run : s.machineFrom.Run ops t)
    (clock : (life :: ops.flatMap Op.readings ++ [now]).Pairwise (· ≤ ·))
    (other : ∀ username now, .newSession username token now ∉ ops)
    (idle : (lifeAfter token life s ops).toNat + 300000 ≤ now.toNat) :
    (t.validateSession token now refreshed).2 = false := by
  have still : Sole token (lifeAfter token life s ops) t := by
    clear clock idle
    revert other
    refine Machine.Run.induct (M := s.machineFrom) (I := fun ops t =>
      (∀ username now, .newSession username token now ∉ ops) →
      Sole token (lifeAfter token life s ops) t) (fun _ => sole) ?_ run
    intro ops u op v run ih taken other
    rw [lifeAfter_snoc run]
    apply (ih fun username now mem => other username now (List.mem_append_left _ mem)).step taken
    intro username now same
    exact other username now (by simp [same])
  by_contra accepted
  obtain ⟨u, mem, hit, active⟩ := validateSession_active (Bool.not_eq_false _ ▸ accepted)
  have renewed : u.lifeMs = lifeAfter token life s ops := still.life u mem hit
  obtain ⟨-, -, last⟩ := List.pairwise_append.1 clock
  have le : u.lifeMs ≤ now := by
    rw [renewed]
    exact last _ (lifeAfter_mem run) now List.mem_cons_self
  have young := (SessionToken.isActive_iff (UInt64.le_iff_toNat_le.1 le)).1 active
  rw [renewed] at young
  omega

end SessionHandler

end Lynks
