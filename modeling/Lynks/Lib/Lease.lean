import Mathlib.Logic.Function.Basic
import Mathlib.Data.Nat.Basic

/-!
# Tables of leases

A lease gives its owner a key until `ttl` ticks have passed since it was last renewed. A
table that keeps every lease ever issued is the reference; an implementation may drop leases
once they have expired. `Prunes ttl now kept all` relates the two at time `now`, and `lookup`
cannot tell them apart from then on (`Prunes.lookup_eq`): under a clock that does not run
backwards an expired lease never becomes live again.
-/

namespace Lib
set_option autoImplicit false

variable {K O : Type}

/-- Who holds a key, and since when. -/
structure Lease (O : Type) where
  owner : O
  since : ℕ
  deriving DecidableEq, Repr

/-- The lease has not expired at `now`. -/
def Lease.Live (ttl now : ℕ) (l : Lease O) : Prop := now < l.since + ttl

instance (ttl now : ℕ) (l : Lease O) : Decidable (l.Live ttl now) :=
  inferInstanceAs (Decidable (now < l.since + ttl))

theorem Lease.Live.earlier {ttl now now' : ℕ} {l : Lease O} (live : l.Live ttl now')
    (le : now ≤ now') : l.Live ttl now :=
  Nat.lt_of_le_of_lt le live

/-- At most one lease for each key. -/
abbrev LeaseTable (K O : Type) : Type := K → Option (Lease O)

namespace LeaseTable

/-- The owner of a key whose lease is live. -/
def lookup (ttl now : ℕ) (table : LeaseTable K O) (k : K) : Option O :=
  (table k).bind fun l => if l.Live ttl now then some l.owner else none

theorem lookup_eq_some {ttl now : ℕ} {table : LeaseTable K O} {k : K} {o : O} :
    table.lookup ttl now k = some o ↔
      ∃ since, table k = some ⟨o, since⟩ ∧ now < since + ttl := by
  cases found : table k with
  | none => simp [lookup, found]
  | some l =>
    obtain ⟨owner, since⟩ := l
    by_cases live : now < since + ttl
    · simp only [lookup, found, Option.bind_some, Lease.Live, live, if_true, Option.some.injEq,
        Lease.mk.injEq]
      exact ⟨fun same => ⟨since, ⟨same, rfl⟩, live⟩, fun ⟨_, ⟨same, _⟩, _⟩ => same⟩
    · simp only [lookup, found, Option.bind_some, Lease.Live, live, if_false, Option.some.injEq,
        Lease.mk.injEq]
      constructor
      · intro missing
        cases missing
      · rintro ⟨_, ⟨_, rfl⟩, live'⟩
        exact absurd live' live

/-- `kept` is `all` less leases that have expired by `now`. -/
structure Prunes (ttl now : ℕ) (kept all : LeaseTable K O) : Prop where
  sub : ∀ k l, kept k = some l → all k = some l
  expired : ∀ k l, all k = some l → kept k = none → ¬ l.Live ttl now

variable {ttl now : ℕ} {kept kept' all : LeaseTable K O}

/-- **Dropping expired leases does not show.** -/
theorem Prunes.lookup_eq (h : Prunes ttl now kept all) (k : K) :
    kept.lookup ttl now k = all.lookup ttl now k := by
  cases inKept : kept k with
  | some l => simp [lookup, inKept, h.sub k l inKept]
  | none =>
    cases inAll : all k with
    | none => simp [lookup, inKept, inAll]
    | some l => simp [lookup, inKept, inAll, h.expired k l inAll inKept]

/-- Issuing or renewing a lease in both tables keeps them related. -/
theorem Prunes.update [DecidableEq K] (h : Prunes ttl now kept all) (k : K) (l : Lease O) :
    Prunes ttl now (Function.update kept k (some l)) (Function.update all k (some l)) := by
  constructor
  · intro k' l' inKept
    by_cases same : k' = k
    · subst same; simpa using inKept
    · rw [Function.update_of_ne same] at inKept ⊢
      exact h.sub k' l' inKept
  · intro k' l' inAll dropped
    by_cases same : k' = k
    · subst same; simp at dropped
    · rw [Function.update_of_ne same] at inAll dropped
      exact h.expired k' l' inAll dropped

/-- Dropping more leases keeps the relation when each of them has expired. -/
theorem Prunes.drop (h : Prunes ttl now kept all) (sub : ∀ k l, kept' k = some l → kept k = some l)
    (expired : ∀ k l, kept k = some l → kept' k = none → ¬ l.Live ttl now) :
    Prunes ttl now kept' all := by
  refine ⟨fun k l inKept => h.sub k l (sub k l inKept), fun k l inAll dropped => ?_⟩
  cases inKept : kept k with
  | none => exact h.expired k l inAll inKept
  | some l' =>
    obtain rfl := Option.some.inj ((h.sub k l' inKept).symm.trans inAll)
    exact expired k l' inKept dropped

end LeaseTable

end Lib
