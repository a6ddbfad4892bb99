import Mathlib.Logic.Function.Basic
import Mathlib.Tactic.Common

namespace Ledger

/-- Items are claimed by actors, each item by at most one, and an actor that has claimed an item holds it until
it makes the entry that is due for it. `log` is what has been entered for an item, `blank` for none. -/
structure Balanced {ι α β : Type} (claimed : ι → α → Prop) (holds : α → Option ι) (log : ι → β) (blank : β)
    (due : α → ι → β) : Prop where
  sole : ∀ r a b, claimed r a → claimed r b → a = b
  held : ∀ r a, holds a = some r → claimed r a ∧ log r = blank
  settled : ∀ r a, claimed r a → holds a = some r ∨ log r = due a r
  unclaimed : ∀ r, (∀ a, ¬ claimed r a) → log r = blank

variable {ι α β : Type} {claimed claimed' : ι → α → Prop} {holds holds' : α → Option ι} {log log' : ι → β} {blank : β}
variable {due due' : α → ι → β} {r : ι} {a : α}

/-- Once nobody holds anything, every claimed item has its entry. -/
theorem Balanced.entered (ledger : Balanced claimed holds log blank due) (free : holds a = none) (own : claimed r a) : log r = due a r := by
  rcases ledger.settled r a own with held | entered
  · rw [free] at held
    cases held
  · exact entered

/-- Two actors do not hold the same item, nor does one hold what the other has claimed. -/
theorem Balanced.holder_unique {b : α} (ledger : Balanced claimed holds log blank due) (held : holds a = some r) (own : claimed r b) :
    b = a :=
  ledger.sole r b a own (ledger.held r a held).1

/-- Nothing is claimed, entered or let go, and what is due for the claimed items stays the same. -/
theorem Balanced.keep (ledger : Balanced claimed holds log blank due) (claims : ∀ r a, claimed' r a ↔ claimed r a)
    (same : holds' = holds) (entries : log' = log) (dues : ∀ r a, claimed r a → due' a r = due a r) :
    Balanced claimed' holds' log' blank due' := by
  subst same entries
  refine ⟨fun r a b own own' => ?_, fun r a held => ?_, fun r a own => ?_, fun r free => ?_⟩
  · exact ledger.sole r a b ((claims r a).mp own) ((claims r b).mp own')
  · exact ⟨(claims r a).mpr (ledger.held r a held).1, (ledger.held r a held).2⟩
  · have before := (claims r a).mp own
    rw [dues r a before]
    exact ledger.settled r a before
  · exact ledger.unclaimed r fun a own => free a ((claims r a).mpr own)

variable [DecidableEq α]

/-- An actor that holds nothing claims an item that nobody has claimed. -/
theorem Balanced.claim (ledger : Balanced claimed holds log blank due) (free : holds a = none) (fresh : ∀ b, ¬ claimed r b)
    (claims : ∀ q b, claimed' q b ↔ claimed q b ∨ q = r ∧ b = a) (now : holds' = Function.update holds a (some r))
    (entries : log' = log) : Balanced claimed' holds' log' blank due := by
  subst now entries
  refine ⟨fun q b c own own' => ?_, fun q b held => ?_, fun q b own => ?_, fun q free' => ?_⟩
  · rcases (claims q b).mp own with old | ⟨rfl, rfl⟩
    · rcases (claims q c).mp own' with old' | ⟨rfl, rfl⟩
      · exact ledger.sole q b c old old'
      · exact absurd old (fresh b)
    · rcases (claims q c).mp own' with old' | ⟨_, rfl⟩
      · exact absurd old' (fresh c)
      · rfl
  · by_cases same : b = a
    · subst b
      rw [Function.update_self] at held
      cases held
      exact ⟨(claims r a).mpr (Or.inr ⟨rfl, rfl⟩), ledger.unclaimed r fresh⟩
    · rw [Function.update_of_ne same] at held
      exact ⟨(claims q b).mpr (Or.inl (ledger.held q b held).1), (ledger.held q b held).2⟩
  · rcases (claims q b).mp own with old | ⟨rfl, rfl⟩
    · rcases ledger.settled q b old with held | entered
      · by_cases same : b = a
        · subst b
          rw [free] at held
          cases held
        · exact Or.inl (by rw [Function.update_of_ne same]; exact held)
      · exact Or.inr entered
    · exact Or.inl (Function.update_self ..)
  · exact ledger.unclaimed q fun b own => free' b ((claims q b).mpr (Or.inl own))

/-- The holder of an item makes its entry and lets go of it. -/
theorem Balanced.enter (ledger : Balanced claimed holds log blank due) (held : holds a = some r) (claims : ∀ r a, claimed' r a ↔ claimed r a)
    (now : holds' = Function.update holds a none) (entry : log' r = due a r) (others : ∀ q, q ≠ r → log' q = log q) :
    Balanced claimed' holds' log' blank due := by
  subst now
  have own := (ledger.held r a held).1
  refine ⟨fun q b c own own' => ?_, fun q b held' => ?_, fun q b own' => ?_, fun q free => ?_⟩
  · exact ledger.sole q b c ((claims q b).mp own) ((claims q c).mp own')
  · by_cases same : b = a
    · subst b
      rw [Function.update_self] at held'
      cases held'
    · rw [Function.update_of_ne same] at held'
      have apart : q ≠ r := by
        rintro rfl
        exact same (ledger.holder_unique held (ledger.held q b held').1)
      rw [others q apart]
      exact ⟨(claims q b).mpr (ledger.held q b held').1, (ledger.held q b held').2⟩
  · have before := (claims q b).mp own'
    by_cases same : q = r
    · subst q
      have actor := ledger.sole r b a before own
      subst b
      exact Or.inr entry
    · rw [others q same]
      rcases ledger.settled q b before with held' | entered
      · have other : b ≠ a := by
          rintro rfl
          rw [held] at held'
          exact same (Option.some.inj held').symm
        exact Or.inl (by rw [Function.update_of_ne other]; exact held')
      · exact Or.inr entered
  · have apart : q ≠ r := by
      rintro rfl
      exact free a ((claims q a).mpr own)
    rw [others q apart]
    exact ledger.unclaimed q fun b own => free b ((claims q b).mpr own)

end Ledger
