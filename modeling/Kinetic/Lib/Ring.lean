import Mathlib.Logic.Function.Basic
import Mathlib.Tactic.Common

namespace Ring
variable {ι κ σ α : Type}

/-- The life of one index of a ring buffer with producers `ι` and consumers `κ`. -/
inductive Phase (ι κ : Type)
  | free
  | reserved (producer : ι)
  | marked
  | claimed (consumer : κ)
  | released

def Phase.rank : Phase ι κ → Nat
  | .free => 0
  | .reserved _ => 1
  | .marked => 2
  | .claimed _ => 3
  | .released => 4

structure Heads where
  reserve : Nat
  commit : Nat
  request : Nat
  release : Nat

/-- A ring of `size` cells, each with a mark and a content. Index `r` is marked with `r` when its
content is complete and with `limit - r` when it has been consumed; `limit` is the initial mark. -/
structure Layout (σ α : Type) where
  size : Nat
  limit : Nat
  mark : σ → Nat
  content : σ → α
  two_le_size : 2 ≤ size
  size_even : size % 2 = 0
  limit_odd : limit % 2 = 1
  size_le_limit : size ≤ limit

namespace Layout

/-- The mark that a cell has before index `r` is written to it. -/
def oldMark (L : Layout σ α) (r : Nat) : Nat := if r < L.size then L.limit else L.limit - (r - L.size)

/-- What the cell of index `r` holds in each phase of `r`. -/
def Holds (L : Layout σ α) (r : Nat) (cell : σ) (value : Option α) : Phase ι κ → Prop
  | .free => L.mark cell = L.oldMark r
  | .reserved _ => L.mark cell = L.oldMark r
  | .marked => L.mark cell = r ∧ value = some (L.content cell)
  | .claimed _ => L.mark cell = r ∧ value = some (L.content cell)
  | .released => L.mark cell = L.limit - r

variable {L : Layout σ α} {r : Nat}

theorem oldMark_ne : L.oldMark r ≠ r := by
  have := L.size_even
  have := L.limit_odd
  have := L.size_le_limit
  have := L.two_le_size
  unfold oldMark
  split <;> omega

theorem oldMark_ne_released (positive : 0 < r) (within : r ≤ L.limit) : L.oldMark r ≠ L.limit - r := by
  have := L.size_le_limit
  have := L.two_le_size
  unfold oldMark
  split <;> omega

theorem oldMark_add_size : L.oldMark (r + L.size) = L.limit - r := by
  unfold oldMark
  rw [if_neg (by omega), Nat.add_sub_cancel]

theorem released_ne : L.limit - r ≠ r := by
  have := L.limit_odd
  omega

end Layout

/-- Two indices in one window of the ring do not share a cell. -/
theorem slot_injective {n a r r' : Nat} (low : a ≤ r) (high : r < a + n) (low' : a ≤ r') (high' : r' < a + n)
    (same : r % n = r' % n) : r = r' := by
  have differ (x y : Nat) (equal : x % n = y % n) (close : x - y < n) : x ≤ y := by
    have none := Nat.sub_mod_eq_zero_of_mod_eq equal
    rw [Nat.mod_eq_of_lt close] at none
    omega
  exact Nat.le_antisymm (differ r r' same (by omega)) (differ r' r same.symm (by omega))

/-- How far index `r`, of rank `n`, has come with the heads where they are. -/
def Ranked (h : Heads) (r n : Nat) : Prop :=
  (h.reserve ≤ r ↔ n = 0) ∧ (r < h.commit → 2 ≤ n) ∧ (r < h.request ↔ 3 ≤ n) ∧ (r < h.release → n = 4)

theorem rank_free {phase : Phase ι κ} : phase.rank = 0 ↔ phase = .free := by
  cases phase <;> simp [Phase.rank]

theorem rank_released {phase : Phase ι κ} : phase.rank = 4 ↔ phase = .released := by
  cases phase <;> simp [Phase.rank]

theorem rank_le_update {phase : Nat → Phase ι κ} {r : Nat} {next : Phase ι κ} (rank : (phase r).rank ≤ next.rank)
    (s : Nat) : (phase s).rank ≤ (Function.update phase r next s).rank := by
  by_cases same : s = r
  · subst s
    rw [Function.update_self]
    exact rank
  · exact Nat.le_of_eq (by rw [Function.update_of_ne same])

theorem ranked_update {h h' : Heads} {phase : Nat → Phase ι κ} {r : Nat} {next : Phase ι κ}
    (ranked : ∀ s, Ranked h s (phase s).rank) (other : ∀ s n, s ≠ r → Ranked h s n → Ranked h' s n)
    (new : Ranked h' r next.rank) : ∀ s, Ranked h' s (Function.update phase r next s).rank := by
  intro s
  by_cases same : s = r
  · subst s
    rw [Function.update_self]
    exact new
  · rw [Function.update_of_ne same]
    exact other s _ same (ranked s)

/-- The state of the ring: where the heads stand, in which phase each index is, and what the cells hold.
`value r` is what the producer of index `r` has to put there. -/
structure Valid (L : Layout σ α) (h : Heads) (phase : Nat → Phase ι κ) (cells : Nat → σ) (value : Nat → Option α) :
    Prop where
  release_le : h.release ≤ h.request
  request_le : h.request ≤ h.commit
  commit_le : h.commit ≤ h.reserve
  room : h.reserve + 2 ≤ h.release + L.size
  ranked : ∀ r, Ranked h r (phase r).rank
  holds : ∀ r, h.release ≤ r → r < h.release + L.size → L.Holds r (cells (r % L.size)) (value r) (phase r)

namespace Valid
variable {L : Layout σ α} {h : Heads} {phase : Nat → Phase ι κ} {cells : Nat → σ} {value : Nat → Option α}
variable {r : Nat} {i : ι} {k : κ} {x : σ}

theorem reserved_bounds (valid : Valid L h phase cells value) (reserved : phase r = .reserved i) :
    h.commit ≤ r ∧ r < h.reserve := by
  obtain ⟨free, committed, _⟩ := valid.ranked r
  rw [reserved] at free committed
  simp only [Phase.rank] at free committed
  omega

theorem claimed_bounds (valid : Valid L h phase cells value) (claimed : phase r = .claimed k) :
    h.release ≤ r ∧ r < h.request := by
  obtain ⟨_, _, requested, released⟩ := valid.ranked r
  rw [claimed] at requested released
  simp only [Phase.rank] at requested released
  omega

/-- An index from the release head up to the reserve head is in the window of the ring. -/
theorem window (valid : Valid L h phase cells value) (low : h.release ≤ r) (high : r ≤ h.reserve) :
    L.Holds r (cells (r % L.size)) (value r) (phase r) :=
  valid.holds r low (by have := valid.room; omega)

theorem release_le_commit (valid : Valid L h phase cells value) : h.release ≤ h.commit :=
  Nat.le_trans valid.release_le valid.request_le

theorem request_le_reserve (valid : Valid L h phase cells value) : h.request ≤ h.reserve :=
  Nat.le_trans valid.request_le valid.commit_le

theorem reserved_mark (valid : Valid L h phase cells value) (reserved : phase r = .reserved i) :
    L.mark (cells (r % L.size)) = L.oldMark r := by
  have bounds := valid.reserved_bounds reserved
  have holds := valid.window (Nat.le_trans valid.release_le_commit bounds.1) (Nat.le_of_lt bounds.2)
  rw [reserved] at holds
  exact holds

theorem claimed_holds (valid : Valid L h phase cells value) (claimed : phase r = .claimed k) :
    L.mark (cells (r % L.size)) = r ∧ value r = some (L.content (cells (r % L.size))) := by
  have bounds := valid.claimed_bounds claimed
  have holds := valid.window bounds.1 (Nat.le_trans (Nat.le_of_lt bounds.2) valid.request_le_reserve)
  rw [claimed] at holds
  exact holds

/-- A committed index that nobody has claimed yet holds its value. -/
theorem committed_holds (valid : Valid L h phase cells value) (low : h.request ≤ r) (high : r < h.commit) :
    L.mark (cells (r % L.size)) = r ∧ value r = some (L.content (cells (r % L.size))) := by
  have holds := valid.window (Nat.le_trans valid.release_le low) (Nat.le_trans (Nat.le_of_lt high) valid.commit_le)
  obtain ⟨_, committed, requested, _⟩ := valid.ranked r
  have rank := committed high
  have unclaimed : ¬ 3 ≤ (phase r).rank := fun third => Nat.not_lt.mpr low (requested.mpr third)
  cases now : phase r with
  | marked =>
    rw [now] at holds
    exact holds
  | _ =>
    rw [now] at rank unclaimed
    simp [Phase.rank] at rank unclaimed

/-- An index up to the commit head whose mark shows it committed is past its reservation. -/
theorem marked_of_mark (valid : Valid L h phase cells value) (below : r ≤ h.commit)
    (mark : L.mark (cells (r % L.size)) = r) : 2 ≤ (phase r).rank := by
  rcases Nat.lt_or_eq_of_le below with before | here
  · exact (valid.ranked r).2.1 before
  · have holds := valid.window (here ▸ valid.release_le_commit) (Nat.le_trans below valid.commit_le)
    cases now : phase r with
    | free =>
      rw [now] at holds
      exact absurd (holds.symm.trans mark) L.oldMark_ne
    | reserved i =>
      rw [now] at holds
      exact absurd (holds.symm.trans mark) L.oldMark_ne
    | marked => exact Nat.le_refl _
    | claimed k => exact Nat.le_succ _
    | released => exact Nat.le_add_left _ _

/-- Once an index has been claimed, the mark at the release head tells whether that index was consumed. -/
theorem released_of_mark (valid : Valid L h phase cells value) (below : r ≤ h.release) (claims : 0 < h.request)
    (within : r ≤ L.limit) (mark : L.mark (cells (r % L.size)) = L.limit - r) : phase r = .released := by
  obtain ⟨_, _, requested, released⟩ := valid.ranked r
  rcases Nat.lt_or_eq_of_le below with before | here
  · exact rank_released.mp (released before)
  · have unclaimed (early : (phase r).rank ≤ 1) : L.oldMark r ≠ L.limit - r :=
      L.oldMark_ne_released (by omega) within
    have holds := valid.window (Nat.le_of_eq here.symm)
      (Nat.le_trans below (Nat.le_trans valid.release_le valid.request_le_reserve))
    cases now : phase r with
    | free =>
      rw [now] at holds unclaimed
      exact absurd (holds.symm.trans mark) (unclaimed (Nat.zero_le _))
    | reserved i =>
      rw [now] at holds unclaimed
      exact absurd (holds.symm.trans mark) (unclaimed (Nat.le_refl _))
    | marked =>
      rw [now] at holds
      exact absurd (mark.symm.trans holds.1) L.released_ne
    | claimed k =>
      rw [now] at holds
      exact absurd (mark.symm.trans holds.1) L.released_ne
    | released => rfl

/-- A cell may be rewritten while its index is in the window, if the new phase of the index allows the new contents. -/
theorem holds_update (valid : Valid L h phase cells value) (low : h.release ≤ r) (high : r < h.reserve)
    {next : Phase ι κ} (new : L.Holds r x (value r) next) :
    ∀ s, h.release ≤ s → s < h.release + L.size →
      L.Holds s (Function.update cells (r % L.size) x (s % L.size)) (value s) (Function.update phase r next s) := by
  intro s low' high'
  have room := valid.room
  by_cases same : s = r
  · subst s
    rw [Function.update_self, Function.update_self]
    exact new
  · have apart : s % L.size ≠ r % L.size := fun equal => same (slot_injective low' high' low (by omega) equal)
    rw [Function.update_of_ne apart, Function.update_of_ne same]
    exact valid.holds s low' high'

theorem reserve (valid : Valid L h phase cells value) (i : ι) (room : h.reserve + 2 < h.release + L.size)
    {value' : Nat → Option α} (same : ∀ r, r < h.reserve → value' r = value r) :
    Valid L { h with reserve := h.reserve + 1 } (Function.update phase h.reserve (.reserved i)) cells value' := by
  have unread {s : Nat} (late : h.reserve ≤ s) : phase s = .free := rank_free.mp ((valid.ranked s).1.mp late)
  have request := valid.request_le_reserve
  refine ⟨valid.release_le, valid.request_le, Nat.le_succ_of_le valid.commit_le, room, ?_, fun s low high => ?_⟩
  · have commit := valid.commit_le
    have release := valid.release_le
    refine ranked_update valid.ranked (fun s n apart ranked => ?_) ?_
    · obtain ⟨free, rest⟩ := ranked
      exact ⟨by dsimp only; omega, rest⟩
    · simp only [Ranked, Phase.rank]
      omega
  · have holds := valid.holds s low high
    by_cases here : s = h.reserve
    · subst s
      rw [unread (Nat.le_refl _)] at holds
      rw [Function.update_self]
      exact holds
    · rw [Function.update_of_ne here]
      by_cases old : s < h.reserve
      · rw [same s old]
        exact holds
      · rw [unread (by omega)] at holds ⊢
        exact holds

/-- The producer of an index writes to its cell, which keeps its mark. -/
theorem write (valid : Valid L h phase cells value) (reserved : phase r = .reserved i)
    (mark : L.mark x = L.mark (cells (r % L.size))) : Valid L h phase (Function.update cells (r % L.size) x) value := by
  have bounds := valid.reserved_bounds reserved
  have new : L.Holds r x (value r) (phase r) := by
    rw [reserved]
    exact mark.trans (valid.reserved_mark reserved)
  have holds := valid.holds_update (Nat.le_trans valid.release_le_commit bounds.1) bounds.2 new
  rw [Function.update_eq_self] at holds
  exact { valid with holds := holds }

theorem mark (valid : Valid L h phase cells value) (reserved : phase r = .reserved i) (mark : L.mark x = r)
    (complete : value r = some (L.content x)) :
    Valid L h (Function.update phase r .marked) (Function.update cells (r % L.size) x) value := by
  have bounds := valid.reserved_bounds reserved
  have ranked := valid.ranked r
  refine { valid with
    ranked := ranked_update valid.ranked (fun _ _ _ ranked => ranked) ?_,
    holds := valid.holds_update (Nat.le_trans valid.release_le_commit bounds.1) bounds.2 ⟨mark, complete⟩ }
  rw [reserved] at ranked
  simp only [Ranked, Phase.rank] at ranked ⊢
  omega

theorem commit (valid : Valid L h phase cells value) (marked : 2 ≤ (phase h.commit).rank) :
    Valid L { h with commit := h.commit + 1 } phase cells value := by
  have unread := (valid.ranked h.commit).1
  refine ⟨valid.release_le, Nat.le_succ_of_le valid.request_le, by dsimp only; omega, valid.room, fun s => ?_, valid.holds⟩
  obtain ⟨free, committed, rest⟩ := valid.ranked s
  refine ⟨free, fun before => ?_, rest⟩
  rcases Nat.lt_or_eq_of_le (Nat.le_of_lt_succ before) with old | rfl
  · exact committed old
  · exact marked

theorem claim (valid : Valid L h phase cells value) (k : κ) (below : h.request < h.commit) :
    Valid L { h with request := h.request + 1 } (Function.update phase h.request (.claimed k)) cells value := by
  obtain ⟨free, committed, requested, _⟩ := valid.ranked h.request
  have commit := valid.commit_le
  have release := valid.release_le
  refine ⟨Nat.le_succ_of_le release, below, commit, valid.room, ?_, fun s low high => ?_⟩
  · refine ranked_update valid.ranked (fun s n apart ranked => ?_) ?_
    · obtain ⟨free, committed, requested, released⟩ := ranked
      exact ⟨free, committed, by dsimp only; omega, released⟩
    · simp only [Ranked, Phase.rank]
      omega
  · have holds := valid.holds s low high
    by_cases here : s = h.request
    · subst s
      rw [Function.update_self]
      cases now : phase h.request with
      | marked =>
        rw [now] at holds
        exact holds
      | _ =>
        rw [now] at free committed requested
        simp only [Phase.rank] at free committed requested
        omega
    · rw [Function.update_of_ne here]
      exact holds

/-- The consumer of an index marks it as consumed. -/
theorem consume (valid : Valid L h phase cells value) (claimed : phase r = .claimed k) (mark : L.mark x = L.limit - r) :
    Valid L h (Function.update phase r .released) (Function.update cells (r % L.size) x) value := by
  have bounds := valid.claimed_bounds claimed
  have ranked := valid.ranked r
  refine { valid with
    ranked := ranked_update valid.ranked (fun _ _ _ ranked => ranked) ?_,
    holds := valid.holds_update bounds.1 (Nat.lt_of_lt_of_le bounds.2 valid.request_le_reserve) mark }
  rw [claimed] at ranked
  simp only [Ranked, Phase.rank] at ranked ⊢
  omega

/-- The release head passes a consumed index; its cell is from now on that of the index one round later. -/
theorem release (valid : Valid L h phase cells value) (released : phase h.release = .released) :
    Valid L { h with release := h.release + 1 } phase cells value := by
  obtain ⟨_, _, requested, _⟩ := valid.ranked h.release
  rw [released] at requested
  simp only [Phase.rank] at requested
  have room := valid.room
  refine ⟨by dsimp only; omega, valid.request_le, valid.commit_le, by dsimp only; omega, fun s => ?_, fun s low high => ?_⟩
  · obtain ⟨free, committed, requested, before⟩ := valid.ranked s
    refine ⟨free, committed, requested, fun passed => ?_⟩
    rcases Nat.lt_or_eq_of_le (Nat.le_of_lt_succ passed) with old | rfl
    · exact before old
    · exact rank_released.mpr released
  · dsimp only at low high
    by_cases last : s < h.release + L.size
    · exact valid.holds s (by omega) last
    · obtain rfl : s = h.release + L.size := by omega
      have holds := valid.holds h.release (Nat.le_refl _) (by have := L.two_le_size; omega)
      have free : phase (h.release + L.size) = .free := rank_free.mp ((valid.ranked _).1.mp (by omega))
      rw [released] at holds
      rw [Nat.add_mod_right, free]
      exact holds.trans L.oldMark_add_size.symm

/-- An untouched ring. -/
theorem start (L : Layout σ α) (cells : Nat → σ) (value : Nat → Option α) (blank : ∀ s, L.mark (cells s) = L.limit) :
    Valid L ⟨0, 0, 0, 0⟩ (fun _ => (.free : Phase ι κ)) cells value := by
  refine ⟨Nat.le_refl _, Nat.le_refl _, Nat.le_refl _, by have := L.two_le_size; dsimp only; omega, fun r => ?_,
    fun r _ high => ?_⟩
  · simp [Ranked, Phase.rank]
  · have first : r < L.size := by simpa using high
    simp only [Layout.Holds, Layout.oldMark, first, if_true]
    exact blank _

end Valid

end Ring
