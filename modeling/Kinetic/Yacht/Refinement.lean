import Kinetic.Yacht.Stands

namespace Kinetic
variable {V : Type}

/-- One call on a table. `Yacht_Set` and `Yacht_Remove` may be given no `old_value` pointer. -/
inductive YachtOp (V : Type)
  | set (key : Int32) (value : V) (wantOld : Bool)
  | get (key : Int32)
  | member (key : Int32)
  | remove (key : Int32) (wantOld : Bool)

/-- What a caller sees of one call: the returned flag and the value written through its pointer. -/
inductive YachtRes (V : Type)
  | set (ok : Bool) (old : Option V)
  | get (value : Option V)
  | member (found : Bool)
  | remove (ok : Bool) (old : Option V)
  deriving DecidableEq

def YachtOp.key : YachtOp V → Int32
  | .set key _ _ => key
  | .get key => key
  | .member key => key
  | .remove key _ => key

/-- One call on the table, all allocations succeeding; `none` would be a `Yacht_Set` that has not returned. -/
def yachtStep [Inhabited V] (y : Yacht V) : YachtOp V → Option (Yacht V × YachtRes V)
  | .set key value wantOld =>
    (yachtSet (fun _ => true) y key value).map fun r => (r.table, .set r.ok (if wantOld then r.old else none))
  | .get key => some (y, .get (yachtGet y key))
  | .member key => some (y, .member (yachtMember y key))
  | .remove key wantOld =>
    match yachtRemove y key wantOld with
    | some (y', old) => some (y', .remove true (if wantOld then some old else none))
    | none => some (y, .remove false none)

def yachtRun [Inhabited V] : Yacht V → List (YachtOp V) → Option (List (YachtRes V))
  | _, [] => some []
  | y, op :: rest =>
    match yachtStep y op with
    | some (y', res) => (yachtRun y' rest).map (res :: ·)
    | none => none

/-- The same call on a partial map, the abstract behaviour of the table. -/
def mapStep (m : Int32 → Option V) : YachtOp V → (Int32 → Option V) × YachtRes V
  | .set key value wantOld => (Function.update m key (some value), .set true (if wantOld then m key else none))
  | .get key => (m, .get (m key))
  | .member key => (m, .member (m key).isSome)
  | .remove key wantOld => (Function.update m key none, .remove (m key).isSome (if wantOld then m key else none))

def mapRun : (Int32 → Option V) → List (YachtOp V) → List (YachtRes V)
  | _, [] => []
  | m, op :: rest => (mapStep m op).2 :: mapRun (mapStep m op).1 rest

/-- The key of a lookup or of a `Yacht_Set` is not hidden behind a tombstone. `Yacht_Remove` needs nothing. -/
def Clear (y : Yacht V) : YachtOp V → Prop
  | .set key _ _ => ¬ Hidden y (setWindow y.size) key
  | .get key => ¬ Hidden y y.size key
  | .member key => ¬ Hidden y y.size key
  | .remove _ _ => True

/-- Every call of the run finds its key clear in the table it is made on. -/
def ClearRun [Inhabited V] : Yacht V → List (YachtOp V) → Prop
  | _, [] => True
  | y, op :: rest => Clear y op ∧ ∀ y' res, yachtStep y op = some (y', res) → ClearRun y' rest

theorem Stands.step [Inhabited V] {n : Nat} {y : Yacht V} {m : Int32 → Option V} (stands : Stands n y m)
    {op : YachtOp V} (live : Live op.key) (clear : Clear y op) :
    ∃ k y', yachtStep y op = some (y', (mapStep m op).2) ∧ Stands k y' (mapStep m op).1 := by
  cases op with
  | set key value wantOld =>
    change Live key at live
    obtain ⟨r, k, run, ok, old, next⟩ := stands.set live clear value
    exact ⟨k, r.table, by simp only [yachtStep, run, Option.map_some, ok, old, mapStep], next⟩
  | get key =>
    change Live key at live
    exact ⟨n, y, by simp only [yachtStep, stands.get live clear, mapStep], stands⟩
  | member key =>
    change Live key at live
    exact ⟨n, y, by simp only [yachtStep, yachtMember, stands.get live clear, mapStep], stands⟩
  | remove key wantOld =>
    change Live key at live
    cases stored : m key with
    | none =>
      refine ⟨n, y, ?_, ?_⟩
      · simp only [yachtStep, stands.remove_none live wantOld stored, mapStep, stored, Option.isSome_none, ite_self]
      · have unchanged : Function.update m key none = m := by rw [← stored, Function.update_eq_self]
        simpa only [mapStep, unchanged] using stands
    | some v =>
      obtain ⟨y', run, next⟩ := stands.remove_some live wantOld stored
      exact ⟨n, y', by simp only [yachtStep, run, mapStep, stored, Option.isSome_some], next⟩

/-- A call whose key is hidden answers differently from the map, provided a `Yacht_Set` asks for the old value. -/
theorem Stands.step_differs [Inhabited V] {n : Nat} {y : Yacht V} {m : Int32 → Option V} (stands : Stands n y m)
    {op : YachtOp V} (live : Live op.key) (hidden : ¬ Clear y op)
    (asks : ∀ key value wantOld, op = .set key value wantOld → wantOld = true) :
    ∀ y', yachtStep y op ≠ some (y', (mapStep m op).2) := by
  intro y' same
  cases op with
  | set key value wantOld =>
    change Live key at live
    obtain ⟨⟨r, run, old⟩, v, stored⟩ := stands.set_hidden live (not_not.mp hidden) value
    have asked := asks key value wantOld rfl
    simp [yachtStep, run, mapStep, asked, old, stored] at same
  | get key =>
    change Live key at live
    obtain ⟨missing, v, stored⟩ := stands.get_hidden live (not_not.mp hidden)
    simp [yachtStep, missing, mapStep, stored] at same
  | member key =>
    change Live key at live
    obtain ⟨missing, v, stored⟩ := stands.get_hidden live (not_not.mp hidden)
    simp [yachtStep, yachtMember, missing, mapStep, stored] at same
  | remove key wantOld => exact hidden trivial

theorem Stands.run [Inhabited V] {n : Nat} {y : Yacht V} {m : Int32 → Option V} (stands : Stands n y m)
    {ops : List (YachtOp V)} (live : ∀ op ∈ ops, Live op.key) (clear : ClearRun y ops) :
    yachtRun y ops = some (mapRun m ops) := by
  induction ops generalizing n y m with
  | nil => rfl
  | cons op rest ih =>
    obtain ⟨k, y', run, next⟩ := stands.step (live op (List.mem_cons_self ..)) clear.1
    have later := ih next (fun other member => live other (List.mem_cons_of_mem _ member)) (clear.2 y' _ run)
    simp only [yachtRun, run, later, Option.map_some, mapRun]

theorem Stands.run_clear [Inhabited V] {n : Nat} {y : Yacht V} {m : Int32 → Option V} (stands : Stands n y m)
    {ops : List (YachtOp V)} (live : ∀ op ∈ ops, Live op.key)
    (asks : ∀ key value wantOld, YachtOp.set key value wantOld ∈ ops → wantOld = true)
    (same : yachtRun y ops = some (mapRun m ops)) : ClearRun y ops := by
  induction ops generalizing n y m with
  | nil => trivial
  | cons op rest ih =>
    have liveHere := live op (List.mem_cons_self ..)
    have clear : Clear y op := by
      by_contra hidden
      have differs := stands.step_differs liveHere hidden
        fun key value wantOld equal => asks key value wantOld (equal ▸ List.mem_cons_self ..)
      cases run : yachtStep y op with
      | none => simp [yachtRun, run] at same
      | some result =>
        obtain ⟨y', res⟩ := result
        simp only [yachtRun, run, mapRun, Option.map_eq_some_iff, List.cons.injEq] at same
        obtain ⟨_, _, equal, _⟩ := same
        exact differs y' (by rw [run, equal])
    obtain ⟨k, y', run, next⟩ := stands.step liveHere clear
    refine ⟨clear, fun other res step => ?_⟩
    rw [run] at step
    cases Option.some.inj step
    simp only [yachtRun, run, mapRun, Option.map_eq_some_iff, List.cons.injEq, true_and] at same
    obtain ⟨_, later, rfl⟩ := same
    exact ih next (fun op member => live op (List.mem_cons_of_mem _ member))
      (fun key value wantOld member => asks key value wantOld (List.mem_cons_of_mem _ member)) later

/-- A table made by `Yacht_Init` answers every sequence of calls as a partial
map does, as long as no lookup and no `Yacht_Set` is made of a key that lies
behind a tombstone; and where every `Yacht_Set` asks for the old value, only then. -/
theorem yacht_refines_map [Inhabited V] (sz2 : Nat) (ops : List (YachtOp V)) (live : ∀ op ∈ ops, Live op.key) :
    (ClearRun (yachtInit V sz2) ops → yachtRun (yachtInit V sz2) ops = some (mapRun (fun _ => none) ops)) ∧
    ((∀ key value wantOld, YachtOp.set key value wantOld ∈ ops → wantOld = true) →
      yachtRun (yachtInit V sz2) ops = some (mapRun (fun _ => none) ops) → ClearRun (yachtInit V sz2) ops) :=
  ⟨fun clear => (stands_init sz2).run live clear, fun asks same => (stands_init sz2).run_clear live asks same⟩

/-- Two descriptors that share their first bucket, added, looked up, and the second one removed. -/
theorem yacht_refines_map_colliding :
    ClearRun (yachtInit Nat 4) [.set 3 7 true, .set 19 8 true, .get 19, .remove 19 true, .member 19, .get 3] ∧
    yachtRun (yachtInit Nat 4) [.set 3 7 true, .set 19 8 true, .get 19, .remove 19 true, .member 19, .get 3] =
      some [.set true none, .set true none, .get (some 8), .remove true (some 8), .member false, .get (some 7)] := by
  have refines := yacht_refines_map 4
    [.set 3 7 true, .set 19 8 true, .get 19, .remove 19 true, .member 19, .get 3] (by decide)
  have clear := refines.2 (by simp) (by decide)
  exact ⟨clear, refines.1 clear⟩

/-- Removing the first of the two leaves a tombstone, and the lookup of the second stops there. -/
theorem yacht_loses_key_behind_tombstone :
    (∀ op ∈ [YachtOp.set 3 7 true, .set 19 8 true, .remove 3 true, .get 19], Live op.key) ∧
    yachtRun (yachtInit Nat 4) [.set 3 7 true, .set 19 8 true, .remove 3 true, .get 19] =
      some [.set true none, .set true none, .remove true (some 7), .get none] ∧
    mapRun (fun _ => none) [.set 3 7 true, .set 19 8 true, .remove 3 true, .get 19] =
      [.set true none, .set true none, .remove true (some 7), .get (some 8)] ∧
    yachtRun (yachtInit Nat 4) [.set 3 7 true, .set 19 8 true, .remove 3 true, .get 19] ≠
      some (mapRun (fun _ => none) [.set 3 7 true, .set 19 8 true, .remove 3 true, .get 19]) := by
  decide

end Kinetic
