import Kinetic.Client.P2P
import Kinetic.Lib.Blocks
import Mathlib.Algebra.Order.Group.Multiset
import Mathlib.Tactic.Abel

namespace Kinetic
open Blocks (Prog Owns calloc free freePtr Fault)

/-- A `Command__P2POperation__Operation` in memory. -/
structure P2PEntry (Node : Type) where
  block : Nat
  status : Option Nat
  data : ProtoOperationData Node

/-- A `Command__P2POperation` in memory, with the blocks of itself, its peer and its array. `operation` are the first entries
of that array, and the others are `NULL`. -/
inductive P2PNode
  | mk (block : Nat) (peerBlock : Option Nat) (peer : ProtoPeer) (operationBlock : Option Nat)
      (operation : List (P2PEntry P2PNode))

mutual

/-- `KineticAllocator_FreeP2PProtobuf`. -/
def kineticAllocatorFreeP2PProtobuf : P2PNode → Prog Unit
  | .mk block peerBlock _ operationBlock operation => do
    freePtr peerBlock
    freeOperations operation
    freePtr operationBlock
    free block

/-- Its loop. -/
def freeOperations : List (P2PEntry P2PNode) → Prog Unit
  | [] => pure ()
  | entry :: rest => do
    freeEntry entry
    freeOperations rest

/-- The body of that loop. -/
def freeEntry : P2PEntry P2PNode → Prog Unit
  | ⟨block, status, ⟨_, _, _, _, _, _, _, _, p2pop, _⟩⟩ => do
    freeChained p2pop
    freePtr status
    free block

def freeChained : Option P2PNode → Prog Unit
  | none => pure ()
  | some node => kineticAllocatorFreeP2PProtobuf node

end

mutual

/-- `build_p2pOp`. What is built so far of the array is freed at `error_cleanup`. -/
def buildP2POpIn (nestingLevel : Nat) : KineticP2POperation → Prog (Option P2PNode)
  | .mk peer operations => do
    if nestingLevel ≥ kineticP2PMaxNesting then
      return none
    match ← calloc with
    | none => return none
    | some block =>
      match ← calloc with
      | none =>
        kineticAllocatorFreeP2PProtobuf (.mk block none peer.proto none [])
        return none
      | some peerBlock =>
        match ← calloc with
        | none =>
          kineticAllocatorFreeP2PProtobuf (.mk block (some peerBlock) peer.proto none [])
          return none
        | some operationBlock =>
          let (operation, complete) ← buildOperationsIn nestingLevel operations
          let node := P2PNode.mk block (some peerBlock) peer.proto (some operationBlock) operation
          if complete then
            return some node
          else
            kineticAllocatorFreeP2PProtobuf node
            return none

/-- The loop of `build_p2pOp`, with whether it gets to its end. -/
def buildOperationsIn (nestingLevel : Nat) : List (KineticP2POperationData KineticP2POperation) →
    Prog (List (P2PEntry P2PNode) × Bool)
  | [] => return ([], true)
  | data :: rest => do
    match ← buildOperationIn nestingLevel data with
    | none => return ([], false)
    | some entry =>
      let (entries, complete) ← buildOperationsIn nestingLevel rest
      return (entry :: entries, complete)

/-- The body of that loop. `p2p_op_op` is not in the array yet when the chained operation fails. -/
def buildOperationIn (nestingLevel : Nat) : KineticP2POperationData KineticP2POperation → Prog (Option (P2PEntry P2PNode))
  | ⟨key, version, newKey, chainedOperation, _⟩ =>
    if key.isNull then throw Fault.assertion
    else do
      match ← calloc with
      | none => return none
      | some block =>
        let (p2pop, complete) ← buildChainedIn nestingLevel chainedOperation
        if complete then
          return some { block := block, status := none,
                        data := { hasKey := true, key := key.field, hasVersion := !version.isNull, version := version.field,
                                  hasNewkey := !newKey.isNull, newkey := newKey.field, hasForce := version.isNull,
                                  force := version.isNull, p2pop := p2pop, status := none } }
        else
          return none

/-- The branch of it over the chained operation, with whether that is `NULL` or built. -/
def buildChainedIn (nestingLevel : Nat) : Option KineticP2POperation → Prog (Option P2PNode × Bool)
  | none => return (none, true)
  | some chained => do
    let p2pop ← buildP2POpIn (nestingLevel + 1) chained
    return (p2pop, p2pop.isSome)

end

mutual

/-- The blocks of a tree. -/
def P2PNode.blocks : P2PNode → Multiset Nat
  | .mk block peerBlock _ operationBlock operation =>
    peerBlock.elim 0 singleton + (operationBlocks operation + (operationBlock.elim 0 singleton + {block}))

def operationBlocks : List (P2PEntry P2PNode) → Multiset Nat
  | [] => 0
  | entry :: rest => entryBlocks entry + operationBlocks rest

def entryBlocks : P2PEntry P2PNode → Multiset Nat
  | ⟨block, status, ⟨_, _, _, _, _, _, _, _, p2pop, _⟩⟩ => chainedBlocks p2pop + (status.elim 0 singleton + {block})

def chainedBlocks : Option P2PNode → Multiset Nat
  | none => 0
  | some node => node.blocks

end

mutual

/-- The message that a tree stands for. -/
def P2PNode.proto : P2PNode → ProtoP2POperation
  | .mk _ _ peer _ operation => .mk peer (operationProtos operation)

def operationProtos : List (P2PEntry P2PNode) → List (ProtoOperationData ProtoP2POperation)
  | [] => []
  | entry :: rest => entryProto entry :: operationProtos rest

def entryProto : P2PEntry P2PNode → ProtoOperationData ProtoP2POperation
  | ⟨_, _, ⟨hasKey, key, hasVersion, version, hasNewkey, newkey, hasForce, force, p2pop, status⟩⟩ =>
    ⟨hasKey, key, hasVersion, version, hasNewkey, newkey, hasForce, force, chainedProto p2pop, status⟩

def chainedProto : Option P2PNode → Option ProtoP2POperation
  | none => none
  | some node => some node.proto

end

mutual

/-- The number of blocks of a tree: of itself, its peer and its array, and one for each operation with those of the tree that is
chained to it. -/
def KineticP2POperation.blockCount : KineticP2POperation → Nat
  | .mk _ operations => 3 + operationCounts operations

def operationCounts : List (KineticP2POperationData KineticP2POperation) → Nat
  | [] => 0
  | data :: rest => operationCount data + operationCounts rest

def operationCount : KineticP2POperationData KineticP2POperation → Nat
  | ⟨_, _, _, chainedOperation, _⟩ => 1 + chainedCount chainedOperation

def chainedCount : Option KineticP2POperation → Nat
  | none => 0
  | some chained => chained.blockCount

end

/-- The blocks of a `KineticOperation` and of its request. -/
structure OperationBlocks where
  operation : Nat
  request : Nat

/-- `KineticAllocator_NewOperation`. -/
def kineticAllocatorNewOperation : Prog (Option OperationBlocks) := do
  match ← calloc with
  | none => return none
  | some operation =>
    match ← calloc with
    | none =>
      free operation
      return none
    | some request => return some ⟨operation, request⟩

/-- `KineticAllocator_FreeOperation`, with the block of the response, if there is one. -/
def kineticAllocatorFreeOperation (blocks : OperationBlocks) (response : Option Nat) : Prog Unit := do
  free blocks.request
  freePtr response
  free blocks.operation

/-- `KineticBuilder_BuildP2POperation`, with what it leaves in `body->p2poperation`. -/
def kineticBuilderBuildP2POperationIn : KineticP2POperation → Prog (KineticStatus × Option P2PNode)
  | .mk peer operations => do
    match ← buildP2POpIn 0 (.mk peer operations) with
    | none => return (.operationInvalid, none)
    | some node => return (if operations.length ≥ kineticP2POperationLimit then .bufferOverrun else .success, some node)

/-- What `KineticController_ExecuteOperation` does with an operation: it is not handed to the bus, or it is and the bus
completes it, with a response or without one. -/
inductive Execution
  | refused (status : KineticStatus)
  | completed (answered : Bool) (status : KineticStatus)

/-- `KineticClient_P2POperation` up to the end of the operation. `KineticCallbacks_P2POperation` frees the tree, and
`KineticOperation_Complete` the rest. -/
def kineticClientP2POperation (execution : Execution) (p2pOp : KineticP2POperation) : Prog KineticStatus := do
  match ← kineticAllocatorNewOperation with
  | none => return .memoryError
  | some blocks =>
    match ← kineticBuilderBuildP2POperationIn p2pOp with
    | (.success, some node) =>
      match execution with
      | .refused status => return status
      | .completed answered status =>
        let response ← if answered then calloc else pure none
        kineticAllocatorFreeP2PProtobuf node
        kineticAllocatorFreeOperation blocks response
        return status
    | (status, _) => return status

section Memory
variable {grants : Nat → Bool} {level : Nat}

mutual

/-- A tree that is freed gives back all its blocks, each once. -/
theorem freeP2PProtobuf_owns : ∀ node : P2PNode,
    Owns grants node.blocks (kineticAllocatorFreeP2PProtobuf node) fun _ own => own = 0
  | .mk block peerBlock _ operationBlock operation => by
    unfold kineticAllocatorFreeP2PProtobuf P2PNode.blocks
    exact (Owns.freePtr peerBlock).release ((freeOperations_owns operation).release ((Owns.freePtr operationBlock).release
      (Owns.free block)))

theorem freeOperations_owns : ∀ entries : List (P2PEntry P2PNode),
    Owns grants (operationBlocks entries) (freeOperations entries) fun _ own => own = 0
  | [] => by
    unfold freeOperations operationBlocks
    exact .pure rfl
  | entry :: rest => by
    unfold freeOperations operationBlocks
    exact (freeEntry_owns entry).release (freeOperations_owns rest)

theorem freeEntry_owns : ∀ entry : P2PEntry P2PNode, Owns grants (entryBlocks entry) (freeEntry entry) fun _ own => own = 0
  | ⟨block, status, ⟨_, _, _, _, _, _, _, _, p2pop, _⟩⟩ => by
    unfold freeEntry entryBlocks
    exact (freeChained_owns p2pop).release ((Owns.freePtr status).release (Owns.free block))

theorem freeChained_owns : ∀ p2pop : Option P2PNode,
    Owns grants (chainedBlocks p2pop) (freeChained p2pop) fun _ own => own = 0
  | none => by
    unfold freeChained chainedBlocks
    exact .pure rfl
  | some node => by
    unfold freeChained chainedBlocks
    exact freeP2PProtobuf_owns node

end

/-- What an attempt to build a tree leaves. The operations on the way to a failure that are not in an array yet are lost, at
most one for each level of a chain. -/
def Built (grants : Nat → Bool) (level : Nat) (op : KineticP2POperation) (r : Option P2PNode) (own : Multiset Nat) : Prop :=
  match r with
  | some node => own = node.blocks ∧ own.card = op.blockCount ∧ buildP2POp level op = .ok node.proto
  | none => op.Chain (own.card + 1) ∧
      ((∀ n, grants n = true) → level + own.card = kineticP2PMaxNesting ∧ buildP2POp level op = .error .null)

/-- The blocks that are lost among the operations of one level. -/
def LostBelow (operations : List (KineticP2POperationData KineticP2POperation)) (own : Multiset Nat) : Prop :=
  own = 0 ∨ ∃ data ∈ operations, ∃ chained, data.chainedOperation = some chained ∧ chained.Chain own.card

def EntryBuilt (grants : Nat → Bool) (level : Nat) (data : KineticP2POperationData KineticP2POperation)
    (r : Option (P2PEntry P2PNode)) (own : Multiset Nat) : Prop :=
  match r with
  | some entry => own = entryBlocks entry ∧ own.card = operationCount data ∧ buildOperation level data = .ok (entryProto entry)
  | none => LostBelow [data] own ∧
      ((∀ n, grants n = true) → level + own.card = kineticP2PMaxNesting ∧ buildOperation level data = .error .null)

def EntriesBuilt (grants : Nat → Bool) (level : Nat) (operations : List (KineticP2POperationData KineticP2POperation))
    (r : List (P2PEntry P2PNode) × Bool) (own : Multiset Nat) : Prop :=
  match r.2 with
  | true =>
    own = operationBlocks r.1 ∧ own.card = operationCounts operations ∧
      buildOperations level operations = .ok (operationProtos r.1)
  | false => ∃ lost, own = operationBlocks r.1 + lost ∧ LostBelow operations lost ∧
      ((∀ n, grants n = true) → level + lost.card = kineticP2PMaxNesting ∧ buildOperations level operations = .error .null)

/-- The trees that hang on an operation are built one level further down. -/
def BuildsBelow (grants : Nat → Bool) (level : Nat) (data : KineticP2POperationData KineticP2POperation) : Prop :=
  ∀ chained, data.chainedOperation = some chained →
    Owns grants 0 (buildP2POpIn (level + 1) chained) (Built grants (level + 1) chained)

theorem not_all_granted {P : Prop} (refused : ∃ n, grants n = false) (all : ∀ n, grants n = true) : P := by
  obtain ⟨n, no⟩ := refused
  rw [all n] at no
  cases no

def ChainedBuilt (grants : Nat → Bool) (level : Nat) (chainedOperation : Option KineticP2POperation)
    (r : Option P2PNode × Bool) (own : Multiset Nat) : Prop :=
  match r.2 with
  | true =>
    own = chainedBlocks r.1 ∧ own.card = chainedCount chainedOperation ∧
      buildChained level chainedOperation = .ok (chainedProto r.1)
  | false => ∃ chained, chainedOperation = some chained ∧ chained.Chain (own.card + 1) ∧
      ((∀ n, grants n = true) → level + 1 + own.card = kineticP2PMaxNesting ∧
        buildChained level chainedOperation = .error .null)

theorem buildChainedIn_owns {data : KineticP2POperationData KineticP2POperation} (below : BuildsBelow grants level data) :
    Owns grants 0 (buildChainedIn level data.chainedOperation) (ChainedBuilt grants level data.chainedOperation) := by
  cases found : data.chainedOperation with
  | none =>
    unfold buildChainedIn
    exact .pure ⟨rfl, by simp [chainedCount], by simp [buildChained, chainedProto]⟩
  | some chained =>
    unfold buildChainedIn
    refine (below chained found).bind fun r own built => ?_
    cases r with
    | some node =>
      obtain ⟨same, count, pure⟩ := built
      exact .pure ⟨same, by rw [count, chainedCount], by simp [buildChained, chainedProto, pure, bind, Except.bind]⟩
    | none =>
      obtain ⟨chain, full⟩ := built
      refine .pure ⟨chained, rfl, chain, fun all => ?_⟩
      obtain ⟨depth, pure⟩ := full all
      exact ⟨depth, by simp [buildChained, pure, bind, Except.bind]⟩

theorem buildOperationIn_owns {data : KineticP2POperationData KineticP2POperation} (keyed : data.key.isNull = false)
    (below : BuildsBelow grants level data) :
    Owns grants 0 (buildOperationIn level data) (EntryBuilt grants level data) := by
  have pure := buildChainedIn_owns below
  obtain ⟨key, version, newKey, chainedOperation, status⟩ := data
  have keyed : key.isNull = false := keyed
  unfold buildOperationIn
  rw [keyed]
  refine Owns.calloc.bind fun r own given => ?_
  rcases given with ⟨block, rfl, rfl⟩ | ⟨rfl, rfl, refused⟩
  · refine pure.beside fun r own built => ?_
    obtain ⟨p2pop, complete⟩ := r
    cases complete with
    | true =>
      obtain ⟨rfl, count, same⟩ := built
      refine .pure ⟨by simp [entryBlocks], ?_, ?_⟩
      · have count : (chainedBlocks p2pop).card = chainedCount chainedOperation := count
        simp only [Multiset.card_add, count, Multiset.card_singleton, operationCount]
        omega
      · simp [buildOperation, keyed, same, bind, Except.bind, entryProto]
    | false =>
      obtain ⟨chained, found, chain, full⟩ := built
      refine .pure ⟨.inr ⟨_, List.mem_singleton_self _, chained, found, ?_⟩, fun all => ?_⟩
      · simpa using chain
      · obtain ⟨depth, same⟩ := full all
        refine ⟨?_, by simp [buildOperation, keyed, same, bind, Except.bind]⟩
        simp
        omega
  · exact .pure ⟨.inl rfl, not_all_granted refused⟩

theorem buildOperationsIn_owns {operations : List (KineticP2POperationData KineticP2POperation)}
    (keyed : ∀ data ∈ operations, data.key.isNull = false) (below : ∀ data ∈ operations, BuildsBelow grants level data) :
    Owns grants 0 (buildOperationsIn level operations) (EntriesBuilt grants level operations) := by
  induction operations with
  | nil =>
    unfold buildOperationsIn
    exact .pure ⟨rfl, by simp [operationCounts], by simp [buildOperations, operationProtos]⟩
  | cons data rest ih =>
    have later := ih (fun other member => keyed other (List.mem_cons_of_mem _ member))
      fun other member => below other (List.mem_cons_of_mem _ member)
    unfold buildOperationsIn
    refine (buildOperationIn_owns (keyed _ List.mem_cons_self) (below _ List.mem_cons_self)).bind fun r own built => ?_
    cases r with
    | none =>
      obtain ⟨lost, full⟩ := built
      refine .pure ⟨own, by simp [operationBlocks], ?_, fun all => ?_⟩
      · rcases lost with rfl | ⟨other, member, chain⟩
        · exact .inl rfl
        · exact .inr ⟨other, by simp_all, chain⟩
      · obtain ⟨depth, pure⟩ := full all
        exact ⟨depth, by simp [buildOperations, pure, bind, Except.bind]⟩
    | some entry =>
      obtain ⟨rfl, firstCount, first⟩ := built
      refine later.beside fun r own built => ?_
      obtain ⟨entries, complete⟩ := r
      cases complete with
      | true =>
        obtain ⟨rfl, restCount, pure⟩ := built
        refine .pure ⟨Multiset.add_comm _ _, ?_, ?_⟩
        · rw [Multiset.card_add, firstCount, restCount, operationCounts, Nat.add_comm]
        · simp [buildOperations, first, pure, bind, Except.bind, operationProtos]
      | false =>
        obtain ⟨lost, rfl, which, full⟩ := built
        refine .pure ⟨lost, ?_, ?_, fun all => ?_⟩
        · rw [operationBlocks, Multiset.add_comm, Multiset.add_assoc]
        · rcases which with rfl | ⟨other, member, chain⟩
          · exact .inl rfl
          · exact .inr ⟨other, List.mem_cons_of_mem _ member, chain⟩
        · obtain ⟨depth, pure⟩ := full all
          exact ⟨depth, by simp [buildOperations, first, pure, bind, Except.bind]⟩

/-- A partial tree is freed at `error_cleanup`, and what its loop has lost stays. -/
theorem cleanup_owns {node : P2PNode} {op : KineticP2POperation} {lost : Multiset Nat} (failed : Built grants level op none lost) :
    Owns grants (node.blocks + lost) (do kineticAllocatorFreeP2PProtobuf node; return none) (Built grants level op) :=
  (freeP2PProtobuf_owns node).release (.pure failed)

theorem Built.refused {op : KineticP2POperation} (refused : ∃ n, grants n = false) : Built grants level op none 0 :=
  ⟨.one op, not_all_granted refused⟩

/-- The whole of `build_p2pOp`, for any pattern of refused allocations. -/
theorem buildP2POpIn_owns (op : KineticP2POperation) (keyed : op.Keyed) (level : Nat) (shallow : level ≤ kineticP2PMaxNesting) :
    Owns grants 0 (buildP2POpIn level op) (Built grants level op) := by
  induction op using KineticP2POperation.tree_induction generalizing level with
  | step peer operations ih =>
    cases keyed with
    | mk _ keys deeper =>
      unfold buildP2POpIn
      by_cases deep : level ≥ kineticP2PMaxNesting
      · rw [if_pos deep]
        refine .pure ⟨.one _, fun _ => ⟨Nat.le_antisymm shallow deep, ?_⟩⟩
        simp [buildP2POp, deep]
      rw [if_neg deep]
      refine Owns.calloc.bind fun r own given => ?_
      rcases given with ⟨block, rfl, rfl⟩ | ⟨rfl, rfl, refused⟩
      · refine Owns.calloc.beside fun r own given => ?_
        rcases given with ⟨peerBlock, rfl, rfl⟩ | ⟨rfl, rfl, refused⟩
        · refine Owns.calloc.beside fun r own given => ?_
          rcases given with ⟨operationBlock, rfl, rfl⟩ | ⟨rfl, rfl, refused⟩
          · have loop := buildOperationsIn_owns keys fun data member chained found =>
              ih data member chained found (deeper data member chained found) (level + 1) (by omega)
            refine loop.beside fun r own built => ?_
            obtain ⟨operation, complete⟩ := r
            have whole : {operationBlock} + ({peerBlock} + {block}) + operationBlocks operation =
                (P2PNode.mk block (some peerBlock) peer.proto (some operationBlock) operation).blocks := by
              simp only [P2PNode.blocks, Option.elim]
              abel
            cases complete with
            | true =>
              obtain ⟨rfl, count, pure⟩ := built
              refine .pure ⟨by rw [← whole, Multiset.add_comm], ?_, ?_⟩
              · simp only [Multiset.card_add, count, Multiset.card_singleton, KineticP2POperation.blockCount]
                omega
              · simp [buildP2POp, deep, pure, bind, Except.bind, P2PNode.proto]
            | false =>
              obtain ⟨lost, rfl, which, full⟩ := built
              have order : operationBlocks operation + lost + ({operationBlock} + ({peerBlock} + {block})) =
                  (P2PNode.mk block (some peerBlock) peer.proto (some operationBlock) operation).blocks + lost := by
                rw [← whole]
                abel
              rw [order]
              refine cleanup_owns ⟨?_, fun all => ?_⟩
              · rcases which with rfl | ⟨data, member, chained, found, chain⟩
                · exact .one _
                · exact .next peer member found chain
              · obtain ⟨depth, pure⟩ := full all
                exact ⟨depth, by simp [buildP2POp, deep, pure, bind, Except.bind]⟩
          · have node : 0 + ({peerBlock} + {block}) = (P2PNode.mk block (some peerBlock) peer.proto none []).blocks + 0 := by
              simp [P2PNode.blocks, operationBlocks]
            rw [node]
            exact cleanup_owns (.refused refused)
        · have node : 0 + {block} = (P2PNode.mk block none peer.proto none []).blocks + 0 := by
            simp [P2PNode.blocks, operationBlocks]
          rw [node]
          exact cleanup_owns (.refused refused)
      · exact .pure (.refused refused)

/-- `build_p2pOp` for any tree, heap and pattern of refused allocations. What it returns is the message, and freeing that gives
back exactly what building it took. When it returns `NULL` it has lost at most one block for each level of chained operations:
none in a tree without any, and where every allocation is granted, as many as the nesting allows. -/
theorem buildP2POp_memory (op : KineticP2POperation) (keyed : op.Keyed) (h : Blocks.Heap) :
    ∃ r h' own, buildP2POpIn 0 op h = .ok (r, h') ∧ h'.live = own + h.live ∧
      (∀ node, r = some node → buildP2POp 0 op = .ok node.proto ∧
        ∃ h'', kineticAllocatorFreeP2PProtobuf node h' = .ok ((), h'') ∧ h''.live = h.live) ∧
      (r = none → op.Chain (own.card + 1) ∧
        ((∀ n, h.grants n = true) → own.card = kineticP2PMaxNesting ∧ buildP2POp 0 op = .error .null)) := by
  obtain ⟨r, h', own, run, same, live, built⟩ :=
    buildP2POpIn_owns op keyed 0 (Nat.zero_le _) h h.live rfl (Multiset.zero_add _).symm
  refine ⟨r, h', own, run, live, fun node some => ?_, fun null => ?_⟩
  · subst some
    obtain ⟨rfl, _, pure⟩ := built
    obtain ⟨_, h'', rest, freed, _, live', rfl⟩ := freeP2PProtobuf_owns node h' h.live same live
    exact ⟨pure, h'', freed, live'.trans (Multiset.zero_add _)⟩
  · subst null
    simpa [Built] using built

/-- The array of the second of two operations is refused. What was built of it is freed, but not the operation of the first one
that it was to be chained to. -/
theorem buildP2POp_memory_relayed : ∃ h' own, buildP2POpIn 0 relayed (.empty fun n => n != 6) = .ok (none, h') ∧
    h'.live = own ∧ own.card = 1 ∧ relayed.Chain (own.card + 1) := by
  obtain ⟨r, h', own, run, live, _, failed⟩ := buildP2POp_memory relayed relayed_keyed (.empty fun n => n != 6)
  have left : (buildP2POpIn 0 relayed (.empty fun n => n != 6)).map (fun p => (p.1.isNone, p.2.live.card)) = .ok (true, 1) := rfl
  rw [run] at left
  cases r with
  | some node => cases left
  | none =>
    have held : h'.live = own := live.trans (Multiset.add_zero own)
    have one : h'.live.card = 1 := congrArg Prod.snd (Except.ok.inj left)
    exact ⟨h', own, run, held, held ▸ one, (failed rfl).1⟩

/-- What a call for a tree of operations leaves allocated: the operation and its request, and with them all blocks of the tree or
what was lost of it, unless there was no memory for the operation itself, or the bus has completed it. -/
def P2PCallLeaves (grants : Nat → Bool) (execution : Execution) : KineticP2POperation → KineticStatus → Multiset Nat → Prop
  | .mk peer operations, status, own =>
    (status = .memoryError ∧ own = 0 ∧ ∃ n, grants n = false) ∨
    (status = .operationInvalid ∧ ∃ lost, own.card = lost + 2 ∧ KineticP2POperation.Chain (.mk peer operations) (lost + 1)) ∨
    (∃ proto, buildP2POp 0 (.mk peer operations) = .ok proto) ∧
      (operations.length ≥ kineticP2POperationLimit ∧ status = .bufferOverrun ∧
          own.card = KineticP2POperation.blockCount (.mk peer operations) + 2 ∨
        operations.length < kineticP2POperationLimit ∧
          (execution = .refused status ∧ own.card = KineticP2POperation.blockCount (.mk peer operations) + 2 ∨
            ∃ answered, execution = .completed answered status ∧ own = 0))

theorem newOperation_owns : Owns grants 0 kineticAllocatorNewOperation fun r own =>
    (∃ blocks : OperationBlocks, r = some blocks ∧ own = {blocks.request} + {blocks.operation}) ∨
      r = none ∧ own = 0 ∧ ∃ n, grants n = false := by
  unfold kineticAllocatorNewOperation
  refine Owns.calloc.bind fun r own given => ?_
  rcases given with ⟨operation, rfl, rfl⟩ | ⟨rfl, rfl, refused⟩
  · refine Owns.calloc.beside fun r own given => ?_
    rcases given with ⟨request, rfl, rfl⟩ | ⟨rfl, rfl, refused⟩
    · exact .pure (.inl ⟨⟨operation, request⟩, rfl, rfl⟩)
    · rw [Multiset.zero_add, ← Multiset.add_zero {operation}]
      exact (Owns.free operation).release (.pure (.inr ⟨rfl, rfl, refused⟩))
  · exact .pure (.inr ⟨rfl, rfl, refused⟩)

theorem freeOperation_owns (blocks : OperationBlocks) (response : Option Nat) :
    Owns grants ({blocks.request} + (response.elim 0 singleton + {blocks.operation}))
      (kineticAllocatorFreeOperation blocks response) fun _ own => own = 0 :=
  (Owns.free blocks.request).release ((Owns.freePtr response).release (Owns.free blocks.operation))

theorem buildP2POperationIn_owns {peer : KineticP2PPeer} {operations : List (KineticP2POperationData KineticP2POperation)}
    (keyed : KineticP2POperation.Keyed (.mk peer operations)) :
    Owns grants 0 (kineticBuilderBuildP2POperationIn (.mk peer operations)) fun r own =>
      (r = (.operationInvalid, none) ∧ KineticP2POperation.Chain (.mk peer operations) (own.card + 1)) ∨
        ∃ node : P2PNode, own = node.blocks ∧ own.card = KineticP2POperation.blockCount (.mk peer operations) ∧
          buildP2POp 0 (.mk peer operations) = .ok node.proto ∧ r = (if operations.length ≥ kineticP2POperationLimit then .bufferOverrun else .success, some node) := by
  unfold kineticBuilderBuildP2POperationIn
  refine (buildP2POpIn_owns _ keyed 0 (Nat.zero_le _)).bind fun r own built => ?_
  cases r with
  | none => exact .pure (.inl ⟨rfl, built.1⟩)
  | some node => exact .pure (.inr ⟨node, built.1, built.2.1, built.2.2, rfl⟩)

theorem clientP2POperation_owns {execution : Execution} (op : KineticP2POperation) (keyed : op.Keyed) :
    Owns grants 0 (kineticClientP2POperation execution op) (P2PCallLeaves grants execution op) := by
  obtain ⟨peer, operations⟩ := op
  unfold kineticClientP2POperation
  refine newOperation_owns.bind fun r own given => ?_
  rcases given with ⟨blocks, rfl, rfl⟩ | ⟨rfl, rfl, refused⟩
  · refine (buildP2POperationIn_owns keyed).beside fun r own built => ?_
    rcases built with ⟨rfl, chain⟩ | ⟨node, rfl, count, same, rfl⟩
    · exact .pure (.inr (.inl ⟨rfl, own.card, by simp, chain⟩))
    · by_cases many : operations.length ≥ kineticP2POperationLimit
      · simp only [many, if_true]
        exact .pure (.inr (.inr ⟨⟨_, same⟩, .inl ⟨many, rfl, by simp [count]⟩⟩))
      · simp only [many, if_false]
        have few : operations.length < kineticP2POperationLimit := by omega
        cases execution with
        | refused status => exact .pure (.inr (.inr ⟨⟨_, same⟩, .inr ⟨few, .inl ⟨rfl, by simp [count]⟩⟩⟩))
        | completed answered status =>
          have ends (response : Option Nat) : Owns grants
              (response.elim 0 singleton + (node.blocks + ({blocks.request} + {blocks.operation})))
              (do
                kineticAllocatorFreeP2PProtobuf node
                kineticAllocatorFreeOperation blocks response
                return status)
              (P2PCallLeaves grants (.completed answered status) (.mk peer operations)) := by
            have order : response.elim 0 singleton + (node.blocks + ({blocks.request} + {blocks.operation})) =
                node.blocks + ({blocks.request} + (response.elim 0 singleton + {blocks.operation}) + 0) := by abel
            rw [order]
            exact (freeP2PProtobuf_owns node).release ((freeOperation_owns blocks response).release
              (.pure (.inr (.inr ⟨⟨_, same⟩, .inr ⟨few, .inr ⟨answered, rfl, rfl⟩⟩⟩))))
          cases answered with
          | false =>
            have none : Owns grants 0 (pure none : Prog (Option Nat)) fun r own => own = r.elim 0 singleton := .pure rfl
            exact none.beside fun response own split => by rw [split]; exact ends response
          | true =>
            refine Owns.calloc.beside fun response own given => ?_
            rcases given with ⟨b, rfl, rfl⟩ | ⟨rfl, rfl, _⟩
            · exact ends (some b)
            · exact ends none
  · exact .pure (.inl ⟨rfl, rfl, refused⟩)

/-- A call for any tree, from any heap: it does nothing undefined, and what it leaves is as said. -/
theorem clientP2POperation_memory (execution : Execution) (op : KineticP2POperation) (keyed : op.Keyed) (h : Blocks.Heap) :
    ∃ status h' own, kineticClientP2POperation execution op h = .ok (status, h') ∧ h'.live = own + h.live ∧
      P2PCallLeaves h.grants execution op status own := by
  obtain ⟨status, h', own, run, _, live, leaves⟩ :=
    clientP2POperation_owns op keyed h h.live rfl (Multiset.zero_add _).symm
  exact ⟨status, h', own, run, live, leaves⟩

/-- The bus refuses the request. The operation and its request stay, and so do the eight blocks of the tree. -/
theorem clientP2POperation_memory_relayed : ∃ status h' own,
    kineticClientP2POperation (.refused .requestRejected) relayed (.empty fun _ => true) = .ok (status, h') ∧ h'.live = own ∧
      own.card = 10 ∧ P2PCallLeaves (fun _ => true) (.refused .requestRejected) relayed status own := by
  obtain ⟨status, h', own, run, live, leaves⟩ :=
    clientP2POperation_memory (.refused .requestRejected) relayed relayed_keyed (.empty fun _ => true)
  have left : (kineticClientP2POperation (.refused .requestRejected) relayed (.empty fun _ => true)).map
      (fun p => p.2.live.card) = .ok 10 := rfl
  rw [run] at left
  have held : h'.live = own := live.trans (Multiset.add_zero own)
  have ten : h'.live.card = 10 := Except.ok.inj left
  exact ⟨status, h', own, run, held, held ▸ ten, leaves⟩

end Memory

end Kinetic
