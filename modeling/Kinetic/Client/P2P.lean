import Kinetic.Client.Response

namespace Kinetic

def kineticP2POperationLimit : Nat := 100000
def kineticP2PMaxNesting : Nat := 1000

/-- `KineticP2P_Peer`, with the bytes of the host name, if there is one. -/
structure KineticP2PPeer where
  hostname : Option (List UInt8)
  port : Int
  tls : Bool

/-- `KineticP2P_OperationData`. -/
structure KineticP2POperationData (Operation : Type) where
  key : ByteBuffer
  version : ByteBuffer
  newKey : ByteBuffer
  chainedOperation : Option Operation
  resultStatus : KineticStatus

/-- `KineticP2P_Operation`, whose `numOperations` is the number of its operations. -/
inductive KineticP2POperation
  | mk (peer : KineticP2PPeer) (operations : List (KineticP2POperationData KineticP2POperation))

/-- `Command__P2POperation__Peer`. -/
structure ProtoPeer where
  hostname : Option (List UInt8)
  hasPort : Bool
  port : Int
  hasTls : Bool
  tls : Bool

/-- `Command__P2POperation__Operation`. -/
structure ProtoOperationData (Operation : Type) where
  hasKey : Bool
  key : BinaryData
  hasVersion : Bool
  version : BinaryData
  hasNewkey : Bool
  newkey : BinaryData
  hasForce : Bool
  force : Bool
  p2pop : Option Operation
  status : Option ProtoStatus

/-- `Command__P2POperation`. -/
inductive ProtoP2POperation
  | mk (peer : ProtoPeer) (operation : List (ProtoOperationData ProtoP2POperation))

/-- `build_p2pOp` returns `NULL`, or an assertion in it fails. -/
inductive BuildFailure
  | null
  | assertion
  deriving DecidableEq

def KineticP2PPeer.proto (peer : KineticP2PPeer) : ProtoPeer :=
  { hostname := peer.hostname, hasPort := true, port := peer.port, hasTls := true, tls := peer.tls }

/-- The used bytes of a buffer, as a field of a request points to them. -/
def ByteBuffer.field (b : ByteBuffer) : BinaryData := ⟨b.data, b.bytesUsed⟩

mutual

/-- `build_p2pOp`, with its allocations succeeding. -/
def buildP2POp (nestingLevel : Nat) : KineticP2POperation → Except BuildFailure ProtoP2POperation
  | .mk peer operations =>
    if nestingLevel ≥ kineticP2PMaxNesting then .error .null
    else do
      let operation ← buildOperations nestingLevel operations
      .ok (.mk peer.proto operation)

/-- The loop of `build_p2pOp`. -/
def buildOperations (nestingLevel : Nat) : List (KineticP2POperationData KineticP2POperation) →
    Except BuildFailure (List (ProtoOperationData ProtoP2POperation))
  | [] => .ok []
  | data :: rest => do
    let first ← buildOperation nestingLevel data
    let rest ← buildOperations nestingLevel rest
    .ok (first :: rest)

/-- The body of that loop. -/
def buildOperation (nestingLevel : Nat) : KineticP2POperationData KineticP2POperation →
    Except BuildFailure (ProtoOperationData ProtoP2POperation)
  | ⟨key, version, newKey, chainedOperation, _⟩ =>
    if key.isNull then .error .assertion
    else do
      let p2pop ← buildChained nestingLevel chainedOperation
      .ok { hasKey := true, key := key.field, hasVersion := !version.isNull, version := version.field,
            hasNewkey := !newKey.isNull, newkey := newKey.field, hasForce := version.isNull, force := version.isNull,
            p2pop := p2pop, status := none }

/-- The branch of it over the chained operation. -/
def buildChained (nestingLevel : Nat) : Option KineticP2POperation → Except BuildFailure (Option ProtoP2POperation)
  | none => .ok none
  | some chained => do
    let p2pop ← buildP2POp (nestingLevel + 1) chained
    .ok (some p2pop)

end

/-- `KineticBuilder_BuildP2POperation`. -/
def kineticBuilderBuildP2POperation : KineticP2POperation → Except BuildFailure KineticStatus
  | .mk peer operations =>
    match buildP2POp 0 (.mk peer operations) with
    | .ok _ => .ok (if operations.length ≥ kineticP2POperationLimit then .bufferOverrun else .success)
    | .error .null => .ok .operationInvalid
    | .error .assertion => .error .assertion

/-- There is a chain of `n` operations, each chained to one of the operations of the one before. -/
inductive KineticP2POperation.Chain : KineticP2POperation → Nat → Prop
  | one (op : KineticP2POperation) : Chain op 1
  | next (peer : KineticP2PPeer) {operations : List (KineticP2POperationData KineticP2POperation)}
      {data : KineticP2POperationData KineticP2POperation} {chained : KineticP2POperation} {n : Nat} :
      data ∈ operations → data.chainedOperation = some chained → Chain chained n → Chain (.mk peer operations) (n + 1)

/-- No key in the tree is a null buffer. -/
inductive KineticP2POperation.Keyed : KineticP2POperation → Prop
  | mk (peer : KineticP2PPeer) {operations : List (KineticP2POperationData KineticP2POperation)} :
      (∀ data ∈ operations, data.key.isNull = false) →
      (∀ data ∈ operations, ∀ chained, data.chainedOperation = some chained → Keyed chained) → Keyed (.mk peer operations)

/-- The fields of an operation of the request are those of the user's, with the flags for what was given. -/
structure ProtoOperationData.Mirrors (proto : ProtoOperationData ProtoP2POperation)
    (data : KineticP2POperationData KineticP2POperation) : Prop where
  key : proto.hasKey = true ∧ proto.key.bytes = data.key.used
  newkey : proto.newkey.bytes = data.newKey.used ∧ (proto.hasNewkey = true ↔ data.newKey.isNull = false)
  version : proto.version.bytes = data.version.used ∧ (proto.hasVersion = true ↔ data.version.isNull = false)
  force : (proto.hasForce = true ∧ proto.force = true) ↔ data.version.isNull = true
  unforced : data.version.isNull = false → proto.hasForce = false ∧ proto.force = false
  chained : proto.p2pop.isSome = data.chainedOperation.isSome

/-- The request has the shape of the user's tree, and the same fields at every node. -/
inductive ProtoP2POperation.Mirrors : ProtoP2POperation → KineticP2POperation → Prop
  | mk {protoPeer : ProtoPeer} {peer : KineticP2PPeer} {protos : List (ProtoOperationData ProtoP2POperation)}
      {operations : List (KineticP2POperationData KineticP2POperation)} :
      protoPeer.hostname = peer.hostname → protoPeer.hasPort = true ∧ protoPeer.port = peer.port →
      protoPeer.hasTls = true ∧ protoPeer.tls = peer.tls → protos.length = operations.length →
      (∀ (i : Nat) (proto : ProtoOperationData ProtoP2POperation) (data : KineticP2POperationData KineticP2POperation),
        protos[i]? = some proto → operations[i]? = some data → proto.Mirrors data) →
      (∀ (i : Nat) (proto : ProtoOperationData ProtoP2POperation) (data : KineticP2POperationData KineticP2POperation)
        (p2pop : ProtoP2POperation) (chained : KineticP2POperation), protos[i]? = some proto → operations[i]? = some data →
        proto.p2pop = some p2pop → data.chainedOperation = some chained → Mirrors p2pop chained) →
      Mirrors (.mk protoPeer protos) (.mk peer operations)

section Trees
variable {level : Nat} {data : KineticP2POperationData KineticP2POperation}
variable {operations : List (KineticP2POperationData KineticP2POperation)}

/-- Induction over a tree of operations. -/
theorem KineticP2POperation.tree_induction {P : KineticP2POperation → Prop}
    (step : ∀ peer operations, (∀ data ∈ operations, ∀ chained, data.chainedOperation = some chained → P chained) →
      P (.mk peer operations)) (op : KineticP2POperation) : P op := by
  cases op with
  | mk peer operations =>
    refine step peer operations fun data member chained found => ?_
    have inside := List.sizeOf_lt_of_mem member
    have below : sizeOf chained < sizeOf data := by
      cases data
      cases found
      simp
      omega
    exact KineticP2POperation.tree_induction step chained
termination_by sizeOf op
decreasing_by simp; omega

theorem buildOperation_ok_iff {proto : ProtoOperationData ProtoP2POperation} :
    buildOperation level data = .ok proto ↔ data.key.isNull = false ∧ ∃ p2pop,
      buildChained level data.chainedOperation = .ok p2pop ∧
        proto = { hasKey := true, key := data.key.field, hasVersion := !data.version.isNull, version := data.version.field,
                  hasNewkey := !data.newKey.isNull, newkey := data.newKey.field, hasForce := data.version.isNull,
                  force := data.version.isNull, p2pop := p2pop, status := none } := by
  unfold buildOperation
  cases null : data.key.isNull with
  | true => simp
  | false =>
    cases built : buildChained level data.chainedOperation with
    | error failure => simp [bind, Except.bind]
    | ok p2pop => simp [bind, Except.bind, eq_comm]

/-- The loop builds all operations or none. -/
theorem buildOperations_ok_iff {protos : List (ProtoOperationData ProtoP2POperation)} :
    buildOperations level operations = .ok protos ↔
      List.Forall₂ (fun data proto => buildOperation level data = .ok proto) operations protos := by
  induction operations generalizing protos with
  | nil =>
    unfold buildOperations
    rw [List.forall₂_nil_left_iff, Except.ok.injEq, eq_comm]
  | cons data rest ih =>
    unfold buildOperations
    rw [List.forall₂_cons_left_iff]
    cases built : buildOperation level data with
    | error failure => simp [bind, Except.bind]
    | ok first =>
      cases later : buildOperations level rest with
      | error failure =>
        have none (others : List (ProtoOperationData ProtoP2POperation)) :
            ¬ List.Forall₂ (fun data proto => buildOperation level data = .ok proto) rest others := by
          rw [← ih, later]
          rintro ⟨⟩
        simp [bind, Except.bind, none]
      | ok others =>
        simp only [bind, Except.bind, Except.ok.injEq, ← ih, later]
        constructor
        · rintro rfl
          exact ⟨first, others, rfl, rfl, rfl⟩
        · rintro ⟨_, _, rfl, rfl, rfl⟩
          rfl

theorem buildChained_ok_iff {chainedOperation : Option KineticP2POperation} {p2pop : Option ProtoP2POperation} :
    buildChained level chainedOperation = .ok p2pop ↔ (chainedOperation = none ∧ p2pop = none) ∨
      ∃ chained proto, chainedOperation = some chained ∧ p2pop = some proto ∧ buildP2POp (level + 1) chained = .ok proto := by
  cases chainedOperation with
  | none => simp [buildChained, eq_comm]
  | some chained =>
    unfold buildChained
    cases built : buildP2POp (level + 1) chained with
    | error failure => simp [bind, Except.bind, built]
    | ok proto => simp [bind, Except.bind, built, eq_comm]

theorem buildP2POp_ok_iff {peer : KineticP2PPeer} {proto : ProtoP2POperation} :
    buildP2POp level (.mk peer operations) = .ok proto ↔ level < kineticP2PMaxNesting ∧ ∃ protos,
      buildOperations level operations = .ok protos ∧ proto = .mk peer.proto protos := by
  unfold buildP2POp
  by_cases deep : level ≥ kineticP2PMaxNesting
  · rw [if_pos deep]
    constructor
    · rintro ⟨⟩
    · rintro ⟨shallow, _⟩
      omega
  · rw [if_neg deep]
    cases built : buildOperations level operations with
    | error failure => simp [bind, Except.bind]
    | ok protos =>
      have shallow : level < kineticP2PMaxNesting := by omega
      simp [bind, Except.bind, shallow, eq_comm]

/-- A chain of the tree is the root alone, or goes on with a chain of an operation that is chained to the root. -/
theorem KineticP2POperation.chain_iff {peer : KineticP2PPeer} {n : Nat} :
    KineticP2POperation.Chain (.mk peer operations) n ↔ n = 1 ∨ ∃ data ∈ operations, ∃ chained m,
      data.chainedOperation = some chained ∧ chained.Chain m ∧ n = m + 1 := by
  constructor
  · intro chain
    cases chain with
    | one => exact Or.inl rfl
    | next _ member found rest => exact Or.inr ⟨_, member, _, _, found, rest, rfl⟩
  · rintro (rfl | ⟨data, member, chained, m, found, rest, rfl⟩)
    · exact .one _
    · exact .next peer member found rest

/-- All operations can be built if each can. -/
theorem buildOperations_exists_iff : (∃ protos, buildOperations level operations = .ok protos) ↔
    ∀ data ∈ operations, ∃ proto, buildOperation level data = .ok proto := by
  simp only [buildOperations_ok_iff]
  induction operations with
  | nil => exact iff_of_true ⟨[], .nil⟩ (by rintro data ⟨⟩)
  | cons data rest ih =>
    simp only [List.forall₂_cons_left_iff, List.forall_mem_cons, ← ih]
    constructor
    · rintro ⟨_, first, others, built, later, _⟩
      exact ⟨⟨first, built⟩, others, later⟩
    · rintro ⟨⟨first, built⟩, others, later⟩
      exact ⟨_, first, others, built, later, rfl⟩

/-- An operation with a key can be built if it has no chained operation or that can be built one level further down. -/
theorem buildOperation_exists_iff (keyed : data.key.isNull = false) : (∃ proto, buildOperation level data = .ok proto) ↔
    ∀ chained, data.chainedOperation = some chained → ∃ proto, buildP2POp (level + 1) chained = .ok proto := by
  simp only [buildOperation_ok_iff, buildChained_ok_iff, keyed, true_and]
  constructor
  · rintro ⟨_, _, ⟨missing, _⟩ | ⟨chained, proto, found, _, built⟩, _⟩ other here
    · rw [missing] at here
      cases here
    · rw [found] at here
      cases here
      exact ⟨proto, built⟩
  · intro builds
    cases found : data.chainedOperation with
    | none => exact ⟨_, _, Or.inl ⟨rfl, rfl⟩, rfl⟩
    | some chained =>
      obtain ⟨proto, built⟩ := builds chained found
      exact ⟨_, _, Or.inr ⟨chained, proto, rfl, rfl, built⟩, rfl⟩

/-- From any level on, the tree can be built if and only if none of its chains goes below the last level. -/
theorem buildP2POp_exists_iff (op : KineticP2POperation) (keyed : op.Keyed) (level : Nat) :
    (∃ proto, buildP2POp level op = .ok proto) ↔ ∀ n, op.Chain n → level + n ≤ kineticP2PMaxNesting := by
  induction op using KineticP2POperation.tree_induction generalizing level with
  | step peer operations ih =>
    cases keyed with
    | mk _ keys deeper =>
      have each : (∃ protos, buildOperations level operations = .ok protos) ↔ ∀ data ∈ operations, ∀ chained,
          data.chainedOperation = some chained → ∀ n, chained.Chain n → level + 1 + n ≤ kineticP2PMaxNesting := by
        rw [buildOperations_exists_iff]
        refine forall₂_congr fun data member => ?_
        rw [buildOperation_exists_iff (keys data member)]
        exact forall₂_congr fun chained found => ih data member chained found (deeper data member chained found) (level + 1)
      constructor
      · rintro ⟨proto, built⟩ n chain
        obtain ⟨shallow, protos, all, _⟩ := buildP2POp_ok_iff.mp built
        rcases KineticP2POperation.chain_iff.mp chain with rfl | ⟨data, member, chained, m, found, rest, rfl⟩
        · exact shallow
        · have bound := each.mp ⟨protos, all⟩ data member chained found m rest
          omega
      · intro bounded
        obtain ⟨protos, all⟩ := each.mpr fun data member chained found n rest => by
          have bound := bounded (n + 1) (.next peer member found rest)
          omega
        exact ⟨_, buildP2POp_ok_iff.mpr ⟨bounded 1 (.one _), protos, all, rfl⟩⟩

/-- What is built is the tree, node by node. -/
theorem buildP2POp_mirrors (op : KineticP2POperation) {level : Nat} {proto : ProtoP2POperation}
    (built : buildP2POp level op = .ok proto) : proto.Mirrors op := by
  induction op using KineticP2POperation.tree_induction generalizing level proto with
  | step peer operations ih =>
    obtain ⟨_, protos, all, rfl⟩ := buildP2POp_ok_iff.mp built
    have pairs := buildOperations_ok_iff.mp all
    have pair (i : Nat) (first : ProtoOperationData ProtoP2POperation) (data : KineticP2POperationData KineticP2POperation)
        (atProto : protos[i]? = some first) (atData : operations[i]? = some data) : buildOperation level data = .ok first := by
      obtain ⟨within, rfl⟩ := List.getElem?_eq_some_iff.mp atProto
      obtain ⟨within', rfl⟩ := List.getElem?_eq_some_iff.mp atData
      exact pairs.get within' within
    refine .mk rfl ⟨rfl, rfl⟩ ⟨rfl, rfl⟩ pairs.length_eq.symm (fun i first data atProto atData => ?_)
      fun i first data p2pop chained atProto atData below found => ?_
    · obtain ⟨_, p2pop, chain, rfl⟩ := buildOperation_ok_iff.mp (pair i first data atProto atData)
      refine ⟨⟨rfl, rfl⟩, ⟨rfl, by simp⟩, ⟨rfl, by simp⟩, by simp, fun given => ⟨given, given⟩, ?_⟩
      rcases buildChained_ok_iff.mp chain with ⟨missing, rfl⟩ | ⟨chained, next, found, rfl, _⟩
      · rw [missing]
        rfl
      · rw [found]
        rfl
    · obtain ⟨_, link, chain, rfl⟩ := buildOperation_ok_iff.mp (pair i first data atProto atData)
      rcases buildChained_ok_iff.mp chain with ⟨missing, _⟩ | ⟨other, next, here, rfl, deeper⟩
      · rw [missing] at found
        cases found
      · cases below
        rw [here] at found
        cases found
        exact ih data (List.mem_of_getElem? atData) _ here deeper

theorem buildOperations_no_assertion (each : ∀ data ∈ operations, buildOperation level data ≠ .error .assertion) :
    buildOperations level operations ≠ .error .assertion := by
  induction operations with
  | nil => rintro ⟨⟩
  | cons data rest ih =>
    rw [List.forall_mem_cons] at each
    unfold buildOperations
    cases built : buildOperation level data with
    | error failure =>
      rintro ⟨⟩
      exact each.1 built
    | ok first =>
      cases later : buildOperations level rest with
      | error failure =>
        rintro ⟨⟩
        exact ih each.2 later
      | ok others => rintro ⟨⟩

/-- No assertion fails on a tree with all its keys. -/
theorem buildP2POp_no_assertion (op : KineticP2POperation) (keyed : op.Keyed) (level : Nat) :
    buildP2POp level op ≠ .error .assertion := by
  induction op using KineticP2POperation.tree_induction generalizing level with
  | step peer operations ih =>
    cases keyed with
    | mk _ keys deeper =>
      have each : buildOperations level operations ≠ .error .assertion := by
        refine buildOperations_no_assertion fun data member => ?_
        unfold buildOperation
        rw [if_neg (by rw [keys data member]; rintro ⟨⟩)]
        cases found : data.chainedOperation with
        | none => rintro ⟨⟩
        | some chained =>
          have below := ih data member chained found (deeper data member chained found) (level + 1)
          unfold buildChained
          cases built : buildP2POp (level + 1) chained with
          | error failure =>
            rintro ⟨⟩
            exact below built
          | ok proto => rintro ⟨⟩
      unfold buildP2POp
      split
      · rintro ⟨⟩
      · cases built : buildOperations level operations with
        | error failure =>
          rintro ⟨⟩
          exact each built
        | ok protos => rintro ⟨⟩

/-- For every tree of operations that all have a key: `build_p2pOp` builds a request if and only if no chain has more than
`KINETIC_P2P_MAX_NESTING` operations, the request is then the tree over again, and it returns `NULL` otherwise, which is
when `KineticBuilder_BuildP2POperation` returns `KINETIC_STATUS_OPERATION_INVALID`. -/
theorem p2p_request_mirrors (op : KineticP2POperation) (keyed : op.Keyed) :
    ((∃ proto, buildP2POp 0 op = .ok proto) ↔ ∀ n, op.Chain n → n ≤ kineticP2PMaxNesting) ∧
    (∀ proto, buildP2POp 0 op = .ok proto → proto.Mirrors op) ∧
    ((∀ proto, buildP2POp 0 op ≠ .ok proto) → buildP2POp 0 op = .error .null) ∧
    (kineticBuilderBuildP2POperation op = .ok .operationInvalid ↔ buildP2POp 0 op = .error .null) := by
  have asserted := buildP2POp_no_assertion op keyed 0
  refine ⟨?_, fun proto => buildP2POp_mirrors op, fun failed => ?_, ?_⟩
  · rw [buildP2POp_exists_iff op keyed 0]
    simp only [Nat.zero_add]
  · cases built : buildP2POp 0 op with
    | ok proto => exact absurd built (failed proto)
    | error failure =>
      cases failure with
      | null => rfl
      | assertion => exact absurd built asserted
  · cases op with
    | mk peer operations =>
      simp only [kineticBuilderBuildP2POperation]
      cases built : buildP2POp 0 (.mk peer operations) with
      | ok proto =>
        refine iff_of_false ?_ (by rintro ⟨⟩)
        dsimp only
        split <;> rintro ⟨⟩
      | error failure =>
        cases failure with
        | null => exact iff_of_true rfl rfl
        | assertion => exact absurd built asserted

/-- A key pushed to a peer without a version, and from there on to another one with a version. -/
def relayed : KineticP2POperation :=
  .mk ⟨some [97], 8123, false⟩ [⟨bufferOf [1, 2] 4 2, .none, .none,
    some (.mk ⟨some [98], 8443, true⟩ [⟨bufferOf [1, 2] 4 2, bufferOf [7] 1 1, bufferOf [3] 1 1, none, .notAttempted⟩]),
    .notAttempted⟩]

theorem relayed_keyed : relayed.Keyed := by
  refine .mk _ ?_ ?_
  · simp [bufferOf, ByteBuffer.isNull]
  · simp only [List.mem_singleton, forall_eq, Option.some.injEq]
    rintro chained rfl
    refine .mk _ ?_ ?_
    · simp [bufferOf, ByteBuffer.isNull]
    · simp

theorem p2p_request_mirrors_relayed : ∃ proto, buildP2POp 0 relayed = .ok proto ∧ proto.Mirrors relayed ∧
    ∀ n, relayed.Chain n → n ≤ kineticP2PMaxNesting :=
  have mirrors := p2p_request_mirrors relayed relayed_keyed
  ⟨_, rfl, mirrors.2.1 _ rfl, mirrors.1.mp ⟨_, rfl⟩⟩

end Trees

end Kinetic
