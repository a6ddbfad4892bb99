import Kinetic.Client.P2P

namespace Kinetic

/-- The `body` of a response, as far as `KineticCallbacks_P2POperation` reads it. -/
structure P2PBody where
  p2poperation : Option ProtoP2POperation

structure P2PCommand where
  body : Option P2PBody

structure P2PResponse where
  command : Option P2PCommand

/-- The status an operation of the response reports, `KINETIC_STATUS_INVALID` if it has none. -/
def ProtoOperationData.resultStatus (proto : ProtoOperationData ProtoP2POperation) : KineticStatus :=
  match proto.status.bind ProtoStatus.code with
  | some code => kineticProtoStatusCodeToKineticStatus code
  | none => .invalid

mutual

/-- `populateP2PStatusCodes`: the user's operations afterwards. -/
def populateP2PStatusCodes : KineticP2POperation → Option ProtoP2POperation → KineticP2POperation
  | .mk peer operations, none => .mk peer operations
  | .mk peer operations, some (.mk _ protos) => .mk peer (populateOperations operations protos)

/-- Its loop, in which the response may have fewer operations, or more. -/
def populateOperations : List (KineticP2POperationData KineticP2POperation) →
    List (ProtoOperationData ProtoP2POperation) → List (KineticP2POperationData KineticP2POperation)
  | [], _ => []
  | data :: rest, proto :: protos => populateOperation data proto :: populateOperations rest protos
  | data :: rest, [] => { data with resultStatus := .invalid } :: populateOperations rest []

/-- The branch of it for an operation that is in the response. -/
def populateOperation : KineticP2POperationData KineticP2POperation → ProtoOperationData ProtoP2POperation →
    KineticP2POperationData KineticP2POperation
  | ⟨key, version, newKey, chainedOperation, _⟩, proto =>
    ⟨key, version, newKey, populateChained chainedOperation proto.p2pop, proto.resultStatus⟩

/-- The chained operation is visited only when both sides have one. -/
def populateChained : Option KineticP2POperation → Option ProtoP2POperation → Option KineticP2POperation
  | none, _ => none
  | some chained, none => some chained
  | some chained, some p2pop => some (populateP2PStatusCodes chained (some p2pop))

end

/-- `KineticCallbacks_P2POperation`, without the release of the request. -/
def kineticCallbacksP2POperation (response : Option P2PResponse) (p2pOp : KineticP2POperation) (status : KineticStatus) :
    KineticStatus × KineticP2POperation :=
  if status = .success then
    match ((response.bind P2PResponse.command).bind P2PCommand.body).bind P2PBody.p2poperation with
    | some p2poperation => (status, populateP2PStatusCodes p2pOp (some p2poperation))
    | none => (status, p2pOp)
  else (status, p2pOp)

namespace KineticP2POperation

def operations : KineticP2POperation → List (KineticP2POperationData KineticP2POperation)
  | .mk _ operations => operations

/-- The operation reached from the root by following the chained operations at the given indices. -/
def descend : List Nat → KineticP2POperation → Option KineticP2POperation
  | [], op => some op
  | i :: path, op => (op.operations[i]?.bind KineticP2POperationData.chainedOperation).bind (descend path)

/-- The `i`-th entry of the operation at the end of the path: every node of the tree is at one such position. -/
def entry (op : KineticP2POperation) (path : List Nat) (i : Nat) : Option (KineticP2POperationData KineticP2POperation) :=
  (descend path op).bind fun sub => sub.operations[i]?

end KineticP2POperation

namespace ProtoP2POperation

def operation : ProtoP2POperation → List (ProtoOperationData ProtoP2POperation)
  | .mk _ operation => operation

def descend : List Nat → ProtoP2POperation → Option ProtoP2POperation
  | [], proto => some proto
  | i :: path, proto => (proto.operation[i]?.bind ProtoOperationData.p2pop).bind (descend path)

end ProtoP2POperation

mutual

/-- The same operations, all with the given result. -/
def KineticP2POperation.withStatus (status : KineticStatus) : KineticP2POperation → KineticP2POperation
  | .mk peer operations => .mk peer (operationsWithStatus status operations)

def operationsWithStatus (status : KineticStatus) : List (KineticP2POperationData KineticP2POperation) →
    List (KineticP2POperationData KineticP2POperation)
  | [] => []
  | data :: rest => operationWithStatus status data :: operationsWithStatus status rest

def operationWithStatus (status : KineticStatus) : KineticP2POperationData KineticP2POperation →
    KineticP2POperationData KineticP2POperation
  | ⟨key, version, newKey, chainedOperation, _⟩ =>
    ⟨key, version, newKey, chainedWithStatus status chainedOperation, status⟩

def chainedWithStatus (status : KineticStatus) : Option KineticP2POperation → Option KineticP2POperation
  | none => none
  | some chained => some (chained.withStatus status)

end

/-- The part of the response at the given path, if the response has one. -/
def P2PResponse.descend (response : Option P2PResponse) (path : List Nat) : Option ProtoP2POperation :=
  (((response.bind P2PResponse.command).bind P2PCommand.body).bind P2PBody.p2poperation).bind
    (ProtoP2POperation.descend path)

/-- The status that belongs to a position: that of the node of the response there, if it exists and has a code. -/
def P2PResponse.statusAt (response : Option P2PResponse) (path : List Nat) (i : Nat) : KineticStatus :=
  match (P2PResponse.descend response path).bind fun proto => proto.operation[i]? with
  | some proto => proto.resultStatus
  | none => .invalid

/-- After the callback every operation at every depth has the status that belongs to its position. -/
def ResultsReach (response : Option P2PResponse) (op : KineticP2POperation) : Prop :=
  ∀ path i data, (kineticCallbacksP2POperation response op .success).2.entry path i = some data →
    data.resultStatus = P2PResponse.statusAt response path i

section Results
variable {path : List Nat} {i : Nat} {status : KineticStatus} {data : KineticP2POperationData KineticP2POperation}

theorem populateP2PStatusCodes_none (op : KineticP2POperation) : populateP2PStatusCodes op none = op := by
  cases op
  simp only [populateP2PStatusCodes]

theorem populateChained_eq (chainedOperation : Option KineticP2POperation) (p2pop : Option ProtoP2POperation) :
    populateChained chainedOperation p2pop = chainedOperation.map fun chained => populateP2PStatusCodes chained p2pop := by
  cases chainedOperation with
  | none => simp only [populateChained, Option.map_none]
  | some chained =>
    cases p2pop with
    | none => simp only [populateChained, Option.map_some, populateP2PStatusCodes_none]
    | some proto => simp only [populateChained, Option.map_some]

theorem populateOperation_eq (data : KineticP2POperationData KineticP2POperation)
    (proto : ProtoOperationData ProtoP2POperation) :
    populateOperation data proto = { data with
      chainedOperation := data.chainedOperation.map fun chained => populateP2PStatusCodes chained proto.p2pop
      resultStatus := proto.resultStatus } := by
  cases data
  simp only [populateOperation, populateChained_eq]

/-- What the loop makes of the operation at an index, where the response has one and where it has none. -/
theorem populateOperations_getElem? (operations : List (KineticP2POperationData KineticP2POperation))
    (protos : List (ProtoOperationData ProtoP2POperation)) (i : Nat) :
    (populateOperations operations protos)[i]? = operations[i]?.map fun data =>
      match protos[i]? with
      | some proto => populateOperation data proto
      | none => { data with resultStatus := .invalid } := by
  induction operations generalizing protos i with
  | nil => simp only [populateOperations, List.getElem?_nil, Option.map_none]
  | cons data rest ih =>
    cases protos with
    | nil =>
      cases i with
      | zero => simp only [populateOperations, List.getElem?_cons_zero, List.getElem?_nil, Option.map_some]
      | succ i => simpa only [populateOperations, List.getElem?_cons_succ, List.getElem?_nil] using ih [] i
    | cons proto protos =>
      cases i with
      | zero => simp only [populateOperations, List.getElem?_cons_zero, Option.map_some]
      | succ i => simpa only [populateOperations, List.getElem?_cons_succ] using ih protos i

/-- Each part of the user's tree is populated from the part of the response at the same path. -/
theorem descend_populate (path : List Nat) (op : KineticP2POperation) (response : Option ProtoP2POperation) :
    KineticP2POperation.descend path (populateP2PStatusCodes op response) =
      (KineticP2POperation.descend path op).map fun sub =>
        populateP2PStatusCodes sub (response.bind (ProtoP2POperation.descend path)) := by
  induction path generalizing op response with
  | nil =>
    cases response with
    | none => rfl
    | some proto => rfl
  | cons i path ih =>
    cases response with
    | none => simp only [Option.bind_none, populateP2PStatusCodes_none, Option.map_id']
    | some proto =>
      obtain ⟨peer, operations⟩ := op
      obtain ⟨protoPeer, protos⟩ := proto
      simp only [populateP2PStatusCodes, KineticP2POperation.descend, KineticP2POperation.operations, Option.bind_some,
        ProtoP2POperation.descend, ProtoP2POperation.operation, populateOperations_getElem?]
      cases operations[i]? with
      | none => rfl
      | some data =>
        cases protos[i]? with
        | none => simp only [Option.map_some, Option.bind_some, Option.bind_none, populateP2PStatusCodes_none, Option.map_id']
        | some first =>
          simp only [Option.map_some, Option.bind_some, populateOperation_eq]
          cases data.chainedOperation with
          | none => rfl
          | some chained => exact ih chained first.p2pop

/-- The callback leaves the operations of a part of the tree as they are if the response stops before it. -/
theorem entry_of_stopped {response : Option P2PResponse} (op : KineticP2POperation)
    (stopped : P2PResponse.descend response path = none) (i : Nat) :
    (kineticCallbacksP2POperation response op .success).2.entry path i = op.entry path i := by
  unfold P2PResponse.descend at stopped
  simp only [kineticCallbacksP2POperation, if_true]
  cases found : ((response.bind P2PResponse.command).bind P2PCommand.body).bind P2PBody.p2poperation with
  | none => rfl
  | some proto =>
    rw [found] at stopped
    simp only [KineticP2POperation.entry, descend_populate, stopped, populateP2PStatusCodes_none, Option.map_id']

/-- Where it does not stop, each operation gets the status that belongs to its position. -/
theorem entry_of_reached {response : Option P2PResponse} (op : KineticP2POperation)
    (reached : P2PResponse.descend response path ≠ none)
    (found : (kineticCallbacksP2POperation response op .success).2.entry path i = some data) :
    data.resultStatus = P2PResponse.statusAt response path i := by
  obtain ⟨part, reached⟩ := Option.ne_none_iff_exists'.mp reached
  unfold P2PResponse.statusAt
  rw [reached]
  unfold P2PResponse.descend at reached
  simp only [kineticCallbacksP2POperation, if_true] at found
  cases root : ((response.bind P2PResponse.command).bind P2PCommand.body).bind P2PBody.p2poperation with
  | none => simp [root] at reached
  | some proto =>
    simp only [root, KineticP2POperation.entry, descend_populate] at found reached
    rw [reached] at found
    obtain ⟨sub, visited, here⟩ := Option.bind_eq_some_iff.mp found
    obtain ⟨⟨peer, operations⟩, _, rfl⟩ := Option.map_eq_some_iff.mp visited
    obtain ⟨protoPeer, protos⟩ := part
    simp only [populateP2PStatusCodes, KineticP2POperation.operations, populateOperations_getElem?] at here
    obtain ⟨before, _, rfl⟩ := Option.map_eq_some_iff.mp here
    simp only [Option.bind_some, ProtoP2POperation.operation]
    cases protos[i]? with
    | none => rfl
    | some first => simp only [populateOperation_eq]

theorem statusAt_of_stopped {response : Option P2PResponse} (stopped : P2PResponse.descend response path = none) :
    P2PResponse.statusAt response path i = .invalid := by
  unfold P2PResponse.statusAt
  rw [stopped]
  rfl

/-- The results are right if and only if no operation was left with another one that the response does not reach. -/
theorem resultsReach_iff (response : Option P2PResponse) (op : KineticP2POperation) :
    ResultsReach response op ↔ ∀ path i data, op.entry path i = some data →
      P2PResponse.descend response path = none → data.resultStatus = .invalid := by
  constructor
  · intro reach path i data found stopped
    rw [← statusAt_of_stopped stopped]
    exact reach path i data ((entry_of_stopped op stopped i).trans found)
  · intro stale path i data found
    by_cases stopped : P2PResponse.descend response path = none
    · rw [statusAt_of_stopped stopped]
      exact stale path i data ((entry_of_stopped op stopped i).symm.trans found) stopped
    · exact entry_of_reached op stopped found

theorem operationWithStatus_eq (status : KineticStatus) (data : KineticP2POperationData KineticP2POperation) :
    operationWithStatus status data = { data with
      chainedOperation := data.chainedOperation.map (KineticP2POperation.withStatus status), resultStatus := status } := by
  obtain ⟨key, version, newKey, chainedOperation, previous⟩ := data
  cases chainedOperation with
  | none => simp only [operationWithStatus, chainedWithStatus, Option.map_none]
  | some chained => simp only [operationWithStatus, chainedWithStatus, Option.map_some]

theorem operationsWithStatus_eq (status : KineticStatus) (operations : List (KineticP2POperationData KineticP2POperation)) :
    operationsWithStatus status operations = operations.map (operationWithStatus status) := by
  induction operations with
  | nil => simp only [operationsWithStatus, List.map_nil]
  | cons data rest ih => simp only [operationsWithStatus, List.map_cons, ih]

theorem withStatus_operations (status : KineticStatus) (op : KineticP2POperation) :
    (op.withStatus status).operations = op.operations.map (operationWithStatus status) := by
  obtain ⟨peer, operations⟩ := op
  simp only [KineticP2POperation.withStatus, KineticP2POperation.operations, operationsWithStatus_eq]

theorem descend_withStatus (path : List Nat) (status : KineticStatus) (op : KineticP2POperation) :
    KineticP2POperation.descend path (op.withStatus status) =
      (KineticP2POperation.descend path op).map (KineticP2POperation.withStatus status) := by
  induction path generalizing op with
  | nil => rfl
  | cons i path ih =>
    simp only [KineticP2POperation.descend, withStatus_operations, List.getElem?_map]
    cases op.operations[i]? with
    | none => rfl
    | some data =>
      simp only [Option.map_some, Option.bind_some, operationWithStatus_eq]
      cases data.chainedOperation with
      | none => rfl
      | some chained => exact ih chained

theorem entry_withStatus (path : List Nat) (i : Nat) (status : KineticStatus) (op : KineticP2POperation) :
    (op.withStatus status).entry path i = (op.entry path i).map (operationWithStatus status) := by
  simp only [KineticP2POperation.entry, descend_withStatus]
  cases KineticP2POperation.descend path op with
  | none => rfl
  | some sub => simp only [Option.map_some, Option.bind_some, withStatus_operations, List.getElem?_map]

theorem withStatus_withStatus (first second : KineticStatus) (op : KineticP2POperation) :
    (op.withStatus first).withStatus second = op.withStatus second := by
  induction op using KineticP2POperation.tree_induction with
  | step peer operations ih =>
    simp only [KineticP2POperation.withStatus, operationsWithStatus_eq, List.map_map]
    refine congrArg (KineticP2POperation.mk peer) (List.map_congr_left fun data member => ?_)
    simp only [Function.comp_apply, operationWithStatus_eq]
    cases found : data.chainedOperation with
    | none => rfl
    | some chained => simp only [Option.map_some, ih data member chained found]

/-- The callback with a success status gives every operation of the tree its result if and only if no operation below the
point where the response stops has another result than `KINETIC_STATUS_INVALID` from before; and it does so whatever the
results were before if and only if the response stops nowhere above an operation. -/
theorem p2p_results_reach_iff (response : Option P2PResponse) (op : KineticP2POperation) :
    (ResultsReach response op ↔ ∀ path i data, op.entry path i = some data →
      P2PResponse.descend response path = none → data.resultStatus = .invalid) ∧
    ((∀ before : KineticP2POperation, before.withStatus .invalid = op.withStatus .invalid → ResultsReach response before) ↔
      ∀ path i data, op.entry path i = some data → P2PResponse.descend response path ≠ none) := by
  refine ⟨resultsReach_iff response op, fun reach path i data found stopped => ?_, fun reached before same => ?_⟩
  · have marked := (resultsReach_iff response _).mp (reach (op.withStatus .success) (withStatus_withStatus _ _ op))
    have stale := marked path i (operationWithStatus .success data) (by rw [entry_withStatus, found, Option.map_some]) stopped
    rw [operationWithStatus_eq] at stale
    cases stale
  · refine (resultsReach_iff response before).mpr fun path i data found stopped => ?_
    have shape := congrArg (fun tree : KineticP2POperation => tree.entry path i) same
    simp only [entry_withStatus, found, Option.map_some] at shape
    obtain ⟨other, here, _⟩ := Option.map_eq_some_iff.mp shape.symm
    exact absurd stopped (reached path i other here)

/-- The tree `relayed` pushed once before with success, and a response that reports on the first push only. -/
def relayedBefore : KineticP2POperation := relayed.withStatus .success

def relayedResponse : Option P2PResponse :=
  some ⟨some ⟨some ⟨some (.mk ⟨none, false, 0, false, false⟩
    [⟨false, ⟨none, 0⟩, false, ⟨none, 0⟩, false, ⟨none, 0⟩, false, false, none, some ⟨some .remoteConnectionError⟩⟩])⟩⟩⟩

/-- The second push keeps its success from before although the first one failed. -/
theorem p2p_result_stale :
    (((kineticCallbacksP2POperation relayedResponse relayedBefore .success).2.entry [] 0).map
      KineticP2POperationData.resultStatus) = some .connectionError ∧
    (((kineticCallbacksP2POperation relayedResponse relayedBefore .success).2.entry [0] 0).map
      KineticP2POperationData.resultStatus) = some .success ∧
    P2PResponse.statusAt relayedResponse [0] 0 = .invalid ∧ ¬ ResultsReach relayedResponse relayedBefore := by
  refine ⟨rfl, rfl, rfl, fun reach => ?_⟩
  have stale := reach [0] 0 _ rfl
  cases stale

end Results

end Kinetic
