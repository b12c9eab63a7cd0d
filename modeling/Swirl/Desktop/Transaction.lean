import Swirl.Lib.Runs

set_option autoImplicit false

/-! # Transactions

The dirty list, the transactions and the life of the nodes, as `desktop/transaction.c` and
`tree/node.c` run them. The rest of the compositor is a `World` of its own type `W`; what the
transactions ask of it (the copy of a node's state, whether a view must be configured, what
applying a state and freeing a node do) is an `Env`. A transaction and a node name an instruction
by its address, a number. The record of a freed node stays as it was when the node was freed, and
`destroyed` lists what held at that moment.
-/

namespace Swirl

abbrev NodeId := Nat

/-- `struct sway_transaction_instruction` -/
structure Instruction (S : Type) where
  id : Nat
  node : NodeId
  state : S
  serial : Nat
  serverRequest : Bool
  waiting : Bool

/-- `struct sway_transaction`; `timer` says that the timer is armed. -/
structure Transaction (S : Type) where
  instructions : List (Instruction S)
  numWaiting : Nat
  timer : Bool

/-- What `struct sway_node` keeps for the transactions. -/
structure NodeRecord where
  dirty : Bool
  destroying : Bool
  ntxnrefs : Nat
  instruction : Option Nat

/-- What held when a node was freed: whether it was marked, whether the dirty list held it, and
how many instructions still to be freed named it. -/
structure Destruction where
  node : NodeId
  destroying : Bool
  listed : Bool
  references : Nat

/-- What freeing a node does to other nodes: `workspace_destroy` begins to destroy what is left
in its pool, and that marks parents and neighbours. -/
inductive Effect where
  | setDirty (n : NodeId)
  | beginDestroy (n : NodeId)

/-- The content box of a container state, as the acknowledgement by geometry compares it. -/
structure ContentBox where
  x : Int
  y : Int
  width : Int
  height : Int
  deriving DecidableEq

/-- The rest of the compositor, as the transactions see it. -/
structure Env (W S : Type) where
  /-- `copy_output_state`, `copy_workspace_state`, `copy_container_state` -/
  copyState : W → NodeId → S
  /-- `node_is_view` -/
  isView : W → NodeId → Bool
  /-- `view_is_visible` -/
  isVisible : W → NodeId → Bool
  /-- The comparison of the current and the new content box in `should_configure`. -/
  boxChanged : W → NodeId → S → Bool
  /-- `view_configure`: the world after it and the serial of the configure. -/
  viewConfigure : W → NodeId → S → W × Nat
  /-- `apply_output_state`, `apply_workspace_state`, `apply_container_state` -/
  applyState : W → NodeId → S → W
  /-- `arrange_root` and `cursor_rebase_all` -/
  arrangeRoot : W → W
  /-- `output_destroy`, `workspace_destroy`, `container_destroy` -/
  destroy : W → NodeId → W × List Effect
  /-- The content box of a copied state. -/
  contentBox : S → ContentBox
  /-- Whether `wl_event_loop_add_timer` finds the memory. -/
  timerCreated : W → Bool

/-- `struct sway_server`, with the debug flags the transactions read. -/
structure Server (W S : Type) where
  world : W
  node : NodeId → NodeRecord
  dirtyNodes : List NodeId
  queuedTransaction : Option (Transaction S)
  pendingTransaction : Option (Transaction S)
  nextId : Nat
  noatomic : Bool
  txnWait : Bool
  destroyed : List Destruction

variable {W S : Type}

namespace Server

def modNode (s : Server W S) (n : NodeId) (f : NodeRecord → NodeRecord) : Server W S :=
  { s with node := Function.update s.node n (f (s.node n)) }

/-- A server before the first node is touched. -/
def start (w : W) (noatomic txnWait : Bool) : Server W S :=
  { world := w, node := fun _ => ⟨false, false, 0, none⟩, dirtyNodes := [],
    queuedTransaction := none, pendingTransaction := none, nextId := 0, noatomic, txnWait,
    destroyed := [] }

end Server

/-! ## Marking nodes -/

/-- `node_set_dirty` -/
def nodeSetDirty (s : Server W S) (n : NodeId) : Server W S :=
  if (s.node n).dirty || (s.node n).destroying then s
  else
    { s.modNode n fun k => { k with dirty := true } with dirtyNodes := s.dirtyNodes ++ [n] }

/-- What `container_begin_destroy`, `workspace_begin_destroy` and `output_begin_destroy` do to
the node itself. -/
def nodeBeginDestroy (s : Server W S) (n : NodeId) : Server W S :=
  (nodeSetDirty s n).modNode n fun k => { k with destroying := true }

/-- One effect of freeing a node. -/
def Effect.run (s : Server W S) : Effect → Server W S
  | .setDirty n => nodeSetDirty s n
  | .beginDestroy n => nodeBeginDestroy s n

/-! ## Freeing a transaction -/

/-- The instructions of a transaction that name a node. -/
def instructionCount (is : List (Instruction S)) (n : NodeId) : Nat :=
  (is.map Instruction.node).count n

/-- The instructions of a transaction that may not be there. -/
def instructionsOf : Option (Transaction S) → List (Instruction S)
  | none => []
  | some tx => tx.instructions

/-- The call of the destructor of a node, with the instructions still to be freed. -/
def nodeDestroy (env : Env W S) (rest : List (Instruction S)) (s : Server W S) (n : NodeId) :
    Server W S :=
  let record : Destruction :=
    { node := n, destroying := (s.node n).destroying, listed := decide (n ∈ s.dirtyNodes),
      references :=
        instructionCount rest n + instructionCount (instructionsOf s.pendingTransaction) n }
  let r := env.destroy s.world n
  r.2.foldl Effect.run { s with world := r.1, destroyed := s.destroyed ++ [record] }

/-- The loop of `transaction_destroy`. -/
def transactionDestroy (env : Env W S) : List (Instruction S) → Server W S → Server W S
  | [], s => s
  | i :: rest, s =>
      let s := s.modNode i.node fun k =>
        { k with
          ntxnrefs := k.ntxnrefs - 1
          instruction := if k.instruction = some i.id then none else k.instruction }
      let k := s.node i.node
      let s :=
        if k.destroying = true ∧ k.ntxnrefs = 0 ∧ k.dirty = false then nodeDestroy env rest s i.node
        else s
      transactionDestroy env rest s

/-! ## Filling a transaction -/

/-- `transaction_add_node` on `server.pending_transaction` -/
def transactionAddNode (env : Env W S) (serverRequest : Bool) (s : Server W S) (n : NodeId) :
    Server W S :=
  match s.pendingTransaction with
  | none => s
  | some tx =>
      let state := env.copyState s.world n
      if 0 < (s.node n).ntxnrefs ∧ tx.instructions.any (fun i => decide (i.node = n)) then
        let idx := tx.instructions.findIdx fun i => decide (i.node = n)
        let instructions := tx.instructions.modify idx fun i =>
          { i with state, serverRequest := i.serverRequest || serverRequest }
        { s with pendingTransaction := some { tx with instructions } }
      else
        let fresh : Instruction S :=
          { id := s.nextId, node := n, state, serial := 0, serverRequest, waiting := false }
        { s.modNode n fun k => { k with ntxnrefs := k.ntxnrefs + 1 } with
          pendingTransaction := some { tx with instructions := tx.instructions ++ [fresh] }
          nextId := s.nextId + 1 }

/-- One round of the loop of `_transaction_commit_dirty`: a dirty node is added, and is no longer
dirty. -/
def addDirtyNode (env : Env W S) (serverRequest : Bool) (s : Server W S) (n : NodeId) :
    Server W S :=
  (transactionAddNode env serverRequest s n).modNode n fun k => { k with dirty := false }

/-- The loop of `_transaction_commit_dirty`. -/
def addDirtyNodes (env : Env W S) (serverRequest : Bool) (s : Server W S) : Server W S :=
  { s.dirtyNodes.foldl (addDirtyNode env serverRequest) s with dirtyNodes := [] }

/-! ## Committing and applying -/

/-- `should_configure` -/
def shouldConfigure (env : Env W S) (s : Server W S) (i : Instruction S) : Bool :=
  env.isView s.world i.node && !(s.node i.node).destroying && i.serverRequest &&
  env.boxChanged s.world i.node i.state

/-- The loop of `transaction_commit`: the instructions so far, in order, and `num_waiting`. -/
def commitInstructions (env : Env W S) :
    List (Instruction S) → Server W S → Server W S × List (Instruction S) × Nat
  | [], s => (s, [], 0)
  | i :: rest, s =>
      let hidden := env.isView s.world i.node && !(s.node i.node).destroying &&
        !env.isVisible s.world i.node
      let configured := shouldConfigure env s i
      let r := env.viewConfigure s.world i.node i.state
      let waits := configured && !hidden
      let i' := if configured then { i with serial := r.2, waiting := i.waiting || waits } else i
      let s := if configured then { s with world := r.1 } else s
      let s := s.modNode i.node fun k => { k with instruction := some i.id }
      let r := commitInstructions env rest s
      (r.1, i' :: r.2.1, (if waits then 1 else 0) + r.2.2)

/-- `transaction_commit`: the server and the committed transaction. -/
def transactionCommit (env : Env W S) (s : Server W S) (tx : Transaction S) :
    Server W S × Transaction S :=
  let r := commitInstructions env tx.instructions s
  let n := if s.noatomic then 0 else if s.txnWait then r.2.2 + 1000000 else r.2.2
  let n' := if env.timerCreated r.1.world then n else 0
  (r.1, { instructions := r.2.1, numWaiting := n', timer := decide (0 < n') })

/-- `transaction_apply` -/
def transactionApply (env : Env W S) (is : List (Instruction S)) (s : Server W S) : Server W S :=
  is.foldl
    (fun s i =>
      { s with world := env.applyState s.world i.node i.state }.modNode i.node fun k =>
        { k with instruction := none }) s

/-- The part of `transaction_progress` that finishes the queued transaction. -/
def finishQueued (env : Env W S) (s : Server W S) (tx : Transaction S) : Server W S :=
  let s := transactionApply env tx.instructions s
  let s := transactionDestroy env tx.instructions { s with world := env.arrangeRoot s.world }
  { s with queuedTransaction := none }

/-- `transaction_commit_pending`, but for the `transaction_progress` it ends with. -/
def queuePending (env : Env W S) (s : Server W S) : Server W S :=
  match s.queuedTransaction, s.pendingTransaction with
  | none, some tx =>
      let r := transactionCommit env { s with pendingTransaction := none } tx
      { r.1 with queuedTransaction := some r.2 }
  | _, _ => s

/-- `transaction_progress`, which calls itself through `transaction_commit_pending`, at most
`rounds` times. Two rounds are enough (`transactionProgress_rounds`). -/
def progressWithin (env : Env W S) : Nat → Server W S → Server W S
  | 0, s => s
  | rounds + 1, s =>
      match s.queuedTransaction with
      | none => s
      | some tx =>
          if 0 < tx.numWaiting then s
          else
            let s := finishQueued env s tx
            match s.pendingTransaction with
            | none => s
            | some _ => progressWithin env rounds (queuePending env s)

/-- `transaction_progress` -/
def transactionProgress (env : Env W S) (s : Server W S) : Server W S := progressWithin env 2 s

/-- `transaction_commit_pending` -/
def transactionCommitPending (env : Env W S) (s : Server W S) : Server W S :=
  match s.queuedTransaction with
  | some _ => s
  | none => transactionProgress env (queuePending env s)

/-- `_transaction_commit_dirty` -/
def transactionCommitDirty (env : Env W S) (serverRequest : Bool) (s : Server W S) :
    Server W S :=
  if s.dirtyNodes = [] then s
  else
    let tx := s.pendingTransaction.getD { instructions := [], numWaiting := 0, timer := false }
    transactionCommitPending env
      (addDirtyNodes env serverRequest { s with pendingTransaction := some tx })

/-! ## Acknowledgements and the timer -/

/-- The instruction at an address. -/
def findInstruction (s : Server W S) (id : Nat) : Option (Instruction S) :=
  (instructionsOf s.queuedTransaction ++ instructionsOf s.pendingTransaction).find?
    fun i => decide (i.id = id)

/-- `instruction->transaction->num_waiting` after an acknowledgement. -/
def Transaction.ready (tx : Transaction S) (i : Instruction S) : Transaction S :=
  if i.waiting ∧ 0 < tx.numWaiting ∧ (tx.instructions.any fun j => decide (j.id = i.id)) then
    { tx with
      numWaiting := tx.numWaiting - 1, timer := tx.timer && decide (1 < tx.numWaiting) }
  else tx

/-- `set_instruction_ready` -/
def setInstructionReady (env : Env W S) (s : Server W S) (i : Instruction S) : Server W S :=
  let s := { s with
    queuedTransaction := s.queuedTransaction.map (Transaction.ready · i)
    pendingTransaction := s.pendingTransaction.map (Transaction.ready · i) }
  transactionProgress env (s.modNode i.node fun k => { k with instruction := none })

/-- `transaction_notify_view_ready_by_serial` -/
def transactionNotifyViewReadyBySerial (env : Env W S) (s : Server W S) (n : NodeId)
    (serial : Nat) : Server W S :=
  match (s.node n).instruction.bind (findInstruction s) with
  | some i => if i.serial = serial then setInstructionReady env s i else s
  | none => s

/-- `transaction_notify_view_ready_by_geometry` -/
def transactionNotifyViewReadyByGeometry (env : Env W S) (s : Server W S) (n : NodeId)
    (box : ContentBox) : Server W S :=
  match (s.node n).instruction.bind (findInstruction s) with
  | some i => if env.contentBox i.state = box then setInstructionReady env s i else s
  | none => s

/-- `handle_timeout`, which only an armed timer calls. -/
def handleTimeout (env : Env W S) (s : Server W S) : Server W S :=
  match s.queuedTransaction with
  | some tx =>
      if tx.timer then
        transactionProgress env
          { s with queuedTransaction := some { tx with numWaiting := 0, timer := false } }
      else s
  | none => s

/-! ## Runs -/

/-- What can happen to the transactions. `edit` is any change of the rest of the compositor
between two of these calls. -/
inductive TxnEvent (W : Type) where
  | setDirty (n : NodeId)
  | beginDestroy (n : NodeId)
  | commitDirty
  | commitDirtyClient
  | readyBySerial (n : NodeId) (serial : Nat)
  | readyByGeometry (n : NodeId) (box : ContentBox)
  | timeout
  | edit (w : W)

/-- One event. -/
def txnStep (env : Env W S) (s : Server W S) : TxnEvent W → Server W S
  | .setDirty n => nodeSetDirty s n
  | .beginDestroy n => nodeBeginDestroy s n
  | .commitDirty => transactionCommitDirty env true s
  | .commitDirtyClient => transactionCommitDirty env false s
  | .readyBySerial n serial => transactionNotifyViewReadyBySerial env s n serial
  | .readyByGeometry n box => transactionNotifyViewReadyByGeometry env s n box
  | .timeout => handleTimeout env s
  | .edit w => { s with world := w }

end Swirl
