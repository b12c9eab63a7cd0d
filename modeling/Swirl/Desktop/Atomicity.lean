import Swirl.Common.List
import Swirl.Desktop.Lifetime

set_option autoImplicit false

/-! # When a transaction is applied

What an event does to the transactions is traced as a list of commits and applications, and the
acknowledgements since the last commit are collected beside the run. The counter of the queued
transaction is the number of its waiting instructions without an acknowledgement, and the traces
are those of a barrier: a transaction is committed, waits until the counter is zero, and is applied
before the next one is committed.
-/

namespace Swirl

open Lib

variable {W S : Type}

/-! ## Traces -/

/-- A transaction is committed, or the queued one is applied. -/
inductive TxnAction (S : Type) where
  | commit (tx : Transaction S)
  | apply (tx : Transaction S)

/-- The commit `transaction_commit_pending` has just made. -/
def commitAction (s : Server W S) : List (TxnAction S) :=
  match s.queuedTransaction with
  | some tx => [.commit tx]
  | none => []

/-- `progressWithin`, with what it applies and commits. -/
def progressTraced (env : Env W S) : Nat → Server W S → Server W S × List (TxnAction S)
  | 0, s => (s, [])
  | rounds + 1, s =>
      match s.queuedTransaction with
      | none => (s, [])
      | some tx =>
          if 0 < tx.numWaiting then (s, [])
          else
            let s := finishQueued env s tx
            match s.pendingTransaction with
            | none => (s, [.apply tx])
            | some _ =>
                let s := queuePending env s
                let r := progressTraced env rounds s
                (r.1, .apply tx :: (commitAction s ++ r.2))

/-- `transaction_commit_pending`, with what it applies and commits. -/
def commitPendingTraced (env : Env W S) (s : Server W S) : Server W S × List (TxnAction S) :=
  match s.queuedTransaction with
  | some _ => (s, [])
  | none =>
      let s := queuePending env s
      let r := progressTraced env 2 s
      (r.1, commitAction s ++ r.2)

/-- The server right before `transaction_commit_pending` in `_transaction_commit_dirty`. -/
def dirtyAdded (env : Env W S) (serverRequest : Bool) (s : Server W S) : Server W S :=
  addDirtyNodes env serverRequest
    { s with
      pendingTransaction :=
        some (s.pendingTransaction.getD { instructions := [], numWaiting := 0, timer := false }) }

/-- The server right before `transaction_progress` in `set_instruction_ready`. -/
def instructionReady (s : Server W S) (i : Instruction S) : Server W S :=
  { s with
    queuedTransaction := s.queuedTransaction.map (Transaction.ready · i)
    pendingTransaction := s.pendingTransaction.map (Transaction.ready · i) }.modNode i.node
    fun k => { k with instruction := none }

/-- The instruction an event acknowledges, if its serial or its geometry is the right one. -/
def readyInstruction (env : Env W S) (s : Server W S) : TxnEvent W → Option (Instruction S)
  | .readyBySerial n serial =>
      ((s.node n).instruction.bind (findInstruction s)).filter fun i => decide (i.serial = serial)
  | .readyByGeometry n box =>
      ((s.node n).instruction.bind (findInstruction s)).filter fun i =>
        decide (env.contentBox i.state = box)
  | _ => none

/-- The server after the timer of the queued transaction has fired. -/
def timedOut (s : Server W S) (tx : Transaction S) : Server W S :=
  { s with queuedTransaction := some { tx with numWaiting := 0, timer := false } }

/-- One event, with what it applies and commits. -/
def txnTraced (env : Env W S) (s : Server W S) (e : TxnEvent W) :
    Server W S × List (TxnAction S) :=
  match e with
  | .commitDirty => if s.dirtyNodes = [] then (s, []) else commitPendingTraced env (dirtyAdded env true s)
  | .commitDirtyClient =>
      if s.dirtyNodes = [] then (s, []) else commitPendingTraced env (dirtyAdded env false s)
  | .readyBySerial .. | .readyByGeometry .. =>
      match readyInstruction env s e with
      | some i => progressTraced env 2 (instructionReady s i)
      | none => (s, [])
  | .timeout =>
      match s.queuedTransaction with
      | some tx => if tx.timer then progressTraced env 2 (timedOut s tx) else (s, [])
      | none => (s, [])
  | .setDirty n => (nodeSetDirty s n, [])
  | .beginDestroy n => (nodeBeginDestroy s n, [])
  | .edit w => ({ s with world := w }, [])

theorem progressTraced_fst (env : Env W S) (rounds : Nat) (s : Server W S) :
    (progressTraced env rounds s).1 = progressWithin env rounds s := by
  induction rounds generalizing s with
  | zero => rfl
  | succ n ih =>
      rw [progressTraced, progressWithin]
      cases s.queuedTransaction with
      | none => rfl
      | some tx =>
          dsimp only
          split
          · rfl
          · cases (finishQueued env s tx).pendingTransaction with
            | none => rfl
            | some _ => exact ih _

theorem commitPendingTraced_fst (env : Env W S) (s : Server W S) :
    (commitPendingTraced env s).1 = transactionCommitPending env s := by
  unfold commitPendingTraced transactionCommitPending
  cases s.queuedTransaction with
  | none => exact progressTraced_fst env 2 _
  | some tx => rfl

/-- **Tracing changes nothing.** -/
theorem txnTraced_fst (env : Env W S) (s : Server W S) (e : TxnEvent W) :
    (txnTraced env s e).1 = txnStep env s e := by
  cases e with
  | commitDirty =>
      unfold txnTraced txnStep transactionCommitDirty
      dsimp only
      split
      · rfl
      · exact commitPendingTraced_fst env _
  | commitDirtyClient =>
      unfold txnTraced txnStep transactionCommitDirty
      dsimp only
      split
      · rfl
      · exact commitPendingTraced_fst env _
  | readyBySerial n serial =>
      unfold txnTraced txnStep transactionNotifyViewReadyBySerial readyInstruction
      dsimp only
      cases (s.node n).instruction.bind (findInstruction s) with
      | none => rfl
      | some i =>
          by_cases h : i.serial = serial
          · simp only [Option.filter, h, decide_true, if_true]
            exact progressTraced_fst env 2 _
          · simp [Option.filter, h]
  | readyByGeometry n box =>
      unfold txnTraced txnStep transactionNotifyViewReadyByGeometry readyInstruction
      dsimp only
      cases (s.node n).instruction.bind (findInstruction s) with
      | none => rfl
      | some i =>
          by_cases h : env.contentBox i.state = box
          · simp only [Option.filter, h, decide_true, if_true]
            exact progressTraced_fst env 2 _
          · simp [Option.filter, h]
  | timeout =>
      unfold txnTraced txnStep handleTimeout
      dsimp only
      cases s.queuedTransaction with
      | none => rfl
      | some tx =>
          dsimp only
          split
          · exact progressTraced_fst env 2 _
          · rfl
  | setDirty n => rfl
  | beginDestroy n => rfl
  | edit w => rfl

/-! ## What the functions leave alone -/

/-- Two servers with the same addresses to hand out and the same debug flags. -/
structure SameFlags (s s' : Server W S) : Prop where
  nextId : s'.nextId = s.nextId
  noatomic : s'.noatomic = s.noatomic
  txnWait : s'.txnWait = s.txnWait

namespace SameFlags

variable {s s' s'' : Server W S}

theorem refl (s : Server W S) : SameFlags s s := ⟨rfl, rfl, rfl⟩

theorem trans (h : SameFlags s s') (h' : SameFlags s' s'') : SameFlags s s'' :=
  ⟨h'.nextId.trans h.nextId, h'.noatomic.trans h.noatomic, h'.txnWait.trans h.txnWait⟩

end SameFlags

theorem sameFlags_nodeSetDirty (s : Server W S) (n : NodeId) : SameFlags s (nodeSetDirty s n) := by
  unfold nodeSetDirty
  split <;> exact ⟨rfl, rfl, rfl⟩

/-- Marking a node leaves the pointers to the instructions alone. -/
theorem instruction_nodeSetDirty (s : Server W S) (n m : NodeId) :
    ((nodeSetDirty s n).node m).instruction = (s.node m).instruction := by
  unfold nodeSetDirty
  split
  · rfl
  · by_cases h : m = n
    · subst h; simp [Server.modNode]
    · simp [Server.modNode, h]

theorem instruction_nodeBeginDestroy (s : Server W S) (n m : NodeId) :
    ((nodeBeginDestroy s n).node m).instruction = (s.node m).instruction := by
  unfold nodeBeginDestroy
  rw [← instruction_nodeSetDirty s n m]
  by_cases h : m = n
  · subst h; simp [Server.modNode]
  · simp [Server.modNode, h]

theorem effects_pointers (es : List Effect) (s : Server W S) :
    SameFlags s (es.foldl Effect.run s) ∧
      ∀ n, ((es.foldl Effect.run s).node n).instruction = (s.node n).instruction := by
  induction es generalizing s with
  | nil => exact ⟨SameFlags.refl s, fun _ => rfl⟩
  | cons e es ih =>
      obtain ⟨hflags, hptr⟩ := ih (e.run s)
      have he : SameFlags s (e.run s) ∧ ∀ n, ((e.run s).node n).instruction =
          (s.node n).instruction := by
        cases e with
        | setDirty m => exact ⟨sameFlags_nodeSetDirty s m, instruction_nodeSetDirty s m⟩
        | beginDestroy m =>
            refine ⟨(sameFlags_nodeSetDirty s m).trans ⟨rfl, rfl, rfl⟩, ?_⟩
            exact instruction_nodeBeginDestroy s m
      exact ⟨he.1.trans hflags, fun n => (hptr n).trans (he.2 n)⟩

/-- Freeing a transaction sets no pointer. -/
theorem transactionDestroy_pointers (env : Env W S) (is : List (Instruction S))
    {s : Server W S} (hs : ∀ n, (s.node n).instruction = none) :
    SameFlags s (transactionDestroy env is s) ∧
      ∀ n, ((transactionDestroy env is s).node n).instruction = none := by
  induction is generalizing s with
  | nil => exact ⟨SameFlags.refl s, hs⟩
  | cons i is ih =>
      rw [transactionDestroy]
      set t := s.modNode i.node fun k =>
        { k with
          ntxnrefs := k.ntxnrefs - 1
          instruction := if k.instruction = some i.id then none else k.instruction } with ht
      have htptr : ∀ n, (t.node n).instruction = none := by
        intro n
        by_cases h : n = i.node
        · subst h; simp [ht, Server.modNode, hs]
        · simp [ht, Server.modNode, h, hs]
      have htflags : SameFlags s t := ⟨rfl, rfl, rfl⟩
      split
      next =>
        obtain ⟨hflags, hptr⟩ := effects_pointers (env.destroy t.world i.node).2
          { t with
            world := (env.destroy t.world i.node).1
            destroyed := t.destroyed ++ [⟨i.node, (t.node i.node).destroying,
              decide (i.node ∈ t.dirtyNodes), instructionCount is i.node +
                instructionCount (instructionsOf t.pendingTransaction) i.node⟩] }
        have hdestroy : SameFlags t (nodeDestroy env is t i.node) :=
          ⟨hflags.nextId, hflags.noatomic, hflags.txnWait⟩
        have hrest := ih (s := nodeDestroy env is t i.node) (fun n => (hptr n).trans (htptr n))
        exact ⟨(htflags.trans hdestroy).trans hrest.1, hrest.2⟩
      next =>
        have hrest := ih htptr
        exact ⟨htflags.trans hrest.1, hrest.2⟩

/-- Applying a transaction clears the pointers of its nodes. -/
theorem transactionApply_pointers (env : Env W S) (is : List (Instruction S)) (s : Server W S) :
    SameFlags s (transactionApply env is s) ∧
      ∀ n, ((transactionApply env is s).node n).instruction =
        if n ∈ is.map Instruction.node then none else (s.node n).instruction := by
  induction is generalizing s with
  | nil => exact ⟨SameFlags.refl s, fun _ => rfl⟩
  | cons i is ih =>
      set t := { s with world := env.applyState s.world i.node i.state }.modNode i.node
        fun k => { k with instruction := none } with ht
      obtain ⟨hflags, hptr⟩ := ih t
      have ht' : SameFlags s t := ⟨rfl, rfl, rfl⟩
      refine ⟨ht'.trans hflags, fun n => (hptr n).trans ?_⟩
      by_cases h : n = i.node
      · subst h; simp [ht, Server.modNode]
      · simp [ht, Server.modNode, h]

/-- Once the queued transaction is finished, no pointer is left. -/
theorem finishQueued_pointers (env : Env W S) {s : Server W S} {tx : Transaction S}
    (hs : ∀ n id, (s.node n).instruction = some id → n ∈ tx.instructions.map Instruction.node) :
    SameFlags s (finishQueued env s tx) ∧
      ∀ n, ((finishQueued env s tx).node n).instruction = none := by
  obtain ⟨hflags, hptr⟩ := transactionApply_pointers env tx.instructions s
  have hnone : ∀ n, ((transactionApply env tx.instructions s).node n).instruction = none := by
    intro n
    rw [hptr]
    split
    next => rfl
    next h =>
      cases hn : (s.node n).instruction with
      | none => rfl
      | some id => exact absurd (hs n id hn) h
  have hd := transactionDestroy_pointers env tx.instructions
    (s := { transactionApply env tx.instructions s with
      world := env.arrangeRoot (transactionApply env tx.instructions s).world }) hnone
  exact ⟨hflags.trans ⟨hd.1.nextId, hd.1.noatomic, hd.1.txnWait⟩, hd.2⟩

/-! ## Committing -/

/-- `transaction_commit` sets the pointers of the nodes, and counts what waits. -/
theorem commitInstructions_pointers (env : Env W S) (is : List (Instruction S)) (s : Server W S)
    (hnodes : (is.map Instruction.node).Nodup) (hquiet : ∀ i ∈ is, i.waiting = false) :
    let r := commitInstructions env is s
    SameFlags s r.1 ∧ r.2.1.map Instruction.id = is.map Instruction.id ∧
      r.2.2 = r.2.1.countP (fun i => i.waiting) ∧
      ∀ n id, (r.1.node n).instruction = some id ↔
        (∃ i ∈ r.2.1, i.node = n ∧ i.id = id) ∨
          (n ∉ is.map Instruction.node ∧ (s.node n).instruction = some id) := by
  induction is generalizing s with
  | nil => exact ⟨SameFlags.refl s, rfl, rfl, fun n id => by simp [commitInstructions]⟩
  | cons i is ih =>
      obtain ⟨hi, hnodes'⟩ := List.nodup_cons.mp hnodes
      have hquiet' : ∀ j ∈ is, j.waiting = false := fun j hj => hquiet j (List.mem_cons_of_mem i hj)
      have hw : i.waiting = false := hquiet i List.mem_cons_self
      rw [commitInstructions]
      set configured := shouldConfigure env s i
      set t := (if configured = true then
        { s with world := (env.viewConfigure s.world i.node i.state).1 } else s).modNode i.node
          fun k => { k with instruction := some i.id } with ht
      have htflags : SameFlags s t := by
        rw [ht]
        split <;> exact ⟨rfl, rfl, rfl⟩
      have htptr : ∀ n, (t.node n).instruction =
          if n = i.node then some i.id else (s.node n).instruction := by
        intro n
        rw [ht]
        by_cases h : n = i.node
        · subst h; split <;> simp [Server.modNode]
        · split <;> simp [Server.modNode, h]
      obtain ⟨hflags, hids, hcount, hptr⟩ := ih t hnodes' hquiet'
      have hnames := (commitInstructions_spec env is t).2
      refine ⟨htflags.trans hflags, ?_, ?_, fun n id => ?_⟩
      · simp only [List.map_cons, hids]
        split <;> rfl
      · simp only [List.countP_cons, hcount]
        rw [Nat.add_comm]
        congr 1
        by_cases hc : configured = true
        · simp only [hc, if_true, hw, Bool.false_or, Bool.true_and]
        · simp only [hc, if_false, hw, Bool.false_and, Bool.false_eq_true]
      · rw [hptr, htptr]
        have hhead : ∀ j : Instruction S, (if configured = true then
            { i with serial := (env.viewConfigure s.world i.node i.state).2, waiting := i.waiting ||
              (configured && !(env.isView s.world i.node && !(s.node i.node).destroying &&
                !env.isVisible s.world i.node)) } else i) = j → j.node = i.node ∧ j.id = i.id := by
          rintro j rfl
          split <;> exact ⟨rfl, rfl⟩
        obtain ⟨hnode, hid⟩ := hhead _ rfl
        simp only [List.mem_cons, or_and_right, exists_or, exists_eq_left]
        rw [hnode, hid]
        by_cases h : n = i.node
        · subst h
          have hno : ¬ ∃ j ∈ (commitInstructions env is t).2.1, j.node = i.node ∧ j.id = id := by
            rintro ⟨j, hj, hjn, -⟩
            exact hi (hnames ▸ hjn ▸ List.mem_map_of_mem hj)
          simp [hi, hno]
        · simp [h, Ne.symm h]

/-! ## Addresses -/

/-- The instructions of the two transactions have addresses of their own, below the next one, and
only committed instructions wait. -/
structure Addressed (s : Server W S) : Prop where
  ids : ((instructionsOf s.queuedTransaction ++ instructionsOf s.pendingTransaction).map
    Instruction.id).Nodup
  fresh : ∀ i ∈ instructionsOf s.queuedTransaction ++ instructionsOf s.pendingTransaction,
    i.id < s.nextId
  quiet : ∀ i ∈ instructionsOf s.pendingTransaction, i.waiting = false

/-- Being addressed depends on the addresses and on what waits in the pending transaction. -/
theorem Addressed.congr {s s' : Server W S} (h : Addressed s)
    (hq : (instructionsOf s'.queuedTransaction).map Instruction.id =
      (instructionsOf s.queuedTransaction).map Instruction.id)
    (hp : (instructionsOf s'.pendingTransaction).map (fun i => (i.id, i.waiting)) =
      (instructionsOf s.pendingTransaction).map fun i => (i.id, i.waiting))
    (hnext : s'.nextId = s.nextId) : Addressed s' := by
  have hpid : (instructionsOf s'.pendingTransaction).map Instruction.id =
      (instructionsOf s.pendingTransaction).map Instruction.id := by
    have := congrArg (List.map Prod.fst) hp
    simpa [Function.comp_def] using this
  have hids : (instructionsOf s'.queuedTransaction ++ instructionsOf s'.pendingTransaction).map
      Instruction.id = (instructionsOf s.queuedTransaction ++
        instructionsOf s.pendingTransaction).map Instruction.id := by
    rw [List.map_append, List.map_append, hq, hpid]
  refine ⟨by rw [hids]; exact h.ids, ?_, ?_⟩
  · intro i hi
    have hmem : i.id ∈ (instructionsOf s.queuedTransaction ++
        instructionsOf s.pendingTransaction).map Instruction.id := by
      rw [← hids]
      exact List.mem_map_of_mem hi
    obtain ⟨j, hj, hji⟩ := List.mem_map.mp hmem
    rw [hnext, ← hji]
    exact h.fresh j hj
  · intro i hi
    have hmem : (i.id, i.waiting) ∈ (instructionsOf s.pendingTransaction).map
        fun i => (i.id, i.waiting) := by
      rw [← hp]
      exact List.mem_map_of_mem (f := fun i : Instruction S => (i.id, i.waiting)) hi
    obtain ⟨j, hj, hji⟩ := List.mem_map.mp hmem
    rw [Prod.mk.injEq] at hji
    rw [← hji.2]
    exact h.quiet j hj

theorem map_modify_ids {is : List (Instruction S)} {f : Instruction S → Instruction S}
    (hf : ∀ i, (f i).id = i.id ∧ (f i).waiting = i.waiting) (idx : Nat) :
    (is.modify idx f).map (fun i => (i.id, i.waiting)) = is.map fun i => (i.id, i.waiting) := by
  induction is generalizing idx with
  | nil => simp
  | cons i is ih =>
      cases idx with
      | zero => simp [hf]
      | succ k => simp [ih]

/-- What `_transaction_commit_dirty` leaves alone while it fills the pending transaction. -/
structure Filled (s s' : Server W S) : Prop where
  queued : s'.queuedTransaction = s.queuedTransaction
  noatomic : s'.noatomic = s.noatomic
  txnWait : s'.txnWait = s.txnWait
  instruction : ∀ n, (s'.node n).instruction = (s.node n).instruction

theorem Filled.trans {s s' s'' : Server W S} (h : Filled s s') (h' : Filled s' s'') :
    Filled s s'' :=
  ⟨h'.queued.trans h.queued, h'.noatomic.trans h.noatomic, h'.txnWait.trans h.txnWait,
    fun n => (h'.instruction n).trans (h.instruction n)⟩

theorem filled_addDirtyNode (env : Env W S) (serverRequest : Bool) (s : Server W S) (n : NodeId) :
    Filled s (addDirtyNode env serverRequest s n) := by
  have hmod : ∀ (t : Server W S) (f : NodeRecord → NodeRecord),
      (∀ k, (f k).instruction = k.instruction) → Filled t (t.modNode n f) := by
    intro t f hf
    refine ⟨rfl, rfl, rfl, fun m => ?_⟩
    by_cases h : m = n
    · subst h; simp [Server.modNode, hf]
    · simp [Server.modNode, h]
  unfold addDirtyNode
  refine Filled.trans ?_ (hmod _ _ fun _ => rfl)
  unfold transactionAddNode
  split
  next => exact ⟨rfl, rfl, rfl, fun _ => rfl⟩
  next tx hp =>
    dsimp only
    split
    next => exact ⟨rfl, rfl, rfl, fun _ => rfl⟩
    next =>
      have h := hmod s (fun k => { k with ntxnrefs := k.ntxnrefs + 1 }) fun _ => rfl
      exact ⟨rfl, rfl, rfl, h.instruction⟩

theorem addressed_addDirtyNode (env : Env W S) (serverRequest : Bool) {s : Server W S}
    (h : Addressed s) (n : NodeId) : Addressed (addDirtyNode env serverRequest s n) := by
  unfold addDirtyNode
  refine Addressed.congr (s := transactionAddNode env serverRequest s n) ?_ rfl rfl rfl
  unfold transactionAddNode
  cases hp : s.pendingTransaction with
  | none => exact h
  | some tx =>
      dsimp only
      split
      next =>
        refine h.congr rfl ?_ rfl
        rw [hp]
        show (tx.instructions.modify _ _).map _ = tx.instructions.map _
        refine map_modify_ids (fun i => ?_) _
        exact ⟨rfl, rfl⟩
      next =>
        have hfresh := h.fresh
        have hquiet := h.quiet
        have hids := h.ids
        rw [hp] at hfresh hquiet hids
        simp only [instructionsOf] at hfresh hquiet hids
        refine ⟨?_, ?_, ?_⟩
        · show ((instructionsOf s.queuedTransaction ++ (tx.instructions ++ [_])).map
            Instruction.id).Nodup
          rw [← List.append_assoc, List.map_append, List.nodup_append_comm]
          refine List.nodup_cons.mpr ⟨?_, hids⟩
          intro hmem
          obtain ⟨j, hj, hji⟩ := List.mem_map.mp hmem
          have := hfresh j hj
          simp only at hji
          omega
        · intro i hi
          show i.id < s.nextId + 1
          have hi' : i ∈ instructionsOf s.queuedTransaction ++ (tx.instructions ++
            [(⟨s.nextId, n, env.copyState s.world n, 0, serverRequest, false⟩ : Instruction S)]) := hi
          rw [← List.append_assoc, List.mem_append, List.mem_singleton] at hi'
          rcases hi' with hi' | rfl
          · have := hfresh i hi'
            omega
          · exact Nat.lt_succ_self _
        · intro i hi
          have hi' : i ∈ tx.instructions ++
            [(⟨s.nextId, n, env.copyState s.world n, 0, serverRequest, false⟩ : Instruction S)] := hi
          rw [List.mem_append, List.mem_singleton] at hi'
          rcases hi' with hi' | rfl
          · exact hquiet i hi'
          · rfl

/-! ## Acknowledgements -/

/-- Whether an event is the acknowledgement an instruction waits for. -/
def acknowledges (env : Env W S) (i : Instruction S) : TxnEvent W → Bool
  | .readyBySerial n serial => decide (i.node = n ∧ i.serial = serial)
  | .readyByGeometry n box => decide (i.node = n ∧ env.contentBox i.state = box)
  | _ => false

/-- Whether one of the events acknowledged an instruction. -/
def acknowledged (env : Env W S) (acks : List (TxnEvent W)) (i : Instruction S) : Bool :=
  acks.any (acknowledges env i)

/-- The number of waiting instructions that no event has acknowledged. -/
def unacknowledged (env : Env W S) (acks : List (TxnEvent W)) (is : List (Instruction S)) : Nat :=
  is.countP fun i => i.waiting && !acknowledged env acks i

/-- The counter of a transaction is the number of its waiting instructions, unless the timer could
not be created. -/
def Opened (env : Env W S) (tx : Transaction S) : Prop :=
  tx.numWaiting = tx.instructions.countP (fun i => i.waiting) ∨
    tx.numWaiting = 0 ∧ ∃ w, env.timerCreated w = false

/-- **The barrier**: from a transaction that may be queued, the actions of an event lead to the one
queued after it. A transaction is applied as soon as its counter is zero, and not before; the next
one is committed only then. -/
inductive Progresses (env : Env W S) :
    Option (Transaction S) → List (TxnAction S) → Option (Transaction S) → Prop
  | idle : Progresses env none [] none
  | wait {tx : Transaction S} (h : 0 < tx.numWaiting) : Progresses env (some tx) [] (some tx)
  | apply {tx : Transaction S} {as : List (TxnAction S)} {tx' : Option (Transaction S)}
      (h : tx.numWaiting = 0) (hrest : Progresses env none as tx') :
      Progresses env (some tx) (.apply tx :: as) tx'
  | commit {tx : Transaction S} {as : List (TxnAction S)} {tx' : Option (Transaction S)}
      (h : Opened env tx) (hrest : Progresses env (some tx) as tx') :
      Progresses env none (.commit tx :: as) tx'

/-- The invariant of the pointers: the node of an instruction of the queued transaction points to
it until it is acknowledged, and no other node points anywhere. -/
structure Watched (env : Env W S) (s : Server W S) (acks : List (TxnEvent W)) : Prop where
  addressed : Addressed s
  pointer : ∀ n id, (s.node n).instruction = some id ↔
    ∃ i ∈ instructionsOf s.queuedTransaction,
      i.node = n ∧ i.id = id ∧ acknowledged env acks i = false
  noatomic : s.noatomic = false
  txnWait : s.txnWait = false
  life : LifetimeInv s

/-- The counter of the queued transaction, while it is not zero. -/
def Counted (env : Env W S) (s : Server W S) (acks : List (TxnEvent W)) : Prop :=
  ∀ tx, s.queuedTransaction = some tx → 0 < tx.numWaiting →
    tx.timer = true ∧ tx.numWaiting = unacknowledged env acks tx.instructions

/-- Filling the pending transaction hands out new addresses only. -/
theorem addressed_dirtyAdded (env : Env W S) (serverRequest : Bool) {s : Server W S}
    (h : Addressed s) :
    Addressed (dirtyAdded env serverRequest s) ∧ Filled s (dirtyAdded env serverRequest s) ∧
      (dirtyAdded env serverRequest s).pendingTransaction.isSome = true := by
  have hfold : ∀ (ns : List NodeId) (t : Server W S), Addressed t →
      t.pendingTransaction.isSome = true →
      Addressed (ns.foldl (addDirtyNode env serverRequest) t) ∧
        Filled t (ns.foldl (addDirtyNode env serverRequest) t) ∧
        (ns.foldl (addDirtyNode env serverRequest) t).pendingTransaction.isSome = true := by
    intro ns
    induction ns with
    | nil => exact fun t ht hp => ⟨ht, ⟨rfl, rfl, rfl, fun _ => rfl⟩, hp⟩
    | cons n ns ih =>
        intro t ht hp
        have hp' := (addDirtyNode_frame env serverRequest t n).2.2.trans hp
        obtain ⟨h1, h2, h3⟩ := ih _ (addressed_addDirtyNode env serverRequest ht n) hp'
        exact ⟨h1, (filled_addDirtyNode env serverRequest t n).trans h2, h3⟩
  have hstart : Addressed { s with
      pendingTransaction := some (s.pendingTransaction.getD ⟨[], 0, false⟩) } := by
    refine h.congr rfl ?_ rfl
    cases hp : s.pendingTransaction <;> rfl
  obtain ⟨h1, h2, h3⟩ := hfold s.dirtyNodes _ hstart rfl
  exact ⟨h1.congr rfl rfl rfl, ⟨h2.queued, h2.noatomic, h2.txnWait, h2.instruction⟩, h3⟩

/-! ## Progress -/

section Progress

variable {env : Env W S} {s : Server W S} {acks : List (TxnEvent W)}

/-- The queued transaction is finished. -/
theorem Watched.finishQueued (h : Watched env s acks) {tx : Transaction S}
    (hq : s.queuedTransaction = some tx) :
    Watched env (finishQueued env s tx) [] ∧
      (Swirl.finishQueued env s tx).queuedTransaction = none ∧
      (Swirl.finishQueued env s tx).pendingTransaction = s.pendingTransaction := by
  obtain ⟨hlife, hnone, hpend⟩ := finishQueued_spec env hq h.life
  obtain ⟨hflags, hptr⟩ := finishQueued_pointers env (show ∀ n id, (s.node n).instruction = some id →
      n ∈ tx.instructions.map Instruction.node by
    intro n id hn
    obtain ⟨i, hi, hin, -⟩ := (h.pointer n id).mp hn
    rw [hq] at hi
    exact hin ▸ List.mem_map_of_mem hi)
  refine ⟨⟨?_, ?_, hflags.noatomic.trans h.noatomic, hflags.txnWait.trans h.txnWait, hlife⟩,
    hnone, hpend⟩
  · have ha := h.addressed
    refine ⟨?_, ?_, ?_⟩
    · rw [hnone, hpend]
      have hids := ha.ids
      rw [List.map_append] at hids
      exact (List.nodup_append.mp hids).2.1
    · rw [hnone, hpend, hflags.nextId]
      intro i hi
      exact ha.fresh i (List.mem_append_right _ hi)
    · rw [hpend]
      exact ha.quiet
  · intro n id
    rw [hptr, hnone]
    simp [instructionsOf]

/-- The pending transaction is committed. -/
theorem Watched.queuePending (h : Watched env s acks) (hq : s.queuedTransaction = none)
    {ptx : Transaction S} (hp : s.pendingTransaction = some ptx) :
    ∃ tx, (queuePending env s).queuedTransaction = some tx ∧ Opened env tx ∧
      Watched env (Swirl.queuePending env s) [] ∧ Counted env (Swirl.queuePending env s) [] ∧
      (Swirl.queuePending env s).pendingTransaction = none := by
  set s₀ : Server W S := { s with pendingTransaction := none } with hs₀
  set r := commitInstructions env ptx.instructions s₀ with hr
  set tx := (transactionCommit env s₀ ptx).2 with htx
  have hstep : Swirl.queuePending env s = { r.1 with queuedTransaction := some tx } := by
    unfold Swirl.queuePending
    split
    next tx' h1 h2 =>
      obtain rfl : ptx = tx' := Option.some.inj (hp.symm.trans h2)
      rfl
    next hno => exact absurd hp (hno ptx hq)
  have hno : s₀.noatomic = false := h.noatomic
  have hwait : s₀.txnWait = false := h.txnWait
  have hnodes : (ptx.instructions.map Instruction.node).Nodup := by
    have := h.life.pendingNodup
    rw [hp] at this
    exact this
  have hquiet : ∀ i ∈ ptx.instructions, i.waiting = false := by
    have := h.addressed.quiet
    rw [hp] at this
    exact this
  obtain ⟨hflags, hids, hcount, hptr⟩ :=
    commitInstructions_pointers env ptx.instructions s₀ hnodes hquiet
  obtain ⟨hsame, hnames⟩ := commitInstructions_spec env ptx.instructions s₀
  have hwaiting : tx.numWaiting = if env.timerCreated r.1.world then
      tx.instructions.countP (fun i => i.waiting) else 0 := by
    rw [htx, transactionCommit, hno, hwait]
    simp only [Bool.false_eq_true, if_false]
    exact if_congr Iff.rfl hcount rfl
  have hnone : ∀ n, (s.node n).instruction = none := by
    intro n
    cases hn : (s.node n).instruction with
    | none => rfl
    | some id =>
        obtain ⟨i, hi, -⟩ := (h.pointer n id).mp hn
        rw [hq] at hi
        exact absurd hi List.not_mem_nil
  refine ⟨tx, by rw [hstep], ?_, ⟨?_, ?_, ?_, ?_, ?_⟩, ?_, ?_⟩
  · unfold Opened
    rw [hwaiting]
    split
    next => exact Or.inl rfl
    next hf => exact Or.inr ⟨rfl, r.1.world, by simpa using hf⟩
  · rw [hstep]
    have hpend : r.1.pendingTransaction = none := hsame.pendingTransaction
    have hold := h.addressed
    refine ⟨?_, ?_, ?_⟩
    · show ((r.2.1 ++ instructionsOf r.1.pendingTransaction).map Instruction.id).Nodup
      rw [hpend, show instructionsOf (none : Option (Transaction S)) = [] from rfl,
        List.append_nil, hids]
      have hi := hold.ids
      rw [hp, List.map_append] at hi
      exact (List.nodup_append.mp hi).2.1
    · intro i hi
      have hi' : i ∈ r.2.1 ++ instructionsOf r.1.pendingTransaction := hi
      rw [hpend, show instructionsOf (none : Option (Transaction S)) = [] from rfl,
        List.append_nil] at hi'
      have hmem : i.id ∈ ptx.instructions.map Instruction.id := hids ▸ List.mem_map_of_mem hi'
      obtain ⟨j, hj, hji⟩ := List.mem_map.mp hmem
      have hlt := hold.fresh j (List.mem_append_right _ (by rw [hp]; exact hj))
      show i.id < r.1.nextId
      rw [hflags.nextId, ← hji]
      exact hlt
    · intro i hi
      have hi' : i ∈ instructionsOf r.1.pendingTransaction := hi
      rw [hpend] at hi'
      exact absurd hi' List.not_mem_nil
  · intro n id
    rw [hstep]
    show (r.1.node n).instruction = some id ↔ ∃ i ∈ r.2.1, _
    rw [hr, hptr, show (s₀.node n).instruction = none from hnone n]
    simp [acknowledged]
  · rw [hstep]
    exact hflags.noatomic.trans h.noatomic
  · rw [hstep]
    exact hflags.txnWait.trans h.txnWait
  · exact lifetimeInv_queuePending env h.life
  · intro tx' htx' hpos
    rw [hstep] at htx'
    obtain rfl : tx = tx' := Option.some.inj htx'
    have htimer : tx.timer = decide (0 < tx.numWaiting) := rfl
    refine ⟨by rw [htimer]; exact decide_eq_true hpos, ?_⟩
    rw [hwaiting] at hpos ⊢
    split at hpos
    next hc => simp [unacknowledged, acknowledged, hc]
    next => exact absurd hpos (lt_irrefl 0)
  · exact queuePending_pending env hq

/-- No transaction is left queued with nothing to wait for. -/
def Waiting (s : Server W S) : Prop := ∀ tx, s.queuedTransaction = some tx → 0 < tx.numWaiting

/-- What a progress leads to. -/
structure Progressed (env : Env W S) (s : Server W S) (acks : List (TxnEvent W))
    (r : Server W S × List (TxnAction S)) : Prop where
  progresses : Progresses env s.queuedTransaction r.2 r.1.queuedTransaction
  watched : Watched env r.1 (if r.2 = [] then acks else [])
  counted : Counted env r.1 (if r.2 = [] then acks else [])
  waiting : Waiting r.1

theorem counted_of_none (hq : s.queuedTransaction = none) : Counted env s acks := by
  intro tx h
  rw [hq] at h
  cases h

theorem waiting_of_none (hq : s.queuedTransaction = none) : Waiting s := by
  intro tx h
  rw [hq] at h
  cases h

/-- With no pending transaction, one round is enough. -/
theorem progressTraced_settled (h : Watched env s acks) (hc : Counted env s acks)
    (hp : s.pendingTransaction = none) (rounds : Nat) :
    Progressed env s acks (progressTraced env (rounds + 1) s) := by
  rw [progressTraced]
  cases hq : s.queuedTransaction with
  | none =>
      refine ⟨?_, h, hc, waiting_of_none hq⟩
      rw [hq]
      exact Progresses.idle
  | some tx =>
      dsimp only
      split
      next hpos =>
        refine ⟨?_, h, hc, fun tx' h' => ?_⟩
        · rw [hq]
          exact Progresses.wait hpos
        · rw [hq] at h'
          exact Option.some.inj h' ▸ hpos
      next hzero =>
        obtain ⟨hw, hnone, hpend⟩ := h.finishQueued hq
        rw [hpend, hp]
        refine ⟨?_, hw, counted_of_none hnone, waiting_of_none hnone⟩
        rw [hq, hnone]
        exact Progresses.apply (Nat.eq_zero_of_not_pos hzero) Progresses.idle

/-- **Progress**: the queued transaction is applied if it has nothing to wait for, and the pending
one is committed then. -/
theorem progressTraced_spec (h : Watched env s acks) (hc : Counted env s acks) :
    Progressed env s acks (progressTraced env 2 s) := by
  cases hp : s.pendingTransaction with
  | none => exact progressTraced_settled h hc hp 1
  | some ptx =>
      rw [progressTraced]
      cases hq : s.queuedTransaction with
      | none =>
          refine ⟨?_, h, hc, waiting_of_none hq⟩
          rw [hq]
          exact Progresses.idle
      | some tx =>
          dsimp only
          split
          next hpos =>
            refine ⟨?_, h, hc, fun tx' h' => ?_⟩
            · rw [hq]
              exact Progresses.wait hpos
            · rw [hq] at h'
              exact Option.some.inj h' ▸ hpos
          next hzero =>
            obtain ⟨hw, hnone, hpend⟩ := h.finishQueued hq
            rw [hp] at hpend
            obtain ⟨next, hnext, hopened, hw', hc', hp'⟩ := hw.queuePending hnone hpend
            have hlast := progressTraced_settled hw' hc' hp' 0
            rw [hpend]
            dsimp only
            rw [commitAction, hnext]
            have hprog := hlast.progresses
            rw [hnext] at hprog
            refine ⟨?_, ?_, ?_, hlast.waiting⟩
            · rw [hq]
              exact Progresses.apply (Nat.eq_zero_of_not_pos hzero) (Progresses.commit hopened hprog)
            · simpa using hlast.watched
            · simpa using hlast.counted

/-- A commit either waits behind the queued transaction, or queues the pending one. -/
theorem commitPendingTraced_spec (h : Watched env s acks) (hc : Counted env s acks)
    (hwait : Waiting s) (hp : s.pendingTransaction ≠ none) :
    Progressed env s acks (commitPendingTraced env s) := by
  unfold commitPendingTraced
  cases hq : s.queuedTransaction with
  | some tx =>
      refine ⟨?_, h, hc, hwait⟩
      rw [hq]
      exact Progresses.wait (hwait tx hq)
  | none =>
      obtain ⟨ptx, hptx⟩ := Option.ne_none_iff_exists'.mp hp
      obtain ⟨tx, htx, hopened, hw, hcount, -⟩ := h.queuePending hq hptx
      have hlast := progressTraced_spec hw hcount
      have hprog := hlast.progresses
      dsimp only
      rw [commitAction, htx]
      rw [htx] at hprog
      refine ⟨?_, ?_, ?_, hlast.waiting⟩
      · rw [hq]
        exact Progresses.commit hopened hprog
      · simpa using hlast.watched
      · simpa using hlast.counted

end Progress

/-! ## One event -/

/-- The transaction, with `n` instructions to wait for. -/
def Transaction.expecting (tx : Transaction S) (n : Nat) : Transaction S :=
  { tx with numWaiting := n, timer := decide (0 < n) }

/-- What the queued transaction waits for after an event: what nothing has acknowledged, and
nothing after its timer has fired. -/
def counterAfter (env : Env W S) (acks : List (TxnEvent W)) (tx : Transaction S) :
    TxnEvent W → Nat
  | .timeout => 0
  | e => unacknowledged env (acks ++ [e]) tx.instructions

section Event

variable {env : Env W S} {s s' : Server W S} {acks : List (TxnEvent W)}

theorem acknowledged_snoc (env : Env W S) (acks : List (TxnEvent W)) (e : TxnEvent W)
    (i : Instruction S) :
    acknowledged env (acks ++ [e]) i = (acknowledged env acks i || acknowledges env i e) := by
  simp [acknowledged, List.any_append]

/-- The event acknowledges no instruction of the queued transaction that is still without an
acknowledgement. -/
def Stale (env : Env W S) (s : Server W S) (acks : List (TxnEvent W)) (e : TxnEvent W) : Prop :=
  ∀ i ∈ instructionsOf s.queuedTransaction, acknowledges env i e = true →
    acknowledged env acks i = true

theorem Stale.acknowledged {e : TxnEvent W} (h : Stale env s acks e) {i : Instruction S}
    (hi : i ∈ instructionsOf s.queuedTransaction) :
    acknowledged env (acks ++ [e]) i = Swirl.acknowledged env acks i := by
  rw [acknowledged_snoc]
  cases he : acknowledges env i e with
  | false => rw [Bool.or_false]
  | true => rw [h i hi he, Bool.or_true]

theorem Stale.unacknowledged {e : TxnEvent W} (h : Stale env s acks e) {tx : Transaction S}
    (hq : s.queuedTransaction = some tx) :
    unacknowledged env (acks ++ [e]) tx.instructions =
      Swirl.unacknowledged env acks tx.instructions := by
  refine List.countP_congr fun i hi => ?_
  rw [h.acknowledged (i := i) (by rw [hq]; exact hi)]

/-- A stale event tells nothing new. -/
theorem Watched.stale {e : TxnEvent W} (h : Watched env s acks) (he : Stale env s acks e) :
    Watched env s (acks ++ [e]) := by
  refine ⟨h.addressed, fun n id => ?_, h.noatomic, h.txnWait, h.life⟩
  rw [h.pointer]
  refine exists_congr fun i => and_congr_right fun hi => ?_
  rw [he.acknowledged hi]

theorem Counted.stale {e : TxnEvent W} (h : Counted env s acks) (he : Stale env s acks e) :
    Counted env s (acks ++ [e]) := by
  intro tx hq hpos
  rw [he.unacknowledged hq]
  exact h tx hq hpos

/-- While it waits, the queued transaction is the one that expects what is not acknowledged. -/
theorem Counted.expecting (hc : Counted env s acks) (hwait : Waiting s) {tx : Transaction S}
    (hq : s.queuedTransaction = some tx) :
    tx.expecting (unacknowledged env acks tx.instructions) = tx := by
  obtain ⟨htimer, hn⟩ := hc tx hq (hwait tx hq)
  have hpos : 0 < unacknowledged env acks tx.instructions := hn ▸ hwait tx hq
  cases tx
  simp only [Transaction.expecting] at *
  rw [← hn] at hpos ⊢
  rw [htimer, decide_eq_true hpos]

/-- What an event leads to. -/
structure Stepped (env : Env W S) (s : Server W S) (acks : List (TxnEvent W)) (e : TxnEvent W)
    (r : Server W S × List (TxnAction S)) : Prop where
  progresses : Progresses env
    (s.queuedTransaction.map fun tx => tx.expecting (counterAfter env acks tx e)) r.2
    r.1.queuedTransaction
  watched : Watched env r.1 (if r.2 = [] then acks ++ [e] else [])
  counted : Counted env r.1 (if r.2 = [] then acks ++ [e] else [])
  waiting : Waiting r.1

/-- A progress after the event itself has been dealt with. -/
theorem Progressed.stepped {e : TxnEvent W} {r : Server W S × List (TxnAction S)}
    (h : Progressed env s' (acks ++ [e]) r)
    (hq : s'.queuedTransaction =
      s.queuedTransaction.map fun tx => tx.expecting (counterAfter env acks tx e)) :
    Stepped env s acks e r :=
  ⟨hq ▸ h.progresses, h.watched, h.counted, h.waiting⟩

/-- Nothing is applied or committed while the queued transaction waits. -/
theorem progressed_idle (h : Watched env s acks) (hc : Counted env s acks) (hwait : Waiting s) :
    Progressed env s acks (s, []) := by
  refine ⟨?_, h, hc, hwait⟩
  cases hq : s.queuedTransaction with
  | none => exact Progresses.idle
  | some tx => exact Progresses.wait (hwait tx hq)

/-- After a stale event the queued transaction expects what it expected. -/
theorem Stale.queued {e : TxnEvent W} (he : Stale env s acks e) (hno : e ≠ .timeout)
    (hc : Counted env s acks) (hwait : Waiting s) :
    s.queuedTransaction =
      s.queuedTransaction.map fun tx => tx.expecting (counterAfter env acks tx e) := by
  cases hq : s.queuedTransaction with
  | none => rfl
  | some tx =>
      have hcounter : counterAfter env acks tx e =
          Swirl.unacknowledged env acks tx.instructions := by
        rw [← he.unacknowledged hq]
        cases e with
        | timeout => exact absurd rfl hno
        | _ => rfl
      rw [Option.map_some, hcounter, hc.expecting hwait hq]

/-- A server with the same transactions and pointers. -/
theorem Watched.congr (h : Watched env s acks) (hflags : SameFlags s s')
    (hq : s'.queuedTransaction = s.queuedTransaction)
    (hp : s'.pendingTransaction = s.pendingTransaction)
    (hptr : ∀ n, (s'.node n).instruction = (s.node n).instruction) (hlife : LifetimeInv s') :
    Watched env s' acks := by
  refine ⟨h.addressed.congr (by rw [hq]) (by rw [hp]) hflags.nextId, fun n id => ?_,
    hflags.noatomic.trans h.noatomic, hflags.txnWait.trans h.txnWait, hlife⟩
  rw [hptr, hq]
  exact h.pointer n id

theorem Counted.congr (h : Counted env s acks)
    (hq : s'.queuedTransaction = s.queuedTransaction) : Counted env s' acks := by
  intro tx htx
  exact h tx (hq ▸ htx)

/-! ### Acknowledgements -/

/-- The instruction a node points to is found. -/
theorem Watched.findInstruction (h : Watched env s acks) {i : Instruction S}
    (hi : i ∈ instructionsOf s.queuedTransaction) :
    findInstruction s i.id = some i := by
  unfold Swirl.findInstruction
  have hmem : i ∈ instructionsOf s.queuedTransaction ++ instructionsOf s.pendingTransaction :=
    List.mem_append_left _ hi
  cases hf : (instructionsOf s.queuedTransaction ++ instructionsOf s.pendingTransaction).find?
      fun j => decide (j.id = i.id) with
  | none =>
      have := List.find?_eq_none.mp hf i hmem
      simp at this
  | some j =>
      have hid : j.id = i.id := by simpa using List.find?_some hf
      rw [List.inj_on_of_nodup_map h.addressed.ids (List.mem_of_find?_eq_some hf) hmem hid]

/-- The pointer of a node leads to its instruction in the queued transaction. -/
theorem Watched.pointed (h : Watched env s acks) {n : NodeId} {i : Instruction S} :
    (s.node n).instruction.bind (Swirl.findInstruction s) = some i ↔
      i ∈ instructionsOf s.queuedTransaction ∧ i.node = n ∧ acknowledged env acks i = false := by
  constructor
  · intro hb
    obtain ⟨id, hid, hfind⟩ := Option.bind_eq_some_iff.mp hb
    obtain ⟨j, hj, hjn, rfl, hack⟩ := (h.pointer n id).mp hid
    rw [h.findInstruction hj] at hfind
    obtain rfl := Option.some.inj hfind
    exact ⟨hj, hjn, hack⟩
  · rintro ⟨hi, hin, hack⟩
    rw [(h.pointer n i.id).mpr ⟨i, hi, hin, rfl, hack⟩]
    exact h.findInstruction hi

/-- An event finds the instruction it acknowledges, if that has no acknowledgement yet. -/
theorem Watched.readyInstruction (h : Watched env s acks) {e : TxnEvent W} {i : Instruction S} :
    readyInstruction env s e = some i ↔
      i ∈ instructionsOf s.queuedTransaction ∧ acknowledged env acks i = false ∧
        acknowledges env i e = true := by
  cases e with
  | readyBySerial n serial =>
      rw [Swirl.readyInstruction, Option.filter_eq_some_iff, h.pointed, acknowledges,
        decide_eq_true_eq, decide_eq_true_eq]
      tauto
  | readyByGeometry n box =>
      rw [Swirl.readyInstruction, Option.filter_eq_some_iff, h.pointed, acknowledges,
        decide_eq_true_eq, decide_eq_true_eq]
      tauto
  | _ => simp [Swirl.readyInstruction, acknowledges]

/-- An event acknowledges instructions of one node only. -/
theorem acknowledges_same {i j : Instruction S} {e : TxnEvent W}
    (hi : acknowledges env i e = true) (hj : acknowledges env j e = true) : i.node = j.node := by
  cases e with
  | readyBySerial n serial =>
      exact (of_decide_eq_true hi).1.trans (of_decide_eq_true hj).1.symm
  | readyByGeometry n box =>
      exact (of_decide_eq_true hi).1.trans (of_decide_eq_true hj).1.symm
  | _ => exact absurd hi Bool.false_ne_true

/-- An acknowledgement that finds its instruction takes it off what is waited for. -/
theorem unacknowledged_ready {e : TxnEvent W} {i : Instruction S} {is : List (Instruction S)}
    (hnodes : (is.map Instruction.node).Nodup) (hi : i ∈ is)
    (hack : acknowledged env acks i = false) (he : acknowledges env i e = true) :
    unacknowledged env acks is =
      unacknowledged env (acks ++ [e]) is + (if i.waiting then 1 else 0) := by
  have hother : ∀ j ∈ is, j.node ≠ i.node →
      acknowledged env (acks ++ [e]) j = acknowledged env acks j := by
    intro j _ hne
    rw [acknowledged_snoc]
    cases hj : acknowledges env j e with
    | false => rw [Bool.or_false]
    | true => exact absurd (acknowledges_same hj he) hne
  have hnow : acknowledged env (acks ++ [e]) i = true := by
    rw [acknowledged_snoc, he, Bool.or_true]
  by_cases hw : i.waiting = true
  · rw [if_pos hw]
    refine countP_of_flip hnodes hi (by simp [hw, hack]) (by simp [hnow]) fun j hj hne => ?_
    rw [hother j hj hne]
  · rw [if_neg hw, Nat.add_zero]
    refine List.countP_congr fun j hj => ?_
    by_cases hne : j.node = i.node
    · obtain rfl := List.inj_on_of_nodup_map hnodes hj hi hne
      simp [hw]
    · rw [hother j hj hne]

/-- **An acknowledgement** that finds its instruction: the counter follows, and the node points
nowhere from then on. -/
theorem Watched.ready {e : TxnEvent W} {i : Instruction S} (h : Watched env s acks)
    (hc : Counted env s acks) (hwait : Waiting s)
    (hready : Swirl.readyInstruction env s e = some i) :
    Watched env (instructionReady s i) (acks ++ [e]) ∧
      Counted env (instructionReady s i) (acks ++ [e]) ∧
      (instructionReady s i).queuedTransaction =
        s.queuedTransaction.map fun tx => tx.expecting (counterAfter env acks tx e) := by
  obtain ⟨hi, hack, he⟩ := h.readyInstruction.mp hready
  cases hq : s.queuedTransaction with
  | none => rw [hq] at hi; exact absurd hi List.not_mem_nil
  | some tx =>
      have hi' : i ∈ tx.instructions := by
        rw [hq] at hi
        exact hi
      have hnodes : (tx.instructions.map Instruction.node).Nodup := by
        have := h.life.queuedNodup
        rw [hq] at this
        exact this
      obtain ⟨htimer, hn⟩ := hc tx hq (hwait tx hq)
      have hpos := hwait tx hq
      have hflip := unacknowledged_ready hnodes hi' hack he
      have hcounter : counterAfter env acks tx e =
          Swirl.unacknowledged env (acks ++ [e]) tx.instructions := by
        cases e with
        | timeout => exact absurd he Bool.false_ne_true
        | _ => rfl
      have hany : (tx.instructions.any fun j => decide (j.id = i.id)) = true :=
        List.any_eq_true.mpr ⟨i, hi', decide_eq_true rfl⟩
      have htx : tx.ready i = tx.expecting (counterAfter env acks tx e) := by
        rw [hcounter, Transaction.ready]
        by_cases hw : i.waiting = true
        · rw [if_pos hw] at hflip
          rw [if_pos ⟨hw, hpos, hany⟩, Transaction.expecting, htimer, hn, hflip, Bool.true_and]
          congr 1
          exact decide_eq_decide.mpr (by omega)
        · rw [if_neg hw, Nat.add_zero] at hflip
          rw [if_neg fun hx => hw hx.1, ← hflip, hc.expecting hwait hq]
      have hqueued : (instructionReady s i).queuedTransaction =
          some (tx.expecting (counterAfter env acks tx e)) := by
        show s.queuedTransaction.map (Transaction.ready · i) = _
        rw [hq, Option.map_some, htx]
      refine ⟨⟨?_, fun n id => ?_, h.noatomic, h.txnWait, lifetimeInv_ready h.life i⟩, ?_, hqueued⟩
      · refine h.addressed.congr ?_ ?_ rfl
        · rw [hqueued, hq]
          rfl
        · show (instructionsOf (s.pendingTransaction.map (Transaction.ready · i))).map _ = _
          cases s.pendingTransaction with
          | none => rfl
          | some ptx => simp [instructionsOf, ready_instructions]
      · rw [hqueued]
        show _ ↔ ∃ j ∈ tx.instructions, _
        have hptr := h.pointer n id
        rw [hq] at hptr
        by_cases hin : n = i.node
        · subst hin
          refine iff_of_false (by simp [instructionReady, Server.modNode]) ?_
          rintro ⟨j, hj, hji, -, hjack⟩
          obtain rfl := List.inj_on_of_nodup_map hnodes hj hi' hji
          rw [acknowledged_snoc, he, Bool.or_true] at hjack
          exact Bool.noConfusion hjack
        · have hsame : ((instructionReady s i).node n).instruction = (s.node n).instruction := by
            simp [instructionReady, Server.modNode, hin]
          rw [hsame, hptr]
          refine exists_congr fun j => and_congr_right fun hj => and_congr_right fun hjn => ?_
          rw [acknowledged_snoc]
          cases hje : acknowledges env j e with
          | false => rw [Bool.or_false]
          | true => exact absurd (hjn.symm.trans (acknowledges_same hje he)) hin
      · intro tx' htx' hpos'
        obtain rfl := Option.some.inj (hqueued.symm.trans htx')
        exact ⟨decide_eq_true hpos', hcounter⟩

/-! ### The step lemma -/

/-- An event that neither commits nor applies anything. -/
theorem stepped_quiet {e : TxnEvent W} (h : Watched env s' acks) (hc : Counted env s acks)
    (hwait : Waiting s) (hq : s'.queuedTransaction = s.queuedTransaction)
    (he : Stale env s acks e) (hno : e ≠ .timeout) : Stepped env s acks e (s', []) := by
  have he' : Stale env s' acks e := fun i hi => he i (hq ▸ hi)
  have hc' : Counted env s' acks := hc.congr hq
  have hwait' : Waiting s' := fun tx htx => hwait tx (hq ▸ htx)
  exact (progressed_idle (h.stale he') (hc'.stale he') hwait').stepped
    (hq.trans (he.queued hno hc hwait))

theorem stepped_commitDirty (serverRequest : Bool) {e : TxnEvent W} (h : Watched env s acks)
    (hc : Counted env s acks) (hwait : Waiting s) (he : Stale env s acks e) (hno : e ≠ .timeout) :
    Stepped env s acks e (if s.dirtyNodes = [] then (s, [])
      else commitPendingTraced env (dirtyAdded env serverRequest s)) := by
  split
  next => exact stepped_quiet h hc hwait rfl he hno
  next =>
    obtain ⟨haddr, hfill, hsome⟩ := addressed_dirtyAdded env serverRequest h.addressed
    have hq := hfill.queued
    have hw : Watched env (dirtyAdded env serverRequest s) acks := by
      refine ⟨haddr, fun n id => ?_, hfill.noatomic.trans h.noatomic,
        hfill.txnWait.trans h.txnWait, lifetimeInv_addDirtyNodes env serverRequest h.life⟩
      rw [hfill.instruction, hq]
      exact h.pointer n id
    have he' : Stale env (dirtyAdded env serverRequest s) acks e := fun i hi => he i (hq ▸ hi)
    have hc' : Counted env (dirtyAdded env serverRequest s) acks := hc.congr hq
    have hwait' : Waiting (dirtyAdded env serverRequest s) := fun tx htx => hwait tx (hq ▸ htx)
    have hp : (dirtyAdded env serverRequest s).pendingTransaction ≠ none := by
      intro hnone
      rw [hnone] at hsome
      exact Bool.noConfusion hsome
    exact (commitPendingTraced_spec (hw.stale he') (hc'.stale he') hwait' hp).stepped
      (hq.trans (he.queued hno hc hwait))

/-- An acknowledgement is either stale or counted. -/
theorem stepped_ready {e : TxnEvent W} (h : Watched env s acks) (hc : Counted env s acks)
    (hwait : Waiting s) (hno : e ≠ .timeout) :
    Stepped env s acks e (match Swirl.readyInstruction env s e with
      | some i => progressTraced env 2 (instructionReady s i)
      | none => (s, [])) := by
  cases hready : Swirl.readyInstruction env s e with
  | some i =>
      obtain ⟨hw, hc', hq⟩ := h.ready hc hwait hready
      exact (progressTraced_spec hw hc').stepped hq
  | none =>
      refine stepped_quiet h hc hwait rfl (fun i hi he => ?_) hno
      cases hack : acknowledged env acks i with
      | true => rfl
      | false =>
          rw [h.readyInstruction.mpr ⟨hi, hack, he⟩] at hready
          cases hready

/-- **The step lemma.** -/
theorem stepped_txnTraced (h : Watched env s acks) (hc : Counted env s acks) (hwait : Waiting s)
    (e : TxnEvent W) : Stepped env s acks e (txnTraced env s e) := by
  have hquiet : (∀ i : Instruction S, acknowledges env i e = false) → Stale env s acks e :=
    fun hno i _ hi => absurd ((hno i).symm.trans hi) Bool.false_ne_true
  cases e with
  | setDirty n =>
      have hframe := nodeSetDirty_frame s n
      have hw := h.congr (sameFlags_nodeSetDirty s n) hframe.2.1 hframe.1
        (instruction_nodeSetDirty s n) (lifetimeInv_step env h.life (.setDirty n))
      exact stepped_quiet hw hc hwait hframe.2.1 (hquiet fun _ => rfl) (fun he => nomatch he)
  | beginDestroy n =>
      have hframe := nodeSetDirty_frame s n
      have hflags : SameFlags s (nodeBeginDestroy s n) :=
        (sameFlags_nodeSetDirty s n).trans ⟨rfl, rfl, rfl⟩
      have hw := h.congr hflags hframe.2.1 hframe.1 (instruction_nodeBeginDestroy s n)
        (lifetimeInv_step env h.life (.beginDestroy n))
      exact stepped_quiet hw hc hwait hframe.2.1 (hquiet fun _ => rfl) (fun he => nomatch he)
  | edit w =>
      have hflags : SameFlags s { s with world := w } := ⟨rfl, rfl, rfl⟩
      have hw := h.congr hflags rfl rfl (fun _ => rfl) (lifetimeInv_step env h.life (.edit w))
      exact stepped_quiet hw hc hwait rfl (hquiet fun _ => rfl) (fun he => nomatch he)
  | commitDirty =>
      exact stepped_commitDirty true h hc hwait (hquiet fun _ => rfl) (fun he => nomatch he)
  | commitDirtyClient =>
      exact stepped_commitDirty false h hc hwait (hquiet fun _ => rfl) (fun he => nomatch he)
  | readyBySerial n serial => exact stepped_ready h hc hwait (fun he => nomatch he)
  | readyByGeometry n box => exact stepped_ready h hc hwait (fun he => nomatch he)
  | timeout =>
      have hstale := hquiet fun _ => rfl
      unfold txnTraced
      cases hq : s.queuedTransaction with
      | none =>
          refine (progressed_idle (h.stale hstale) (hc.stale hstale) hwait).stepped ?_
          rw [hq]
          rfl
      | some tx =>
          dsimp only
          rw [if_pos (hc tx hq (hwait tx hq)).1]
          have hw : Watched env (timedOut s tx) (acks ++ [.timeout]) := by
            have hold := h.stale hstale
            have hinst : instructionsOf (timedOut s tx).queuedTransaction =
                instructionsOf s.queuedTransaction := by
              rw [hq]
              rfl
            refine ⟨hold.addressed.congr (by rw [hinst]) rfl rfl, fun n id => ?_, hold.noatomic,
              hold.txnWait, ?_⟩
            · rw [hinst]
              exact hold.pointer n id
            · have hlife := h.life
              unfold LifetimeInv at hlife ⊢
              rw [hq] at hlife
              exact hlife
          have hcount : Counted env (timedOut s tx) (acks ++ [.timeout]) := by
            intro tx' htx' hpos
            obtain rfl := Option.some.inj htx'
            exact absurd hpos (lt_irrefl 0)
          refine (progressTraced_spec hw hcount).stepped ?_
          rw [hq]
          rfl

end Event

/-! ## Runs -/

/-- A server, the events since the queued transaction was committed, and what has been committed
and applied so far. -/
structure Observed (W S : Type) where
  server : Server W S
  acks : List (TxnEvent W)
  log : List (TxnAction S)

/-- One event, watched. -/
def observe (env : Env W S) (o : Observed W S) (e : TxnEvent W) : Observed W S where
  server := txnStep env o.server e
  acks := if (txnTraced env o.server e).2 = [] then o.acks ++ [e] else []
  log := o.log ++ (txnTraced env o.server e).2

/-- Nothing has happened yet, and the debug flags are off. -/
def Observed.start (w : W) : Observed W S := ⟨Server.start w false false, [], []⟩

/-- The transactions that were committed, as their instructions. -/
def committed (log : List (TxnAction S)) : List (List Nat) :=
  log.filterMap fun
    | .commit tx => some (tx.instructions.map Instruction.id)
    | .apply _ => none

/-- The transactions that were applied, as their instructions. -/
def applied (log : List (TxnAction S)) : List (List Nat) :=
  log.filterMap fun
    | .commit _ => none
    | .apply tx => some (tx.instructions.map Instruction.id)

/-- The queued transaction, as its instructions. -/
def outstanding (tx : Option (Transaction S)) : List (List Nat) :=
  tx.toList.map fun tx => tx.instructions.map Instruction.id

@[simp] theorem committed_append (log as : List (TxnAction S)) :
    committed (log ++ as) = committed log ++ committed as := List.filterMap_append

@[simp] theorem applied_append (log as : List (TxnAction S)) :
    applied (log ++ as) = applied log ++ applied as := List.filterMap_append

/-- The barrier lets no transaction pass another. -/
theorem Progresses.order {env : Env W S} {tx tx' : Option (Transaction S)}
    {as : List (TxnAction S)} (h : Progresses env tx as tx') :
    outstanding tx ++ committed as = applied as ++ outstanding tx' := by
  induction h with
  | idle => rfl
  | wait _ => simp [committed, applied]
  | apply _ _ ih =>
      simp only [outstanding, Option.toList_none, List.map_nil, List.nil_append] at ih
      simpa [outstanding, committed, applied] using ih
  | commit _ _ ih => simpa [outstanding, committed, applied] using ih

/-- What is known of a server between two events. -/
structure ObservedInv (env : Env W S) (o : Observed W S) : Prop where
  watched : Watched env o.server o.acks
  counted : Counted env o.server o.acks
  waiting : Waiting o.server
  order : committed o.log = applied o.log ++ outstanding o.server.queuedTransaction

theorem outstanding_expecting (tx : Option (Transaction S)) (f : Transaction S → Nat) :
    outstanding (tx.map fun tx => tx.expecting (f tx)) = outstanding tx := by
  cases tx <;> rfl

theorem observedInv_start (env : Env W S) (w : W) : ObservedInv env (Observed.start w) := by
  refine ⟨⟨⟨?_, ?_, ?_⟩, ?_, rfl, rfl, lifetimeInv_start w false false⟩, ?_, ?_, rfl⟩
  · simp [Observed.start, Server.start, instructionsOf]
  · simp [Observed.start, Server.start, instructionsOf]
  · simp [Observed.start, Server.start, instructionsOf]
  · intro n id
    simp [Observed.start, Server.start, instructionsOf]
  · exact counted_of_none rfl
  · exact waiting_of_none rfl

theorem observedInv_step (env : Env W S) {o : Observed W S} (h : ObservedInv env o)
    (e : TxnEvent W) : ObservedInv env (observe env o e) := by
  have hstep := stepped_txnTraced h.watched h.counted h.waiting e
  have hfst := txnTraced_fst env o.server e
  refine ⟨?_, ?_, ?_, ?_⟩
  · have := hstep.watched
    rwa [hfst] at this
  · have := hstep.counted
    rwa [hfst] at this
  · have := hstep.waiting
    rwa [hfst] at this
  · have horder := hstep.progresses.order
    rw [outstanding_expecting, hfst] at horder
    show committed (o.log ++ _) = applied (o.log ++ _) ++
      outstanding (txnStep env o.server e).queuedTransaction
    rw [committed_append, applied_append, List.append_assoc, ← horder, h.order, List.append_assoc]

/-- A compositor in which every node is a visible view that is configured with serial `1`. -/
def configuredEnv (timer : Bool) : Env Unit Unit where
  copyState _ _ := ()
  isView _ _ := true
  isVisible _ _ := true
  boxChanged _ _ _ := true
  viewConfigure _ _ _ := ((), 1)
  applyState _ _ _ := ()
  arrangeRoot _ := ()
  destroy _ _ := ((), [])
  contentBox _ := ⟨0, 0, 0, 0⟩
  timerCreated _ := timer

/-- A view is configured. -/
def oneConfigured (timer : Bool) : Observed Unit Unit :=
  observe (configuredEnv timer) (observe (configuredEnv timer) (Observed.start ()) (.setDirty 0))
    .commitDirty

open Lib in
theorem run_oneConfigured (timer : Bool) :
    Run (observe (configuredEnv timer)) Free (Observed.start ()) (oneConfigured timer) :=
  Run.step TxnEvent.commitDirty (Run.single trivial) trivial

end Swirl
