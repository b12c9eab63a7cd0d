import Swirl.Desktop.Transaction

set_option autoImplicit false

/-! # The life of a node

The invariant behind the transactions, `Lifetime`, speaks of the node records, of the nodes that
the instructions of the two transactions name, of the dirty list and of the nodes freed so far:
reference counts are counts of instructions, and a marked node that is not freed is held by one
of these lists. The first part proves what each kind of change does to it, the second that every
function of `Swirl/Desktop/Transaction.lean` is made of these changes.
-/

namespace Swirl

/-- A node was freed as it should be: marked, in no list, named by no instruction. -/
def Destruction.Clean (d : Destruction) : Prop :=
  d.destroying = true ∧ d.listed = false ∧ d.references = 0

/-- The invariant: `queued` and `pending` are the nodes that the instructions of the two
transactions name, `dirty` is the dirty list, `freed` records the nodes freed so far. -/
structure Lifetime (node : NodeId → NodeRecord) (queued pending dirty : List NodeId)
    (freed : List Destruction) : Prop where
  refs : ∀ n, (node n).ntxnrefs = queued.count n + pending.count n
  queuedNodup : queued.Nodup
  pendingNodup : pending.Nodup
  dirtyNodup : dirty.Nodup
  dirty_iff : ∀ n, (node n).dirty = true ↔ n ∈ dirty
  once : (freed.map Destruction.node).Nodup
  clean : ∀ d ∈ freed, d.Clean
  marked : ∀ n ∈ freed.map Destruction.node, (node n).destroying = true
  /-- A marked node is freed exactly when no list holds it. -/
  held : ∀ n, (node n).destroying = true →
    (n ∈ freed.map Destruction.node ↔ (node n).dirty = false ∧ (node n).ntxnrefs = 0)

namespace Lifetime

variable {node node' : NodeId → NodeRecord} {queued pending dirty : List NodeId}
  {freed : List Destruction}

/-! ## What a change of one record does -/

/-- The addresses of the instructions do not matter. -/
theorem congr (h : Lifetime node queued pending dirty freed)
    (hnode : ∀ n, (node' n).dirty = (node n).dirty ∧
      (node' n).destroying = (node n).destroying ∧ (node' n).ntxnrefs = (node n).ntxnrefs) :
    Lifetime node' queued pending dirty freed where
  refs n := by rw [(hnode n).2.2]; exact h.refs n
  queuedNodup := h.queuedNodup
  pendingNodup := h.pendingNodup
  dirtyNodup := h.dirtyNodup
  dirty_iff n := by rw [(hnode n).1]; exact h.dirty_iff n
  once := h.once
  clean := h.clean
  marked n hn := by rw [(hnode n).2.1]; exact h.marked n hn
  held n hn := by
    rw [(hnode n).2.1] at hn
    rw [(hnode n).1, (hnode n).2.2]
    exact h.held n hn

/-- A node that is not marked was not freed. -/
theorem not_freed (h : Lifetime node queued pending dirty freed) {n : NodeId}
    (hx : (node n).destroying = false) : n ∉ freed.map Destruction.node := by
  intro hn
  rw [h.marked n hn] at hx
  exact absurd hx (by decide)

/-- A node becomes dirty. -/
theorem mark (h : Lifetime node queued pending dirty freed) {n : NodeId}
    (hd : (node n).dirty = false) (hx : (node n).destroying = false) :
    Lifetime (Function.update node n { node n with dirty := true }) queued pending (dirty ++ [n])
      freed := by
  have hn : n ∉ dirty := by
    intro hmem
    rw [← h.dirty_iff, hd] at hmem
    exact absurd hmem (by decide)
  refine ⟨?_, h.queuedNodup, h.pendingNodup, ?_, ?_, h.once, h.clean, ?_, ?_⟩
  · intro m
    by_cases hm : m = n
    · subst hm; simpa using h.refs m
    · simpa [hm] using h.refs m
  · rw [List.nodup_append_comm]
    exact List.nodup_cons.mpr ⟨hn, h.dirtyNodup⟩
  · intro m
    by_cases hm : m = n
    · subst hm; simp
    · simpa [hm] using h.dirty_iff m
  · intro m hm
    have hne : m ≠ n := fun e => h.not_freed hx (e ▸ hm)
    simpa [hne] using h.marked m hm
  · intro m hm
    by_cases hmn : m = n
    · subst hmn; simp [hx] at hm
    · simp only [Function.update_of_ne hmn] at hm ⊢
      exact h.held m hm

/-- A node is marked destroying: it is dirty, or was marked before. -/
theorem beginDestroy (h : Lifetime node queued pending dirty freed) {n : NodeId}
    (hn : (node n).dirty = true ∨ (node n).destroying = true) :
    Lifetime (Function.update node n { node n with destroying := true }) queued pending dirty
      freed := by
  refine ⟨?_, h.queuedNodup, h.pendingNodup, h.dirtyNodup, ?_, h.once, h.clean, ?_, ?_⟩
  · intro m
    by_cases hm : m = n
    · subst hm; simpa using h.refs m
    · simpa [hm] using h.refs m
  · intro m
    by_cases hm : m = n
    · subst hm; simpa using h.dirty_iff m
    · simpa [hm] using h.dirty_iff m
  · intro m hm
    by_cases hmn : m = n
    · subst hmn; simp
    · simpa [hmn] using h.marked m hm
  · intro m hm
    by_cases hmn : m = n
    · subst hmn
      simp only [Function.update_self]
      cases hx : (node m).destroying with
      | true => exact h.held m hx
      | false =>
          have hd : (node m).dirty = true := by simpa [hx] using hn
          simpa [hd] using h.not_freed hx
    · simp only [Function.update_of_ne hmn] at hm ⊢
      exact h.held m hm

/-- The next dirty node gets an instruction of its own. -/
theorem add {n : NodeId} (h : Lifetime node queued pending (n :: dirty) freed) (hn : n ∉ pending) :
    Lifetime
      (Function.update node n { node n with ntxnrefs := (node n).ntxnrefs + 1, dirty := false })
      queued (pending ++ [n]) dirty freed := by
  have hdirty : (node n).dirty = true := (h.dirty_iff n).mpr List.mem_cons_self
  obtain ⟨hnd, hdirtyNodup⟩ := List.nodup_cons.mp h.dirtyNodup
  refine ⟨?_, h.queuedNodup, ?_, hdirtyNodup, ?_, h.once, h.clean, ?_, ?_⟩
  · intro m
    by_cases hm : m = n
    · subst hm
      have := h.refs m
      simp [this, List.count_append, Nat.add_assoc]
    · have hcount : [n].count m = 0 := List.count_eq_zero.mpr (by simpa using hm)
      simpa [hm, List.count_append, hcount] using h.refs m
  · rw [List.nodup_append_comm]
    exact List.nodup_cons.mpr ⟨hn, h.pendingNodup⟩
  · intro m
    by_cases hm : m = n
    · subst hm; simpa using hnd
    · simpa [hm] using h.dirty_iff m
  · intro m hm
    by_cases hmn : m = n
    · subst hmn; simpa using h.marked m hm
    · simpa [hmn] using h.marked m hm
  · intro m hm
    by_cases hmn : m = n
    · subst hmn
      simp only [Function.update_self] at hm ⊢
      have := h.held m hm
      simpa [hdirty] using this
    · simp only [Function.update_of_ne hmn] at hm ⊢
      exact h.held m hm

/-- The next dirty node has an instruction already. -/
theorem merge {n : NodeId} (h : Lifetime node queued pending (n :: dirty) freed)
    (hn : n ∈ pending) :
    Lifetime (Function.update node n { node n with dirty := false }) queued pending dirty
      freed := by
  have hdirty : (node n).dirty = true := (h.dirty_iff n).mpr List.mem_cons_self
  have hpos : 0 < (node n).ntxnrefs := by
    have := List.count_pos_iff.mpr hn
    rw [h.refs n]; omega
  obtain ⟨hnd, hdirtyNodup⟩ := List.nodup_cons.mp h.dirtyNodup
  refine ⟨?_, h.queuedNodup, h.pendingNodup, hdirtyNodup, ?_, h.once, h.clean, ?_, ?_⟩
  · intro m
    by_cases hm : m = n
    · subst hm; simpa using h.refs m
    · simpa [hm] using h.refs m
  · intro m
    by_cases hm : m = n
    · subst hm; simpa using hnd
    · simpa [hm] using h.dirty_iff m
  · intro m hm
    by_cases hmn : m = n
    · subst hmn; simpa using h.marked m hm
    · simpa [hmn] using h.marked m hm
  · intro m hm
    by_cases hmn : m = n
    · subst hmn
      simp only [Function.update_self] at hm ⊢
      have := h.held m hm
      simpa [hdirty, hpos.ne'] using this
    · simp only [Function.update_of_ne hmn] at hm ⊢
      exact h.held m hm

/-- What `transaction_destroy` frees first: one instruction of the queued transaction. A node
that is then freed as well is recorded. -/
theorem release {n : NodeId} (h : Lifetime node (n :: queued) pending dirty freed)
    {f : NodeRecord → NodeRecord}
    (hf : ∀ k, (f k).dirty = k.dirty ∧ (f k).destroying = k.destroying ∧
      (f k).ntxnrefs = k.ntxnrefs - 1)
    {d : Destruction} (hd : d = ⟨n, (f (node n)).destroying, decide (n ∈ dirty),
      queued.count n + pending.count n⟩) :
    Lifetime (Function.update node n (f (node n))) queued pending dirty
      (if (f (node n)).destroying = true ∧ (f (node n)).ntxnrefs = 0 ∧ (f (node n)).dirty = false
        then freed ++ [d] else freed) := by
  obtain ⟨hnq, hqueuedNodup⟩ := List.nodup_cons.mp h.queuedNodup
  obtain ⟨hfd, hfx, hfr⟩ := hf (node n)
  have hrefs : (node n).ntxnrefs = 1 + pending.count n := by
    have := h.refs n
    rw [List.count_cons_self, List.count_eq_zero.mpr hnq] at this
    omega
  have hnotfreed : n ∉ freed.map Destruction.node := by
    intro hn
    have := ((h.held n (h.marked n hn)).mp hn).2
    omega
  have hrefs' : ∀ m, (Function.update node n (f (node n)) m).ntxnrefs =
      queued.count m + pending.count m := by
    intro m
    by_cases hm : m = n
    · subst hm
      rw [Function.update_self, hfr, hrefs, List.count_eq_zero.mpr hnq]
      omega
    · rw [Function.update_of_ne hm, h.refs m, List.count_cons_of_ne (Ne.symm hm)]
  have hdirty' : ∀ m, (Function.update node n (f (node n)) m).dirty = true ↔ m ∈ dirty := by
    intro m
    by_cases hm : m = n
    · subst hm; rw [Function.update_self, hfd]; exact h.dirty_iff m
    · rw [Function.update_of_ne hm]; exact h.dirty_iff m
  have hmarked' : ∀ m ∈ freed.map Destruction.node,
      (Function.update node n (f (node n)) m).destroying = true := by
    intro m hm
    have hne : m ≠ n := fun e => hnotfreed (e ▸ hm)
    rw [Function.update_of_ne hne]
    exact h.marked m hm
  split
  next hfree =>
    have hmap : (freed ++ [d]).map Destruction.node = freed.map Destruction.node ++ [n] := by
      simp [hd]
    have hclean : d.Clean := by
      have hlisted : n ∉ dirty := by
        rw [← h.dirty_iff, ← hfd, hfree.2.2]
        decide
      have hcount := hrefs' n
      rw [Function.update_self, hfree.2.1] at hcount
      rw [hd]
      exact ⟨hfree.1, decide_eq_false hlisted, hcount.symm⟩
    refine ⟨hrefs', hqueuedNodup, h.pendingNodup, h.dirtyNodup, hdirty', ?_, ?_, ?_, ?_⟩
    · rw [hmap, List.nodup_append_comm]
      exact List.nodup_cons.mpr ⟨hnotfreed, h.once⟩
    · intro e he
      rcases List.mem_append.mp he with he | he
      · exact h.clean e he
      · rw [List.mem_singleton.mp he]; exact hclean
    · rw [hmap]
      intro m hm
      rcases List.mem_append.mp hm with hm | hm
      · exact hmarked' m hm
      · rw [List.mem_singleton.mp hm, Function.update_self]; exact hfree.1
    · rw [hmap]
      intro m hm
      by_cases hmn : m = n
      · subst hmn
        rw [Function.update_self]
        simpa using ⟨hfree.2.2, hfree.2.1⟩
      · rw [Function.update_of_ne hmn] at hm ⊢
        rw [List.mem_append, List.mem_singleton, or_iff_left hmn]
        exact h.held m hm
  next hkeep =>
    refine ⟨hrefs', hqueuedNodup, h.pendingNodup, h.dirtyNodup, hdirty', h.once, h.clean, hmarked',
      ?_⟩
    intro m hm
    by_cases hmn : m = n
    · subst hmn
      rw [Function.update_self] at hm ⊢
      refine iff_of_false hnotfreed ?_
      rintro ⟨h1, h2⟩
      exact hkeep ⟨hm, h2, h1⟩
    · rw [Function.update_of_ne hmn] at hm ⊢
      exact h.held m hm

/-- The pending transaction becomes the queued one. -/
theorem shift (h : Lifetime node [] pending dirty freed) :
    Lifetime node pending [] dirty freed :=
  ⟨fun n => by simpa [Nat.add_comm] using h.refs n, h.pendingNodup, h.queuedNodup, h.dirtyNodup,
    h.dirty_iff, h.once, h.clean, h.marked, h.held⟩

/-- With nothing in the transactions, a marked node is freed or still dirty. -/
theorem drained (h : Lifetime node [] [] dirty freed) {n : NodeId}
    (hx : (node n).destroying = true) : n ∈ freed.map Destruction.node ∨ n ∈ dirty := by
  rw [h.held n hx, ← h.dirty_iff]
  have := h.refs n
  cases (node n).dirty <;> simp_all

end Lifetime

/-! ## What the functions do -/

variable {W S : Type}

/-- The nodes that the instructions of a transaction name. -/
def namesOf (tx : Option (Transaction S)) : List NodeId :=
  (instructionsOf tx).map Instruction.node

/-- **The invariant between two events.** -/
def LifetimeInv (s : Server W S) : Prop :=
  Lifetime s.node (namesOf s.queuedTransaction) (namesOf s.pendingTransaction) s.dirtyNodes
    s.destroyed

/-- While the queued transaction is freed: the instructions `rest` are still there. -/
def LifetimeRest (rest : List NodeId) (s : Server W S) : Prop :=
  Lifetime s.node rest (namesOf s.pendingTransaction) s.dirtyNodes s.destroyed

theorem lifetimeInv_start (w : W) (noatomic txnWait : Bool) :
    LifetimeInv (Server.start w noatomic txnWait : Server W S) := by
  constructor <;> simp [Server.start, namesOf, instructionsOf]

/-! ### Marking -/

/-- `node_set_dirty` touches neither the transactions nor the freed nodes. -/
theorem nodeSetDirty_frame (s : Server W S) (n : NodeId) :
    (nodeSetDirty s n).pendingTransaction = s.pendingTransaction ∧
      (nodeSetDirty s n).queuedTransaction = s.queuedTransaction ∧
      (nodeSetDirty s n).destroyed = s.destroyed := by
  unfold nodeSetDirty
  split <;> exact ⟨rfl, rfl, rfl⟩

theorem lifetimeRest_nodeSetDirty {rest : List NodeId} {s : Server W S} (h : LifetimeRest rest s)
    (n : NodeId) : LifetimeRest rest (nodeSetDirty s n) := by
  unfold nodeSetDirty
  split
  next => exact h
  next hn =>
    rw [Bool.or_eq_true, not_or, Bool.not_eq_true, Bool.not_eq_true] at hn
    exact Lifetime.mark h hn.1 hn.2

/-- After `node_set_dirty` a node is dirty or was marked before. -/
theorem nodeSetDirty_dirty (s : Server W S) (n : NodeId) :
    ((nodeSetDirty s n).node n).dirty = true ∨ ((nodeSetDirty s n).node n).destroying = true := by
  unfold nodeSetDirty
  split
  next hn => simpa using hn
  next => exact Or.inl (by simp [Server.modNode])

theorem lifetimeRest_nodeBeginDestroy {rest : List NodeId} {s : Server W S}
    (h : LifetimeRest rest s) (n : NodeId) : LifetimeRest rest (nodeBeginDestroy s n) :=
  Lifetime.beginDestroy (lifetimeRest_nodeSetDirty h n) (nodeSetDirty_dirty s n)

theorem lifetimeRest_effect {rest : List NodeId} {s : Server W S} (h : LifetimeRest rest s)
    (e : Effect) : LifetimeRest rest (e.run s) := by
  cases e with
  | setDirty n => exact lifetimeRest_nodeSetDirty h n
  | beginDestroy n => exact lifetimeRest_nodeBeginDestroy h n

theorem lifetimeRest_effects {rest : List NodeId} (es : List Effect) {s : Server W S}
    (h : LifetimeRest rest s) : LifetimeRest rest (es.foldl Effect.run s) := by
  induction es generalizing s with
  | nil => exact h
  | cons e es ih => exact ih (lifetimeRest_effect h e)

theorem effect_frame (s : Server W S) (e : Effect) :
    (e.run s).pendingTransaction = s.pendingTransaction ∧
      (e.run s).queuedTransaction = s.queuedTransaction ∧ (e.run s).destroyed = s.destroyed := by
  cases e with
  | setDirty n => exact nodeSetDirty_frame s n
  | beginDestroy n => exact nodeSetDirty_frame s n

theorem effects_frame (es : List Effect) (s : Server W S) :
    (es.foldl Effect.run s).pendingTransaction = s.pendingTransaction ∧
      (es.foldl Effect.run s).queuedTransaction = s.queuedTransaction ∧
      (es.foldl Effect.run s).destroyed = s.destroyed := by
  induction es generalizing s with
  | nil => exact ⟨rfl, rfl, rfl⟩
  | cons e es ih =>
      obtain ⟨h1, h2, h3⟩ := ih (e.run s)
      obtain ⟨h1', h2', h3'⟩ := effect_frame s e
      exact ⟨h1.trans h1', h2.trans h2', h3.trans h3'⟩

/-! ### Freeing -/

theorem transactionDestroy_pending (env : Env W S) (is : List (Instruction S)) (s : Server W S) :
    (transactionDestroy env is s).pendingTransaction = s.pendingTransaction := by
  induction is generalizing s with
  | nil => rfl
  | cons i is ih =>
      rw [transactionDestroy, ih]
      split
      next => exact (effects_frame _ _).1
      next => rfl

/-- One round of the loop of `transaction_destroy`. -/
theorem lifetimeRest_transactionDestroy (env : Env W S) (is : List (Instruction S))
    {s : Server W S} (h : LifetimeRest (is.map Instruction.node) s) :
    LifetimeRest [] (transactionDestroy env is s) := by
  induction is generalizing s with
  | nil => exact h
  | cons i is ih =>
      rw [transactionDestroy]
      refine ih ?_
      have hr := Lifetime.release (n := i.node) h (f := fun k =>
        { k with
          ntxnrefs := k.ntxnrefs - 1
          instruction := if k.instruction = some i.id then none else k.instruction })
        (fun k => ⟨rfl, rfl, rfl⟩) rfl
      simp only [Server.modNode, Function.update_self]
      split
      next hfree =>
        rw [if_pos hfree] at hr
        refine lifetimeRest_effects _ ?_
        simpa [LifetimeRest, instructionCount, namesOf] using hr
      next hkeep =>
        rw [if_neg hkeep] at hr
        exact hr

/-! ### Filling the pending transaction -/

/-- What an update does to the state of an instruction does not change whom it names. -/
theorem map_modify_node {is : List (Instruction S)} {f : Instruction S → Instruction S}
    (hf : ∀ i, (f i).node = i.node) (idx : Nat) :
    (is.modify idx f).map Instruction.node = is.map Instruction.node := by
  induction is generalizing idx with
  | nil => simp
  | cons i is ih =>
      cases idx with
      | zero => simp [hf]
      | succ k => simp [ih]

theorem addDirtyNode_frame (env : Env W S) (serverRequest : Bool) (s : Server W S) (n : NodeId) :
    (addDirtyNode env serverRequest s n).queuedTransaction = s.queuedTransaction ∧
      (addDirtyNode env serverRequest s n).destroyed = s.destroyed ∧
      ((addDirtyNode env serverRequest s n).pendingTransaction.isSome =
        s.pendingTransaction.isSome) := by
  unfold addDirtyNode transactionAddNode
  cases hp : s.pendingTransaction with
  | none => simp [Server.modNode, hp]
  | some tx =>
      dsimp only
      split <;> simp [Server.modNode]

theorem lifetime_addDirtyNode (env : Env W S) (serverRequest : Bool) {s : Server W S}
    {tx : Transaction S} (hp : s.pendingTransaction = some tx) {n : NodeId}
    {queued dirty : List NodeId}
    (h : Lifetime s.node queued (namesOf s.pendingTransaction) (n :: dirty) s.destroyed) :
    let s' := addDirtyNode env serverRequest s n
    Lifetime s'.node queued (namesOf s'.pendingTransaction) dirty s'.destroyed := by
  have hnames : namesOf s.pendingTransaction = tx.instructions.map Instruction.node := by
    rw [hp]; rfl
  have hmem : (tx.instructions.any fun i => decide (i.node = n)) = true ↔
      n ∈ namesOf s.pendingTransaction := by
    rw [hnames, List.any_eq_true, List.mem_map]
    simp
  unfold addDirtyNode transactionAddNode
  rw [hp]
  dsimp only
  split
  next hfound =>
    have hm := h.merge (hmem.mp hfound.2)
    simpa [Server.modNode, namesOf, instructionsOf, map_modify_node, hp] using hm
  next hfresh =>
    have hn : n ∉ namesOf s.pendingTransaction := by
      intro hin
      refine hfresh ⟨?_, hmem.mpr hin⟩
      have := List.count_pos_iff.mpr hin
      rw [h.refs n]
      omega
    have ha := h.add hn
    simpa [Server.modNode, namesOf, instructionsOf, hp] using ha

theorem lifetime_addDirtyNodes (env : Env W S) (serverRequest : Bool) (ns : List NodeId)
    {s : Server W S} (hp : s.pendingTransaction.isSome = true) {queued : List NodeId}
    (h : Lifetime s.node queued (namesOf s.pendingTransaction) ns s.destroyed) :
    let s' := ns.foldl (addDirtyNode env serverRequest) s
    Lifetime s'.node queued (namesOf s'.pendingTransaction) [] s'.destroyed ∧
      s'.queuedTransaction = s.queuedTransaction := by
  induction ns generalizing s with
  | nil => exact ⟨h, rfl⟩
  | cons n ns ih =>
      obtain ⟨tx, htx⟩ := Option.isSome_iff_exists.mp hp
      obtain ⟨hq, -, hs⟩ := addDirtyNode_frame env serverRequest s n
      obtain ⟨h1, h2⟩ := ih (hs.trans hp) (lifetime_addDirtyNode env serverRequest htx h)
      exact ⟨h1, h2.trans hq⟩

/-! ### Committing and applying -/

/-- Two servers agree on everything the invariant reads. -/
structure SameLife (s s' : Server W S) : Prop where
  node : ∀ n, (s'.node n).dirty = (s.node n).dirty ∧
    (s'.node n).destroying = (s.node n).destroying ∧ (s'.node n).ntxnrefs = (s.node n).ntxnrefs
  dirtyNodes : s'.dirtyNodes = s.dirtyNodes
  pendingTransaction : s'.pendingTransaction = s.pendingTransaction
  queuedTransaction : s'.queuedTransaction = s.queuedTransaction
  destroyed : s'.destroyed = s.destroyed

namespace SameLife

variable {s s' s'' : Server W S}

theorem refl (s : Server W S) : SameLife s s := ⟨fun _ => ⟨rfl, rfl, rfl⟩, rfl, rfl, rfl, rfl⟩

theorem trans (h : SameLife s s') (h' : SameLife s' s'') : SameLife s s'' where
  node n := ⟨(h'.node n).1.trans (h.node n).1, (h'.node n).2.1.trans (h.node n).2.1,
    (h'.node n).2.2.trans (h.node n).2.2⟩
  dirtyNodes := h'.dirtyNodes.trans h.dirtyNodes
  pendingTransaction := h'.pendingTransaction.trans h.pendingTransaction
  queuedTransaction := h'.queuedTransaction.trans h.queuedTransaction
  destroyed := h'.destroyed.trans h.destroyed

theorem world (s : Server W S) (w : W) : SameLife s { s with world := w } :=
  ⟨fun _ => ⟨rfl, rfl, rfl⟩, rfl, rfl, rfl, rfl⟩

theorem instruction (s : Server W S) (n : NodeId) (id : Option Nat) :
    SameLife s (s.modNode n fun k => { k with instruction := id }) := by
  refine ⟨fun m => ?_, rfl, rfl, rfl, rfl⟩
  by_cases hm : m = n
  · subst hm; simp [Server.modNode]
  · simp [Server.modNode, hm]

theorem lifetimeRest (h : SameLife s s') {l : List NodeId} (hs : LifetimeRest l s) :
    LifetimeRest l s' := by
  unfold LifetimeRest
  rw [h.dirtyNodes, h.pendingTransaction, h.destroyed]
  exact Lifetime.congr hs h.node

end SameLife

theorem sameLife_transactionApply (env : Env W S) (is : List (Instruction S)) (s : Server W S) :
    SameLife s (transactionApply env is s) := by
  unfold transactionApply
  induction is generalizing s with
  | nil => exact SameLife.refl s
  | cons i is ih =>
      exact ((SameLife.world s _).trans (SameLife.instruction _ i.node none)).trans (ih _)

/-- Committing changes no mark and no count, and the committed instructions name whom they
named. -/
theorem commitInstructions_spec (env : Env W S) (is : List (Instruction S)) (s : Server W S) :
    SameLife s (commitInstructions env is s).1 ∧
      (commitInstructions env is s).2.1.map Instruction.node = is.map Instruction.node := by
  induction is generalizing s with
  | nil => exact ⟨SameLife.refl s, rfl⟩
  | cons i is ih =>
      rw [commitInstructions]
      refine ⟨SameLife.trans ?_ (ih _).1, ?_⟩
      · refine SameLife.trans ?_ (SameLife.instruction _ i.node (some i.id))
        split
        next => exact SameLife.world s _
        next => exact SameLife.refl s
      · simp only [List.map_cons, (ih _).2]
        split <;> rfl

theorem lifetimeInv_queuePending (env : Env W S) {s : Server W S} (h : LifetimeInv s) :
    LifetimeInv (queuePending env s) := by
  unfold queuePending
  split
  next hq hp =>
    rename_i tx
    obtain ⟨hsame, hnames⟩ :=
      commitInstructions_spec env tx.instructions { s with pendingTransaction := none }
    have hshift : LifetimeRest (tx.instructions.map Instruction.node)
        { s with pendingTransaction := none } := by
      unfold LifetimeInv at h
      rw [hq, hp] at h
      exact Lifetime.shift h
    have hl := hsame.lifetimeRest hshift
    unfold LifetimeInv
    rw [← hnames] at hl
    exact hl
  next => exact h

theorem queuePending_pending (env : Env W S) {s : Server W S} (hq : s.queuedTransaction = none) :
    (queuePending env s).pendingTransaction = none := by
  unfold queuePending
  split
  next => exact (commitInstructions_spec env _ _).1.pendingTransaction
  next hne =>
    cases hp : s.pendingTransaction with
    | none => rfl
    | some tx => exact absurd hp (hne tx hq)

theorem finishQueued_spec (env : Env W S) {s : Server W S} {tx : Transaction S}
    (hq : s.queuedTransaction = some tx) (h : LifetimeInv s) :
    LifetimeInv (finishQueued env s tx) ∧
      (finishQueued env s tx).queuedTransaction = none ∧
      (finishQueued env s tx).pendingTransaction = s.pendingTransaction := by
  have happly := sameLife_transactionApply env tx.instructions s
  have hsame := happly.trans (SameLife.world _ (env.arrangeRoot (transactionApply env
    tx.instructions s).world))
  have hrest : LifetimeRest (tx.instructions.map Instruction.node) s := by
    unfold LifetimeInv at h
    rw [hq] at h
    exact h
  refine ⟨?_, rfl, ?_⟩
  · exact lifetimeRest_transactionDestroy env tx.instructions (hsame.lifetimeRest hrest)
  · exact (transactionDestroy_pending env tx.instructions _).trans hsame.pendingTransaction

theorem lifetimeInv_progressWithin (env : Env W S) (rounds : Nat) {s : Server W S}
    (h : LifetimeInv s) : LifetimeInv (progressWithin env rounds s) := by
  induction rounds generalizing s with
  | zero => exact h
  | succ n ih =>
      rw [progressWithin]
      split
      next => exact h
      next tx hq =>
        split
        next => exact h
        next =>
          obtain ⟨hinv, -, -⟩ := finishQueued_spec env hq h
          dsimp only
          split
          next => exact hinv
          next => exact ih (lifetimeInv_queuePending env hinv)

/-- The second round finds nothing pending: more rounds change nothing. -/
theorem transactionProgress_rounds (env : Env W S) (k : Nat) {s : Server W S} (h : LifetimeInv s) :
    progressWithin env (k + 2) s = transactionProgress env s := by
  have hlast : ∀ (k : Nat) (t : Server W S), LifetimeInv t → t.pendingTransaction = none →
      progressWithin env (k + 1) t = progressWithin env 1 t := by
    intro k t ht hp
    rw [progressWithin, progressWithin]
    split
    next => rfl
    next tx hq =>
      split
      next => rfl
      next =>
        dsimp only
        rw [(finishQueued_spec env hq ht).2.2, hp]
  rw [transactionProgress, progressWithin, progressWithin]
  split
  next => rfl
  next tx hq =>
    split
    next => rfl
    next =>
      obtain ⟨hinv, hnone, -⟩ := finishQueued_spec env hq h
      dsimp only
      split
      next => rfl
      next =>
        exact hlast k _ (lifetimeInv_queuePending env hinv) (queuePending_pending env hnone)

theorem lifetimeInv_transactionCommitPending (env : Env W S) {s : Server W S}
    (h : LifetimeInv s) : LifetimeInv (transactionCommitPending env s) := by
  unfold transactionCommitPending
  split
  next => exact h
  next => exact lifetimeInv_progressWithin env 2 (lifetimeInv_queuePending env h)

/-- What `_transaction_commit_dirty` hands to `transaction_commit_pending`. -/
theorem lifetimeInv_addDirtyNodes (env : Env W S) (serverRequest : Bool) {s : Server W S}
    (h : LifetimeInv s) :
    LifetimeInv (addDirtyNodes env serverRequest
      { s with pendingTransaction := some (s.pendingTransaction.getD ⟨[], 0, false⟩) }) := by
  have hnames : namesOf (some (s.pendingTransaction.getD ⟨[], 0, false⟩)) =
      namesOf s.pendingTransaction := by
    cases s.pendingTransaction <;> rfl
  obtain ⟨hl, hq⟩ := lifetime_addDirtyNodes env serverRequest s.dirtyNodes
    (s := { s with pendingTransaction := some (s.pendingTransaction.getD ⟨[], 0, false⟩) })
    rfl (by rw [hnames]; exact h)
  have hq' : (addDirtyNodes env serverRequest { s with
      pendingTransaction := some (s.pendingTransaction.getD ⟨[], 0, false⟩) }).queuedTransaction =
      s.queuedTransaction := hq
  unfold LifetimeInv
  rw [hq']
  exact hl

theorem lifetimeInv_transactionCommitDirty (env : Env W S) (serverRequest : Bool)
    {s : Server W S} (h : LifetimeInv s) :
    LifetimeInv (transactionCommitDirty env serverRequest s) := by
  unfold transactionCommitDirty
  split
  next => exact h
  next =>
    exact lifetimeInv_transactionCommitPending env (lifetimeInv_addDirtyNodes env serverRequest h)

/-! ### Acknowledgements and the timer -/

theorem ready_instructions (tx : Transaction S) (i : Instruction S) :
    (tx.ready i).instructions = tx.instructions := by
  unfold Transaction.ready
  split <;> rfl

theorem namesOf_ready (tx : Option (Transaction S)) (i : Instruction S) :
    namesOf (tx.map (Transaction.ready · i)) = namesOf tx := by
  cases tx with
  | none => rfl
  | some tx => simp [namesOf, instructionsOf, ready_instructions]

/-- What `set_instruction_ready` hands to `transaction_progress`. -/
theorem lifetimeInv_ready {s : Server W S} (h : LifetimeInv s) (i : Instruction S) :
    LifetimeInv ({ s with
      queuedTransaction := s.queuedTransaction.map (Transaction.ready · i)
      pendingTransaction := s.pendingTransaction.map (Transaction.ready · i) }.modNode i.node
        fun k => { k with instruction := none }) := by
  have hsame := SameLife.instruction { s with
    queuedTransaction := s.queuedTransaction.map (Transaction.ready · i)
    pendingTransaction := s.pendingTransaction.map (Transaction.ready · i) } i.node none
  refine hsame.lifetimeRest (l := namesOf (s.queuedTransaction.map (Transaction.ready · i))) ?_
  unfold LifetimeRest
  rw [namesOf_ready, namesOf_ready]
  exact h

theorem lifetimeInv_setInstructionReady (env : Env W S) {s : Server W S} (h : LifetimeInv s)
    (i : Instruction S) : LifetimeInv (setInstructionReady env s i) :=
  lifetimeInv_progressWithin env 2 (lifetimeInv_ready h i)

theorem lifetimeInv_handleTimeout (env : Env W S) {s : Server W S} (h : LifetimeInv s) :
    LifetimeInv (handleTimeout env s) := by
  unfold handleTimeout
  split
  next tx hq =>
    split
    next =>
      refine lifetimeInv_progressWithin env 2 ?_
      unfold LifetimeInv at h ⊢
      rw [hq] at h
      exact h
    next => exact h
  next => exact h

/-! ## A node that was handed over stays so -/

/-- A marked node stays marked, and once it is no longer dirty it stays so: `node_set_dirty`
ignores it. -/
def KeepsHanded (s s' : Server W S) : Prop :=
  ∀ n, (s.node n).destroying = true → (s'.node n).destroying = true ∧
    ((s.node n).dirty = false → (s'.node n).dirty = false)

namespace KeepsHanded

variable {s s' s'' : Server W S}

theorem refl (s : Server W S) : KeepsHanded s s := fun _ hx => ⟨hx, id⟩

theorem trans (h : KeepsHanded s s') (h' : KeepsHanded s' s'') : KeepsHanded s s'' :=
  fun n hx => ⟨(h' n (h n hx).1).1, fun hd => (h' n (h n hx).1).2 ((h n hx).2 hd)⟩

theorem of_node (h : s'.node = s.node) : KeepsHanded s s' := by
  intro n hx
  rw [h]
  exact ⟨hx, id⟩

theorem of_sameLife (h : SameLife s s') : KeepsHanded s s' := by
  intro n hx
  rw [(h.node n).1, (h.node n).2.1]
  exact ⟨hx, id⟩

/-- An update of one record that unmarks nothing and makes nothing dirty. -/
theorem modNode (s : Server W S) (n : NodeId) {f : NodeRecord → NodeRecord}
    (hf : ∀ k, (k.destroying = true → (f k).destroying = true) ∧
      (k.dirty = false → (f k).dirty = false)) : KeepsHanded s (s.modNode n f) := by
  intro m hx
  by_cases hm : m = n
  · subst hm
    simpa [Server.modNode] using ⟨(hf _).1 hx, (hf _).2⟩
  · simpa [Server.modNode, hm] using hx

theorem nodeSetDirty (s : Server W S) (n : NodeId) : KeepsHanded s (nodeSetDirty s n) := by
  unfold Swirl.nodeSetDirty
  split
  next => exact refl s
  next hn =>
    rw [Bool.or_eq_true, not_or, Bool.not_eq_true, Bool.not_eq_true] at hn
    intro m hx
    have hm : m ≠ n := by
      intro e
      rw [e, hn.2] at hx
      exact absurd hx (by decide)
    simpa [Server.modNode, hm] using hx

theorem nodeBeginDestroy (s : Server W S) (n : NodeId) : KeepsHanded s (nodeBeginDestroy s n) :=
  (nodeSetDirty s n).trans (modNode _ n fun _ => ⟨fun _ => rfl, id⟩)

theorem effects (es : List Effect) (s : Server W S) : KeepsHanded s (es.foldl Effect.run s) := by
  induction es generalizing s with
  | nil => exact refl s
  | cons e es ih =>
      refine trans ?_ (ih _)
      cases e with
      | setDirty n => exact nodeSetDirty s n
      | beginDestroy n => exact nodeBeginDestroy s n

theorem nodeDestroy (env : Env W S) (rest : List (Instruction S)) (s : Server W S) (n : NodeId) :
    KeepsHanded s (nodeDestroy env rest s n) := by
  have he := effects (env.destroy s.world n).2
    { s with
      world := (env.destroy s.world n).1
      destroyed := s.destroyed ++ [⟨n, (s.node n).destroying, decide (n ∈ s.dirtyNodes),
        instructionCount rest n + instructionCount (instructionsOf s.pendingTransaction) n⟩] }
  exact he

theorem transactionDestroy (env : Env W S) (is : List (Instruction S)) (s : Server W S) :
    KeepsHanded s (transactionDestroy env is s) := by
  induction is generalizing s with
  | nil => exact refl s
  | cons i is ih =>
      rw [Swirl.transactionDestroy]
      refine trans ?_ (ih _)
      refine trans (modNode s i.node (f := fun k =>
        { k with
          ntxnrefs := k.ntxnrefs - 1
          instruction := if k.instruction = some i.id then none else k.instruction })
        fun _ => ⟨id, id⟩) ?_
      split
      next => exact nodeDestroy env is _ i.node
      next => exact refl _

theorem addDirtyNode (env : Env W S) (serverRequest : Bool) (s : Server W S) (n : NodeId) :
    KeepsHanded s (addDirtyNode env serverRequest s n) := by
  refine trans ?_ (modNode _ n fun _ => ⟨id, fun _ => rfl⟩)
  unfold transactionAddNode
  split
  next => exact refl s
  next =>
    dsimp only
    split
    next => exact refl s
    next =>
      exact (modNode s n (f := fun k => { k with ntxnrefs := k.ntxnrefs + 1 })
        (fun _ => ⟨id, id⟩)).trans (of_node rfl)

theorem addDirtyNodes (env : Env W S) (serverRequest : Bool) (s : Server W S) :
    KeepsHanded s (addDirtyNodes env serverRequest s) := by
  have hfold : ∀ (ns : List NodeId) (t : Server W S),
      KeepsHanded t (ns.foldl (Swirl.addDirtyNode env serverRequest) t) := by
    intro ns
    induction ns with
    | nil => exact refl
    | cons n ns ih => exact fun t => (addDirtyNode env serverRequest t n).trans (ih _)
  exact hfold s.dirtyNodes s

theorem queuePending (env : Env W S) (s : Server W S) : KeepsHanded s (queuePending env s) := by
  unfold Swirl.queuePending
  split
  next tx _ _ =>
    have hc := of_sameLife
      (commitInstructions_spec env tx.instructions { s with pendingTransaction := none }).1
    exact hc
  next => exact refl s

theorem finishQueued (env : Env W S) (s : Server W S) (tx : Transaction S) :
    KeepsHanded s (finishQueued env s tx) :=
  ((of_sameLife (sameLife_transactionApply env tx.instructions s)).trans
    (of_sameLife (SameLife.world _ _))).trans (transactionDestroy env tx.instructions _)

theorem progressWithin (env : Env W S) (rounds : Nat) (s : Server W S) :
    KeepsHanded s (progressWithin env rounds s) := by
  induction rounds generalizing s with
  | zero => exact refl s
  | succ n ih =>
      rw [Swirl.progressWithin]
      split
      next => exact refl s
      next tx _ =>
        split
        next => exact refl s
        next =>
          dsimp only
          split
          next => exact finishQueued env s tx
          next => exact ((finishQueued env s tx).trans (queuePending env _)).trans (ih _)

theorem transactionCommitPending (env : Env W S) (s : Server W S) :
    KeepsHanded s (transactionCommitPending env s) := by
  unfold Swirl.transactionCommitPending
  split
  next => exact refl s
  next => exact (queuePending env s).trans (progressWithin env 2 _)

theorem transactionCommitDirty (env : Env W S) (serverRequest : Bool) (s : Server W S) :
    KeepsHanded s (transactionCommitDirty env serverRequest s) := by
  unfold Swirl.transactionCommitDirty
  split
  next => exact refl s
  next =>
    exact ((of_node rfl).trans (addDirtyNodes env serverRequest { s with
      pendingTransaction := some (s.pendingTransaction.getD ⟨[], 0, false⟩) })).trans
      (transactionCommitPending env _)

theorem setInstructionReady (env : Env W S) (s : Server W S) (i : Instruction S) :
    KeepsHanded s (setInstructionReady env s i) :=
  (of_sameLife (SameLife.instruction { s with
    queuedTransaction := s.queuedTransaction.map (Transaction.ready · i)
    pendingTransaction := s.pendingTransaction.map (Transaction.ready · i) } i.node none)).trans
    (progressWithin env 2 _)

/-- Every event keeps the nodes handed over. -/
theorem step (env : Env W S) (s : Server W S) (e : TxnEvent W) :
    KeepsHanded s (txnStep env s e) := by
  cases e with
  | setDirty n => exact nodeSetDirty s n
  | beginDestroy n => exact nodeBeginDestroy s n
  | commitDirty => exact transactionCommitDirty env true s
  | commitDirtyClient => exact transactionCommitDirty env false s
  | readyBySerial n serial =>
      rw [txnStep, transactionNotifyViewReadyBySerial]
      split
      next i _ =>
        split
        next => exact setInstructionReady env s i
        next => exact refl s
      next => exact refl s
  | readyByGeometry n box =>
      rw [txnStep, transactionNotifyViewReadyByGeometry]
      split
      next i _ =>
        split
        next => exact setInstructionReady env s i
        next => exact refl s
      next => exact refl s
  | timeout =>
      rw [txnStep, handleTimeout]
      split
      next tx _ =>
        split
        next =>
          exact (of_node rfl).trans (progressWithin env 2
            { s with queuedTransaction := some { tx with numWaiting := 0, timer := false } })
        next => exact refl s
      next => exact refl s
  | edit w => exact refl s

end KeepsHanded

/-- A commit hands every marked node over. -/
theorem transactionCommitDirty_handed (env : Env W S) (serverRequest : Bool) {s : Server W S}
    (h : LifetimeInv s) {n : NodeId} (hx : (s.node n).destroying = true) :
    ((transactionCommitDirty env serverRequest s).node n).destroying = true ∧
      ((transactionCommitDirty env serverRequest s).node n).dirty = false := by
  unfold transactionCommitDirty
  split
  next hnil =>
    refine ⟨hx, ?_⟩
    have := h.dirty_iff n
    simpa [hnil] using this
  next =>
    have hadd := lifetimeInv_addDirtyNodes env serverRequest h
    have hmarked := (KeepsHanded.addDirtyNodes env serverRequest
      { s with pendingTransaction := some (s.pendingTransaction.getD ⟨[], 0, false⟩) } n hx).1
    have hkeep := KeepsHanded.transactionCommitPending env _ n hmarked
    refine ⟨hkeep.1, hkeep.2 ?_⟩
    have := hadd.dirty_iff n
    simpa [addDirtyNodes] using this

/-! ## Runs -/

/-- **The step lemma.** -/
theorem lifetimeInv_step (env : Env W S) {s : Server W S} (h : LifetimeInv s) (e : TxnEvent W) :
    LifetimeInv (txnStep env s e) := by
  cases e with
  | setDirty n =>
      have hrest : LifetimeRest (namesOf s.queuedTransaction) (nodeSetDirty s n) :=
        lifetimeRest_nodeSetDirty h n
      unfold LifetimeInv
      rw [show (txnStep env s (.setDirty n)).queuedTransaction = s.queuedTransaction from
        (nodeSetDirty_frame s n).2.1]
      exact hrest
  | beginDestroy n =>
      have hrest : LifetimeRest (namesOf s.queuedTransaction) (nodeBeginDestroy s n) :=
        lifetimeRest_nodeBeginDestroy h n
      unfold LifetimeInv
      rw [show (txnStep env s (.beginDestroy n)).queuedTransaction = s.queuedTransaction from
        (nodeSetDirty_frame s n).2.1]
      exact hrest
  | commitDirty => exact lifetimeInv_transactionCommitDirty env true h
  | commitDirtyClient => exact lifetimeInv_transactionCommitDirty env false h
  | readyBySerial n serial =>
      rw [txnStep, transactionNotifyViewReadyBySerial]
      split
      next i _ =>
        split
        next => exact lifetimeInv_setInstructionReady env h i
        next => exact h
      next => exact h
  | readyByGeometry n box =>
      rw [txnStep, transactionNotifyViewReadyByGeometry]
      split
      next i _ =>
        split
        next => exact lifetimeInv_setInstructionReady env h i
        next => exact h
      next => exact h
  | timeout => exact lifetimeInv_handleTimeout env h
  | edit w => exact h

open Lib in
theorem lifetimeInv_run (env : Env W S) {w : W} {noatomic txnWait : Bool} {s : Server W S}
    (h : Run (txnStep env) Free (Server.start w noatomic txnWait) s) : LifetimeInv s :=
  h.invariant (fun _ e hs _ => lifetimeInv_step env hs e) (lifetimeInv_start w noatomic txnWait)

open Lib in
theorem KeepsHanded.run (env : Env W S) {s t : Server W S} (h : Run (txnStep env) Free s t) :
    KeepsHanded s t := by
  induction h with
  | refl => exact KeepsHanded.refl s
  | step e _ _ ih => exact ih.trans (KeepsHanded.step env _ e)

/-- A compositor without views in which freeing node `0` begins to destroy node `1`. -/
def pooledEnv : Env Unit Unit where
  copyState _ _ := ()
  isView _ _ := false
  isVisible _ _ := false
  boxChanged _ _ _ := false
  viewConfigure _ _ _ := ((), 0)
  applyState _ _ _ := ()
  arrangeRoot _ := ()
  destroy _ n := ((), if n = 0 then [.setDirty 2, .beginDestroy 1] else [])
  contentBox _ := ⟨0, 0, 0, 0⟩
  timerCreated _ := true

end Swirl
