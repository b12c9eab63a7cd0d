import Swirl.Desktop.Lifetime
import Swirl.Lib.Staged

set_option autoImplicit false

/-! # No update is lost

The tree is edited in its pending state, and a transaction takes a copy of each dirty node to its
current state. The copies wait in two stages, the pending and the queued transaction, and merging,
waiting and timing out must not lose one: `UpToDate` says that what a node will show is what it
holds, unless it is dirty or being destroyed.
-/

namespace Swirl

open Lib

variable {W S : Type}

/-- `applied` reads the current state of a node (`node->current`): applying a state writes it and
nothing else, and no other part of a transaction touches the current or the pending state of a
node, but that freeing a node changes it and the nodes it marks. -/
structure Env.Shows (env : Env W S) (applied : W → NodeId → S) : Prop where
  configure : ∀ w n st m, env.copyState (env.viewConfigure w n st).1 m = env.copyState w m ∧
    applied (env.viewConfigure w n st).1 m = applied w m
  apply_copy : ∀ w n st m, env.copyState (env.applyState w n st) m = env.copyState w m
  apply_applied : ∀ w n st, applied (env.applyState w n st) = Function.update (applied w) n st
  arrange : ∀ w m, env.copyState (env.arrangeRoot w) m = env.copyState w m ∧
    applied (env.arrangeRoot w) m = applied w m
  destroy : ∀ w n m, m ≠ n → .setDirty m ∉ (env.destroy w n).2 →
    .beginDestroy m ∉ (env.destroy w n).2 →
      env.copyState (env.destroy w n).1 m = env.copyState w m ∧
        applied (env.destroy w n).1 m = applied w m

/-- A node that is neither dirty nor being destroyed. -/
def Server.Clean (s : Server W S) (n : NodeId) : Prop :=
  (s.node n).dirty = false ∧ (s.node n).destroying = false

/-- The copies in a transaction. -/
def copies (is : List (Instruction S)) : List (NodeId × S) := is.map fun i => (i.node, i.state)

/-- What the nodes will show when both transactions are applied. -/
def Server.willShow (applied : W → NodeId → S) (s : Server W S) : NodeId → S :=
  staged [copies (instructionsOf s.pendingTransaction), copies (instructionsOf s.queuedTransaction)]
    (applied s.world)

/-- **The invariant**: a clean node will show what it holds. -/
def UpToDate (env : Env W S) (applied : W → NodeId → S) (s : Server W S) : Prop :=
  ∀ n, s.Clean n → s.willShow applied n = env.copyState s.world n

/-- An event may change the state of a node only while the node is dirty or being destroyed. -/
def TxnEvent.Marked (env : Env W S) (applied : W → NodeId → S) (s : Server W S) :
    TxnEvent W → Prop
  | .edit w => ∀ n, s.Clean n →
      env.copyState w n = env.copyState s.world n ∧ applied w n = applied s.world n
  | _ => True

/-! ## What a part of a transaction leaves alone -/

/-- From `s` to `s'`, no node gets clean, and one that stays clean holds and shows the same. -/
def Undisturbed (env : Env W S) (applied : W → NodeId → S) (s s' : Server W S) : Prop :=
  ∀ n, s'.Clean n → s.Clean n ∧ env.copyState s'.world n = env.copyState s.world n ∧
    applied s'.world n = applied s.world n

/-- From `s` to `s'`, no node gets clean, and one that stays clean holds and will show the same. -/
def Carries (env : Env W S) (applied : W → NodeId → S) (s s' : Server W S) : Prop :=
  ∀ n, s'.Clean n → s.Clean n ∧ env.copyState s'.world n = env.copyState s.world n ∧
    s'.willShow applied n = s.willShow applied n

section Relations

variable {env : Env W S} {applied : W → NodeId → S} {s s' s'' : Server W S}

theorem Undisturbed.refl (s : Server W S) : Undisturbed env applied s s := fun _ h => ⟨h, rfl, rfl⟩

theorem Undisturbed.trans (h : Undisturbed env applied s s') (h' : Undisturbed env applied s' s'') :
    Undisturbed env applied s s'' := by
  intro n hn
  obtain ⟨hn', hcopy', happlied'⟩ := h' n hn
  obtain ⟨hn'', hcopy, happlied⟩ := h n hn'
  exact ⟨hn'', hcopy'.trans hcopy, happlied'.trans happlied⟩

theorem Carries.refl (s : Server W S) : Carries env applied s s := fun _ h => ⟨h, rfl, rfl⟩

theorem Carries.trans (h : Carries env applied s s') (h' : Carries env applied s' s'') :
    Carries env applied s s'' := by
  intro n hn
  obtain ⟨hn', hcopy', hshow'⟩ := h' n hn
  obtain ⟨hn'', hcopy, hshow⟩ := h n hn'
  exact ⟨hn'', hcopy'.trans hcopy, hshow'.trans hshow⟩

theorem UpToDate.carries (h : UpToDate env applied s) (hc : Carries env applied s s') :
    UpToDate env applied s' := by
  intro n hn
  obtain ⟨hclean, hcopy, hshow⟩ := hc n hn
  calc s'.willShow applied n
      = s.willShow applied n := hshow
    _ = env.copyState s.world n := h n hclean
    _ = env.copyState s'.world n := hcopy.symm

/-- What leaves the transactions alone, too. -/
theorem Undisturbed.carries (h : Undisturbed env applied s s')
    (hp : s'.pendingTransaction = s.pendingTransaction)
    (hq : copies (instructionsOf s'.queuedTransaction) =
      copies (instructionsOf s.queuedTransaction)) : Carries env applied s s' := by
  intro n hn
  obtain ⟨hclean, hcopy, happlied⟩ := h n hn
  refine ⟨hclean, hcopy, ?_⟩
  unfold Server.willShow
  rw [hp, hq]
  exact staged_congr _ happlied

/-- A change of the counts and the addresses in a node's record. -/
theorem clean_modNode (s : Server W S) (n m : NodeId) {f : NodeRecord → NodeRecord}
    (hf : ∀ k, (f k).dirty = k.dirty ∧ (f k).destroying = k.destroying) :
    (s.modNode n f).Clean m ↔ s.Clean m := by
  unfold Server.Clean Server.modNode
  by_cases hm : m = n
  · subst hm
    simp [(hf _).1, (hf _).2]
  · simp [hm]

variable (env applied) in
theorem undisturbed_modNode (s : Server W S) (n : NodeId) {f : NodeRecord → NodeRecord}
    (hf : ∀ k, (f k).dirty = k.dirty ∧ (f k).destroying = k.destroying) :
    Undisturbed env applied s (s.modNode n f) :=
  fun m hm => ⟨(clean_modNode s n m hf).1 hm, rfl, rfl⟩

/-! ## Marking and freeing -/

theorem undisturbed_nodeSetDirty (s : Server W S) (n : NodeId) :
    Undisturbed env applied s (nodeSetDirty s n) ∧ ¬ (nodeSetDirty s n).Clean n := by
  unfold nodeSetDirty
  split
  · rename_i hmarked
    refine ⟨Undisturbed.refl s, fun hclean => ?_⟩
    rw [hclean.1, hclean.2] at hmarked
    exact absurd hmarked (by decide)
  · refine ⟨fun m hm => ⟨?_, rfl, rfl⟩, fun hclean => ?_⟩
    · by_cases hmn : m = n
      · subst hmn
        exact absurd hm.1 (by simp [Server.modNode])
      · simpa [Server.Clean, Server.modNode, hmn] using hm
    · exact absurd hclean.1 (by simp [Server.modNode])

theorem undisturbed_nodeBeginDestroy (s : Server W S) (n : NodeId) :
    Undisturbed env applied s (nodeBeginDestroy s n) ∧ ¬ (nodeBeginDestroy s n).Clean n := by
  refine ⟨(undisturbed_nodeSetDirty s n).1.trans fun m hm => ⟨?_, rfl, rfl⟩, fun hclean => ?_⟩
  · by_cases hmn : m = n
    · subst hmn
      exact absurd hm.2 (by simp [nodeBeginDestroy, Server.modNode])
    · simpa [nodeBeginDestroy, Server.Clean, Server.modNode, hmn] using hm
  · exact absurd hclean.2 (by simp [nodeBeginDestroy, Server.modNode])

/-- The node an effect marks. -/
def Effect.node : Effect → NodeId
  | .setDirty n | .beginDestroy n => n

variable (env applied) in
theorem undisturbed_effect (s : Server W S) (e : Effect) :
    Undisturbed env applied s (e.run s) ∧ ¬ (e.run s).Clean e.node := by
  cases e with
  | setDirty n => exact undisturbed_nodeSetDirty s n
  | beginDestroy n => exact undisturbed_nodeBeginDestroy s n

variable (env applied) in
theorem undisturbed_effects (es : List Effect) (s : Server W S) :
    Undisturbed env applied s (es.foldl Effect.run s) ∧
      ∀ e ∈ es, ¬ (es.foldl Effect.run s).Clean e.node := by
  induction es generalizing s with
  | nil => exact ⟨Undisturbed.refl s, by simp⟩
  | cons e es ih =>
      obtain ⟨hrest, hmarked⟩ := ih (e.run s)
      obtain ⟨hfirst, hfirstMarked⟩ := undisturbed_effect env applied s e
      refine ⟨hfirst.trans hrest, fun e' he' hclean => ?_⟩
      rcases List.mem_cons.1 he' with rfl | he'
      · exact hfirstMarked (hrest _ hclean).1
      · exact hmarked e' he' hclean

end Relations

section Transactions

variable {env : Env W S} {applied : W → NodeId → S} (hk : env.Shows applied)
include hk

theorem undisturbed_nodeDestroy (rest : List (Instruction S)) {s : Server W S} {n : NodeId}
    (hn : (s.node n).destroying = true) : Undisturbed env applied s (nodeDestroy env rest s n) := by
  intro m hm
  obtain ⟨hrest, hmarked⟩ := undisturbed_effects env applied
    (env.destroy s.world n).2 { s with
      world := (env.destroy s.world n).1
      destroyed := s.destroyed ++ [{
        node := n
        destroying := (s.node n).destroying
        listed := decide (n ∈ s.dirtyNodes)
        references := instructionCount rest n +
          instructionCount (instructionsOf s.pendingTransaction) n }] }
  obtain ⟨hclean, hcopy, happlied⟩ := hrest m hm
  have hne : m ≠ n := by
    rintro rfl
    rw [hclean.2] at hn
    exact absurd hn (by decide)
  -- a node that freeing changes is marked
  obtain ⟨hcopy', happlied'⟩ := hk.destroy s.world n m hne
    (fun he => hmarked _ he hm) (fun he => hmarked _ he hm)
  exact ⟨hclean, hcopy.trans hcopy', happlied.trans happlied'⟩

theorem undisturbed_transactionDestroy (is : List (Instruction S)) (s : Server W S) :
    Undisturbed env applied s (transactionDestroy env is s) := by
  induction is generalizing s with
  | nil => exact Undisturbed.refl s
  | cons i is ih =>
      rw [transactionDestroy]
      refine Undisturbed.trans ?_ (ih _)
      have hrecord := undisturbed_modNode env applied s i.node (f := fun k =>
        { k with
          ntxnrefs := k.ntxnrefs - 1
          instruction := if k.instruction = some i.id then none else k.instruction })
        fun _ => ⟨rfl, rfl⟩
      split
      · rename_i hfree
        exact hrecord.trans (undisturbed_nodeDestroy hk is hfree.1)
      · exact hrecord

/-! ## Committing and applying -/

/-- Committing configures views: no node's state changes, and the copies stay. -/
theorem undisturbed_commitInstructions (is : List (Instruction S)) (s : Server W S) :
    Undisturbed env applied s (commitInstructions env is s).1 ∧
      copies (commitInstructions env is s).2.1 = copies is := by
  induction is generalizing s with
  | nil => exact ⟨Undisturbed.refl s, rfl⟩
  | cons i is ih =>
      rw [commitInstructions]
      constructor
      · refine Undisturbed.trans ?_ (ih _).1
        refine Undisturbed.trans ?_ (undisturbed_modNode env applied _ i.node fun _ => ⟨rfl, rfl⟩)
        split
        · exact fun m hm => ⟨hm, hk.configure s.world i.node i.state m⟩
        · exact Undisturbed.refl s
      · simp only [copies, List.map_cons] at ih ⊢
        rw [(ih _).2]
        split <;> rfl

/-- **Committing the pending transaction** moves its copies to the other stage. -/
theorem carries_queuePending (s : Server W S) : Carries env applied s (queuePending env s) := by
  unfold queuePending
  split
  · rename_i tx hq hp
    obtain ⟨hrest, hcopies⟩ := undisturbed_commitInstructions hk tx.instructions
      { s with pendingTransaction := none }
    have hpend := (commitInstructions_spec env tx.instructions
      { s with pendingTransaction := none }).1.pendingTransaction
    intro n hn
    obtain ⟨hclean, hcopy, happlied⟩ := hrest n hn
    refine ⟨hclean, hcopy, ?_⟩
    have hbefore : s.willShow applied n = staged [copies tx.instructions, []] (applied s.world) n := by
      unfold Server.willShow
      rw [hp, hq]
      rfl
    rw [hbefore]
    show staged [copies (instructionsOf (commitInstructions env tx.instructions
        { s with pendingTransaction := none }).1.pendingTransaction),
      copies (commitInstructions env tx.instructions { s with pendingTransaction := none }).2.1] _ n =
        _
    rw [hpend, hcopies]
    exact staged_congr [[], copies tx.instructions] happlied
  · exact Carries.refl s

/-- Applying writes the copies to the current states. -/
theorem transactionApply_shows (is : List (Instruction S)) (s : Server W S) :
    (∀ n, (transactionApply env is s).Clean n ↔ s.Clean n) ∧
      (∀ n, env.copyState (transactionApply env is s).world n = env.copyState s.world n) ∧
      applied (transactionApply env is s).world = written (copies is) (applied s.world) := by
  induction is generalizing s with
  | nil => exact ⟨fun _ => Iff.rfl, fun _ => rfl, rfl⟩
  | cons i is ih =>
      obtain ⟨hclean, hcopy, happlied⟩ := ih
        ({ s with world := env.applyState s.world i.node i.state }.modNode i.node fun k =>
          { k with instruction := none })
      refine ⟨fun n => ?_, fun n => ?_, ?_⟩
      · exact (hclean n).trans (clean_modNode _ i.node n fun _ => ⟨rfl, rfl⟩)
      · exact (hcopy n).trans (hk.apply_copy s.world i.node i.state n)
      · exact happlied.trans (congrArg _ (hk.apply_applied s.world i.node i.state))

/-- **Finishing the queued transaction** writes the older stage. -/
theorem carries_finishQueued {s : Server W S} {tx : Transaction S}
    (hq : s.queuedTransaction = some tx) (h : LifetimeInv s) :
    Carries env applied s (finishQueued env s tx) := by
  obtain ⟨hclean, hcopy, happlied⟩ := transactionApply_shows hk tx.instructions s
  have hdestroy := undisturbed_transactionDestroy hk tx.instructions
    { transactionApply env tx.instructions s with
      world := env.arrangeRoot (transactionApply env tx.instructions s).world }
  have hpend := (finishQueued_spec env hq h).2.2
  have hnodup : ((copies tx.instructions).map Prod.fst).Nodup := by
    have hnames : (copies tx.instructions).map Prod.fst = namesOf s.queuedTransaction := by
      rw [hq]
      simp [copies, namesOf, instructionsOf]
    rw [hnames]
    exact h.queuedNodup
  intro n hn
  obtain ⟨hn', hcopy', happlied'⟩ := hdestroy n hn
  obtain ⟨harrangeCopy, harrangeApplied⟩ :=
    hk.arrange (transactionApply env tx.instructions s).world n
  refine ⟨(hclean n).1 hn', (hcopy'.trans harrangeCopy).trans (hcopy n), ?_⟩
  have hstore : applied (finishQueued env s tx).world n =
      written (copies tx.instructions) (applied s.world) n :=
    (happlied'.trans harrangeApplied).trans (congrFun happlied n)
  unfold Server.willShow
  rw [hpend, hq]
  show staged [copies _, []] _ n = staged ([copies _] ++ [copies tx.instructions]) _ n
  rw [staged_written _ hnodup]
  exact staged_congr [copies (instructionsOf s.pendingTransaction)] hstore

theorem carries_progressWithin (rounds : Nat) {s : Server W S} (h : LifetimeInv s) :
    Carries env applied s (progressWithin env rounds s) := by
  induction rounds generalizing s with
  | zero => exact Carries.refl s
  | succ n ih =>
      rw [progressWithin]
      cases hq : s.queuedTransaction with
      | none => exact Carries.refl s
      | some tx =>
          dsimp only
          split
          · exact Carries.refl s
          · have hfinish := carries_finishQueued hk hq h
            have hinv := (finishQueued_spec env hq h).1
            split
            · exact hfinish
            · exact (hfinish.trans (carries_queuePending hk _)).trans
                (ih (lifetimeInv_queuePending env hinv))

theorem carries_transactionCommitPending {s : Server W S} (h : LifetimeInv s) :
    Carries env applied s (transactionCommitPending env s) := by
  unfold transactionCommitPending
  split
  · exact Carries.refl s
  · exact (carries_queuePending hk s).trans
      (carries_progressWithin hk 2 (lifetimeInv_queuePending env h))

end Transactions

/-! ## Filling the pending transaction -/

theorem copies_modify (is : List (Instruction S)) (k : Nat) {f : Instruction S → Instruction S}
    {st : S} (hf : ∀ i, (f i).node = i.node ∧ (f i).state = st) :
    copies (is.modify k f) = (copies is).modify k fun e => (e.1, st) := by
  induction is generalizing k with
  | nil => simp [copies]
  | cons i is ih =>
      cases k with
      | zero => simp [copies, hf]
      | succ k => simpa [copies] using ih k

theorem findIdx_copies (is : List (Instruction S)) (n : NodeId) :
    (copies is).findIdx (fun e => decide (e.1 = n)) = is.findIdx fun i => decide (i.node = n) := by
  rw [copies, List.findIdx_map]
  rfl

/-- The new stage holds the copy of the node, and else what it held. -/
theorem addDirtyNode_stage (env : Env W S) (serverRequest : Bool) {s : Server W S}
    {tx : Transaction S} (hp : s.pendingTransaction = some tx) {n : NodeId}
    {queued dirty : List NodeId}
    (h : Lifetime s.node queued (namesOf s.pendingTransaction) (n :: dirty) s.destroyed) :
    ∃ is, (addDirtyNode env serverRequest s n).pendingTransaction =
        some { tx with instructions := is } ∧
      ∀ m, entry (copies is) m =
        if m = n then some (env.copyState s.world n) else entry (copies tx.instructions) m := by
  have hnames : namesOf s.pendingTransaction = (copies tx.instructions).map Prod.fst := by
    rw [hp]
    simp [copies, namesOf, instructionsOf]
  have hmem : (tx.instructions.any fun i => decide (i.node = n)) = true ↔
      n ∈ (copies tx.instructions).map Prod.fst := by
    simp [copies]
  unfold addDirtyNode transactionAddNode
  rw [hp]
  dsimp only
  split
  · rename_i hfound
    refine ⟨_, rfl, fun m => ?_⟩
    have hmodify := copies_modify tx.instructions
      (tx.instructions.findIdx fun i => decide (i.node = n)) (f := fun i =>
        { i with
          state := env.copyState s.world n
          serverRequest := i.serverRequest || serverRequest }) (fun i => ⟨rfl, rfl⟩)
    rw [hmodify, ← findIdx_copies]
    exact entry_modify (hmem.1 hfound.2) _ m
  · rename_i hfresh
    refine ⟨_, rfl, fun m => ?_⟩
    have hnew : n ∉ (copies tx.instructions).map Prod.fst := by
      intro hin
      refine hfresh ⟨?_, hmem.2 hin⟩
      rw [← hnames] at hin
      have hcount := List.count_pos_iff.2 hin
      rw [h.refs n]
      omega
    have happend := entry_append_new hnew (env.copyState s.world n) m
    simpa [copies] using happend

/-- **A dirty node is added**: what it will show is what it holds now. -/
theorem upToDate_addDirtyNode {env : Env W S} {applied : W → NodeId → S} (serverRequest : Bool)
    {s : Server W S} (hsome : s.pendingTransaction.isSome = true) {n : NodeId}
    {queued dirty : List NodeId}
    (h : Lifetime s.node queued (namesOf s.pendingTransaction) (n :: dirty) s.destroyed)
    (hu : UpToDate env applied s) : UpToDate env applied (addDirtyNode env serverRequest s n) := by
  obtain ⟨tx, hp⟩ := Option.isSome_iff_exists.1 hsome
  obtain ⟨is, his, hentry⟩ := addDirtyNode_stage env serverRequest hp h
  obtain ⟨hqueued, -, -⟩ := addDirtyNode_frame env serverRequest s n
  have hworld : (addDirtyNode env serverRequest s n).world = s.world := by
    unfold addDirtyNode transactionAddNode
    rw [hp]
    dsimp only
    split <;> rfl
  intro m hm
  unfold Server.willShow
  rw [hworld, his, hqueued]
  show (entry (copies is) m).getD _ = _
  rw [hentry]
  by_cases hmn : m = n
  · subst hmn
    rw [if_pos rfl, Option.getD_some]
  · have hclean : s.Clean m := by
      unfold addDirtyNode transactionAddNode at hm
      rw [hp] at hm
      dsimp only at hm
      split at hm <;> simpa [Server.Clean, Server.modNode, hmn] using hm
    have hshow := hu m hclean
    unfold Server.willShow at hshow
    rw [hp] at hshow
    rw [if_neg hmn]
    exact hshow

theorem upToDate_addDirtyNodes {env : Env W S} {applied : W → NodeId → S} (serverRequest : Bool)
    (ns : List NodeId) {s : Server W S} (hp : s.pendingTransaction.isSome = true)
    {queued : List NodeId}
    (h : Lifetime s.node queued (namesOf s.pendingTransaction) ns s.destroyed)
    (hu : UpToDate env applied s) :
    UpToDate env applied (ns.foldl (addDirtyNode env serverRequest) s) := by
  induction ns generalizing s with
  | nil => exact hu
  | cons n ns ih =>
      obtain ⟨tx, htx⟩ := Option.isSome_iff_exists.1 hp
      obtain ⟨-, -, hsome⟩ := addDirtyNode_frame env serverRequest s n
      exact ih (hsome.trans hp) (lifetime_addDirtyNode env serverRequest htx h)
        (upToDate_addDirtyNode serverRequest hp h hu)

/-! ## Every event -/

section Events

variable {env : Env W S} {applied : W → NodeId → S} (hk : env.Shows applied)
include hk

theorem upToDate_transactionCommitDirty (serverRequest : Bool) {s : Server W S}
    (h : LifetimeInv s) (hu : UpToDate env applied s) :
    UpToDate env applied (transactionCommitDirty env serverRequest s) := by
  unfold transactionCommitDirty
  split
  · exact hu
  · have hnames : namesOf (some (s.pendingTransaction.getD ⟨[], 0, false⟩)) =
        namesOf s.pendingTransaction := by
      cases s.pendingTransaction <;> rfl
    have hopened : UpToDate env applied
        { s with pendingTransaction := some (s.pendingTransaction.getD ⟨[], 0, false⟩) } := by
      refine hu.carries fun n hn => ⟨hn, rfl, ?_⟩
      unfold Server.willShow
      cases s.pendingTransaction <;> rfl
    have hadded := upToDate_addDirtyNodes serverRequest s.dirtyNodes
      (s := { s with pendingTransaction := some (s.pendingTransaction.getD ⟨[], 0, false⟩) })
      rfl (by rw [hnames]; exact h) hopened
    have hinv := lifetimeInv_addDirtyNodes env serverRequest h
    exact UpToDate.carries (s := addDirtyNodes env serverRequest _) hadded
      (carries_transactionCommitPending hk hinv)

theorem carries_setInstructionReady {s : Server W S} (h : LifetimeInv s) (i : Instruction S) :
    Carries env applied s (setInstructionReady env s i) := by
  have hready : ∀ tx : Option (Transaction S),
      instructionsOf (tx.map (Transaction.ready · i)) = instructionsOf tx := by
    intro tx
    cases tx with
    | none => rfl
    | some tx => exact ready_instructions tx i
  have hcounted : Carries env applied s { s with
      queuedTransaction := s.queuedTransaction.map (Transaction.ready · i)
      pendingTransaction := s.pendingTransaction.map (Transaction.ready · i) } := by
    refine fun n hn => ⟨hn, rfl, ?_⟩
    unfold Server.willShow
    rw [hready, hready]
  have hpointer := undisturbed_modNode env applied { s with
      queuedTransaction := s.queuedTransaction.map (Transaction.ready · i)
      pendingTransaction := s.pendingTransaction.map (Transaction.ready · i) } i.node
    (f := fun k => { k with instruction := none }) fun k => ⟨rfl, rfl⟩
  exact (hcounted.trans (hpointer.carries rfl rfl)).trans
    (carries_progressWithin hk 2 (lifetimeInv_ready h i))

theorem carries_handleTimeout {s : Server W S} (h : LifetimeInv s) :
    Carries env applied s (handleTimeout env s) := by
  unfold handleTimeout
  split
  · rename_i tx hq
    split
    · have hcounted : Carries env applied s { s with
          queuedTransaction := some { tx with numWaiting := 0, timer := false } } := by
        refine fun n hn => ⟨hn, rfl, ?_⟩
        unfold Server.willShow
        rw [hq]
        rfl
      refine hcounted.trans (carries_progressWithin hk 2 ?_)
      unfold LifetimeInv at h ⊢
      rw [hq] at h
      exact h
    · exact Carries.refl s
  · exact Carries.refl s

/-- **The step**: no event loses an update. -/
theorem upToDate_step {s : Server W S} (h : LifetimeInv s) (hu : UpToDate env applied s)
    {e : TxnEvent W} (he : e.Marked env applied s) : UpToDate env applied (txnStep env s e) := by
  cases e with
  | setDirty n =>
      refine hu.carries ((undisturbed_nodeSetDirty s n).1.carries ?_ ?_)
      · exact (nodeSetDirty_frame s n).1
      · exact congrArg (fun tx => copies (instructionsOf tx)) (nodeSetDirty_frame s n).2.1
  | beginDestroy n =>
      refine hu.carries ((undisturbed_nodeBeginDestroy s n).1.carries ?_ ?_)
      · exact (nodeSetDirty_frame s n).1
      · exact congrArg (fun tx => copies (instructionsOf tx)) (nodeSetDirty_frame s n).2.1
  | commitDirty => exact upToDate_transactionCommitDirty hk true h hu
  | commitDirtyClient => exact upToDate_transactionCommitDirty hk false h hu
  | readyBySerial n serial =>
      show UpToDate env applied (transactionNotifyViewReadyBySerial env s n serial)
      unfold transactionNotifyViewReadyBySerial
      split
      · split
        · exact hu.carries (carries_setInstructionReady hk h _)
        · exact hu
      · exact hu
  | readyByGeometry n box =>
      show UpToDate env applied (transactionNotifyViewReadyByGeometry env s n box)
      unfold transactionNotifyViewReadyByGeometry
      split
      · split
        · exact hu.carries (carries_setInstructionReady hk h _)
        · exact hu
      · exact hu
  | timeout => exact hu.carries (carries_handleTimeout hk h)
  | edit w =>
      intro n hn
      obtain ⟨hcopy, happlied⟩ := he n hn
      show staged _ (applied w) n = env.copyState w n
      rw [hcopy, ← hu n hn]
      exact staged_congr _ happlied

end Events

/-! ## Nothing waits for ever -/

section Armed

variable (env : Env W S) {s : Server W S}

/-- A queued transaction waits with its timer armed, and the pending one waits for it only. -/
structure Armed (s : Server W S) : Prop where
  timer : ∀ tx, s.queuedTransaction = some tx → 0 < tx.numWaiting ∧ tx.timer = true
  waits : s.queuedTransaction = none → s.pendingTransaction = none

/-- The timer of the queued transaction is armed while it waits. -/
def Timed (s : Server W S) : Prop :=
  ∀ tx, s.queuedTransaction = some tx → tx.timer = decide (0 < tx.numWaiting)

theorem Armed.timed (h : Armed s) : Timed s := by
  intro tx hq
  obtain ⟨hpos, htimer⟩ := h.timer tx hq
  rw [htimer, decide_eq_true hpos]

theorem timed_queuePending (h : Timed s) : Timed (queuePending env s) := by
  unfold queuePending
  split
  · intro tx htx
    obtain rfl := Option.some.inj htx
    rfl
  · exact h

/-- With nothing pending, one round is enough. -/
theorem armed_round (rounds : Nat) (h : LifetimeInv s) (ht : Timed s)
    (hp : s.pendingTransaction = none) :
    Armed (progressWithin env (rounds + 1) s) ∧
      (progressWithin env (rounds + 1) s).pendingTransaction = none := by
  rw [progressWithin]
  cases hq : s.queuedTransaction with
  | none => exact ⟨⟨fun tx htx => absurd (hq.symm.trans htx) (by simp), fun _ => hp⟩, hp⟩
  | some tx =>
      dsimp only
      split
      · rename_i hpos
        refine ⟨⟨fun tx' htx => ?_, fun hnone => absurd (hq.symm.trans hnone) (by simp)⟩, hp⟩
        obtain rfl : tx = tx' := Option.some.inj (hq.symm.trans htx)
        exact ⟨hpos, (ht tx hq).trans (decide_eq_true hpos)⟩
      · obtain ⟨-, hnone, hpend⟩ := finishQueued_spec env hq h
        rw [hpend, hp]
        refine ⟨⟨fun tx htx => ?_, fun _ => hpend.trans hp⟩, hpend.trans hp⟩
        exact absurd (hnone.symm.trans htx) (by simp)

/-- What is left when nothing is queued: the pending transaction is committed. -/
theorem armed_pending (h : LifetimeInv s) (hq : s.queuedTransaction = none) (rounds : Nat) :
    Armed (progressWithin env (rounds + 1) (queuePending env s)) ∧
      (progressWithin env (rounds + 1) (queuePending env s)).pendingTransaction = none :=
  armed_round env rounds (lifetimeInv_queuePending env h)
    (timed_queuePending env fun tx htx => absurd (hq.symm.trans htx) (by simp))
    (queuePending_pending env hq)

/-- A queued transaction that waits for nothing is applied, and the pending one is committed. -/
theorem transactionProgress_ready {tx : Transaction S} (h : LifetimeInv s)
    (hq : s.queuedTransaction = some tx) (hzero : tx.numWaiting = 0) :
    Armed (transactionProgress env s) ∧ (transactionProgress env s).pendingTransaction = none ∧
      (s.pendingTransaction = none → (transactionProgress env s).queuedTransaction = none) := by
  obtain ⟨hinv, hnone, hpend⟩ := finishQueued_spec env hq h
  unfold transactionProgress
  rw [progressWithin, hq]
  dsimp only
  rw [if_neg (by omega), hpend]
  cases hp : s.pendingTransaction with
  | none =>
      have hempty := hpend.trans hp
      refine ⟨⟨fun tx' htx => ?_, fun _ => hempty⟩, hempty, fun _ => hnone⟩
      exact absurd (hnone.symm.trans htx) (by simp)
  | some tx' =>
      obtain ⟨harmed, hempty⟩ := armed_pending env hinv hnone 0
      exact ⟨harmed, hempty, fun hp' => absurd hp' (by simp)⟩

theorem armed_transactionProgress (h : LifetimeInv s) (ht : Timed s)
    (hw : s.queuedTransaction = none → s.pendingTransaction = none) :
    Armed (transactionProgress env s) := by
  cases hq : s.queuedTransaction with
  | none => exact (armed_round env 1 h ht (hw hq)).1
  | some tx =>
      by_cases hpos : 0 < tx.numWaiting
      · have hidle : transactionProgress env s = s := by
          rw [transactionProgress, progressWithin, hq]
          exact if_pos hpos
        rw [hidle]
        refine ⟨fun tx' htx => ?_, fun hnone => absurd (hq.symm.trans hnone) (by simp)⟩
        obtain rfl : tx = tx' := Option.some.inj (hq.symm.trans htx)
        exact ⟨hpos, (ht tx hq).trans (decide_eq_true hpos)⟩
      · exact (transactionProgress_ready env h hq (by omega)).1

theorem armed_transactionCommitPending (h : LifetimeInv s) (ha : Timed s)
    (hq : ∀ tx, s.queuedTransaction = some tx → 0 < tx.numWaiting) :
    Armed (transactionCommitPending env s) := by
  unfold transactionCommitPending
  cases hqueued : s.queuedTransaction with
  | some tx =>
      refine ⟨fun tx' htx => ?_, fun hnone => absurd (hqueued.symm.trans hnone) (by simp)⟩
      exact ⟨hq tx' htx, (ha tx' htx).trans (decide_eq_true (hq tx' htx))⟩
  | none => exact (armed_pending env h hqueued 1).1

theorem armed_transactionCommitDirty (serverRequest : Bool) (h : LifetimeInv s) (ha : Armed s) :
    Armed (transactionCommitDirty env serverRequest s) := by
  unfold transactionCommitDirty
  split
  · exact ha
  · have hinv := lifetimeInv_addDirtyNodes env serverRequest h
    have hnames : namesOf (some (s.pendingTransaction.getD ⟨[], 0, false⟩)) =
        namesOf s.pendingTransaction := by
      cases s.pendingTransaction <;> rfl
    have hqueued := (lifetime_addDirtyNodes env serverRequest s.dirtyNodes
      (s := { s with pendingTransaction := some (s.pendingTransaction.getD ⟨[], 0, false⟩) })
      rfl (by rw [hnames]; exact h)).2
    apply armed_transactionCommitPending env hinv
    · exact fun tx htx => ha.timed tx (hqueued ▸ htx)
    · exact fun tx htx => (ha.timer tx (hqueued ▸ htx)).1

theorem armed_setInstructionReady (h : LifetimeInv s) (ha : Armed s) (i : Instruction S) :
    Armed (setInstructionReady env s i) := by
  refine armed_transactionProgress env (lifetimeInv_ready h i) (fun tx htx => ?_) fun hnone => ?_
  · obtain ⟨tx', hq, rfl⟩ := Option.map_eq_some_iff.1 htx
    obtain ⟨hpos, htimer⟩ := ha.timer tx' hq
    unfold Transaction.ready
    split
    · simp only [htimer, Bool.true_and, decide_eq_decide]
      omega
    · exact ha.timed tx' hq
  · have hp := ha.waits (Option.map_eq_none_iff.1 hnone)
    show s.pendingTransaction.map _ = none
    rw [hp]
    rfl

/-- The timer of the queued transaction, if there is one, fires. -/
theorem handleTimeout_armed (h : LifetimeInv s) (ha : Armed s) :
    Armed (handleTimeout env s) ∧ (handleTimeout env s).pendingTransaction = none ∧
      (s.pendingTransaction = none → (handleTimeout env s).queuedTransaction = none) := by
  unfold handleTimeout
  cases hq : s.queuedTransaction with
  | none => exact ⟨ha, ha.waits hq, fun _ => hq⟩
  | some tx =>
      dsimp only
      rw [if_pos (ha.timer tx hq).2]
      refine transactionProgress_ready env ?_ rfl rfl
      unfold LifetimeInv at h ⊢
      rw [hq] at h
      exact h

/-- **The step**: whatever happens, a transaction that waits can time out. -/
theorem armed_step (h : LifetimeInv s) (ha : Armed s) (e : TxnEvent W) :
    Armed (txnStep env s e) := by
  have hframe : ∀ s' : Server W S, s'.queuedTransaction = s.queuedTransaction →
      s'.pendingTransaction = s.pendingTransaction → Armed s' := by
    intro s' hq hp
    exact ⟨fun tx htx => ha.timer tx (hq ▸ htx), fun hnone => hp.trans (ha.waits (hq ▸ hnone))⟩
  cases e with
  | setDirty n =>
      exact hframe _ (nodeSetDirty_frame s n).2.1 (nodeSetDirty_frame s n).1
  | beginDestroy n =>
      exact hframe _ (nodeSetDirty_frame s n).2.1 (nodeSetDirty_frame s n).1
  | commitDirty => exact armed_transactionCommitDirty env true h ha
  | commitDirtyClient => exact armed_transactionCommitDirty env false h ha
  | readyBySerial n serial =>
      show Armed (transactionNotifyViewReadyBySerial env s n serial)
      unfold transactionNotifyViewReadyBySerial
      split
      · split
        · exact armed_setInstructionReady env h ha _
        · exact ha
      · exact ha
  | readyByGeometry n box =>
      show Armed (transactionNotifyViewReadyByGeometry env s n box)
      unfold transactionNotifyViewReadyByGeometry
      split
      · split
        · exact armed_setInstructionReady env h ha _
        · exact ha
      · exact ha
  | timeout => exact (handleTimeout_armed env h ha).1
  | edit w => exact hframe _ rfl rfl

end Armed

/-! ## Without a node to destroy -/

section Calm

variable (env : Env W S) {s s' : Server W S}

theorem SameLife.clean_iff (h : SameLife s s') (n : NodeId) : s'.Clean n ↔ s.Clean n := by
  unfold Server.Clean
  rw [(h.node n).1, (h.node n).2.1]

theorem clean_transactionDestroy (is : List (Instruction S)) (h : ∀ n, s.Clean n) :
    ∀ n, (transactionDestroy env is s).Clean n := by
  induction is generalizing s with
  | nil => exact h
  | cons i is ih =>
      rw [transactionDestroy]
      apply ih
      have hrecord : ∀ n, (s.modNode i.node fun k =>
          { k with
            ntxnrefs := k.ntxnrefs - 1
            instruction := if k.instruction = some i.id then none else k.instruction }).Clean n :=
        fun n => (clean_modNode s i.node n (f := fun k =>
          { k with
            ntxnrefs := k.ntxnrefs - 1
            instruction := if k.instruction = some i.id then none else k.instruction })
          fun _ => ⟨rfl, rfl⟩).2 (h n)
      split
      · rename_i hfree
        exact absurd hfree.1 (by rw [(hrecord i.node).2]; decide)
      · exact hrecord

theorem clean_queuePending (h : ∀ n, s.Clean n) : ∀ n, (queuePending env s).Clean n := by
  unfold queuePending
  split
  · exact fun n => ((commitInstructions_spec env _ _).1.clean_iff n).2 (h n)
  · exact h

theorem clean_progressWithin (rounds : Nat) (h : ∀ n, s.Clean n) :
    ∀ n, (progressWithin env rounds s).Clean n := by
  induction rounds generalizing s with
  | zero => exact h
  | succ rounds ih =>
      rw [progressWithin]
      split
      · exact h
      · rename_i tx hq
        split
        · exact h
        · have hfinish : ∀ n, (finishQueued env s tx).Clean n :=
            clean_transactionDestroy env tx.instructions fun n =>
              ((sameLife_transactionApply env tx.instructions s).clean_iff n).2 (h n)
          dsimp only
          split
          · exact hfinish
          · exact ih (clean_queuePending env hfinish)

theorem clean_transactionCommitPending (h : ∀ n, s.Clean n) :
    ∀ n, (transactionCommitPending env s).Clean n := by
  unfold transactionCommitPending
  split
  · exact h
  · exact clean_progressWithin env 2 (clean_queuePending env h)

theorem clean_handleTimeout (h : ∀ n, s.Clean n) : ∀ n, (handleTimeout env s).Clean n := by
  unfold handleTimeout
  split
  · split
    · exact clean_progressWithin env 2 h
    · exact h
  · exact h

theorem destroying_addDirtyNode (serverRequest : Bool) (s : Server W S) (n m : NodeId) :
    ((addDirtyNode env serverRequest s n).node m).destroying = (s.node m).destroying := by
  unfold addDirtyNode transactionAddNode
  by_cases hm : m = n
  · subst hm
    split
    · simp [Server.modNode]
    · dsimp only
      split <;> simp [Server.modNode]
  · split
    · simp [Server.modNode, hm]
    · dsimp only
      split <;> simp [Server.modNode, hm]

/-- A commit leaves no node dirty, when none is being destroyed. -/
theorem clean_transactionCommitDirty (serverRequest : Bool) (h : LifetimeInv s)
    (hlive : ∀ n, (s.node n).destroying = false) :
    ∀ n, (transactionCommitDirty env serverRequest s).Clean n := by
  unfold transactionCommitDirty
  split
  · rename_i hnil
    refine fun n => ⟨?_, hlive n⟩
    have hdirty := h.dirty_iff n
    rw [hnil] at hdirty
    simpa using hdirty
  · have hinv := lifetimeInv_addDirtyNodes env serverRequest h
    have hadded : ∀ (ns : List NodeId) (s : Server W S) (n : NodeId),
        ((ns.foldl (addDirtyNode env serverRequest) s).node n).destroying =
          (s.node n).destroying := by
      intro ns
      induction ns with
      | nil => exact fun s n => rfl
      | cons m ns ih =>
          exact fun s n => (ih _ n).trans (destroying_addDirtyNode env serverRequest s m n)
    have hclean : ∀ n, (addDirtyNodes env serverRequest
        { s with pendingTransaction := some (s.pendingTransaction.getD ⟨[], 0, false⟩) }).Clean n := by
      refine fun n => ⟨?_, (hadded _ _ n).trans (hlive n)⟩
      have hdirty := hinv.dirty_iff n
      simpa [addDirtyNodes] using hdirty
    exact clean_transactionCommitPending env hclean

end Calm

/-- **No update is lost**: whatever is edited, committed, acknowledged and timed out, and in which
order, a node that is neither dirty nor being destroyed will show what it holds. A commit and the
timers of two transactions are enough for that: then no transaction is left and every such node
shows what it holds; and if no node was being destroyed, that is every node. -/
theorem transactions_lose_nothing {env : Env W S} {applied : W → NodeId → S}
    (hk : env.Shows applied) {w : W} (hw : ∀ n, applied w n = env.copyState w n)
    {noatomic txnWait : Bool} {s : Server W S}
    (h : Run (txnStep env) (TxnEvent.Marked env applied) (Server.start w noatomic txnWait) s) :
    UpToDate env applied s ∧
      let t := handleTimeout env (handleTimeout env (transactionCommitDirty env true s))
      t.queuedTransaction = none ∧ t.pendingTransaction = none ∧
        (∀ n, t.Clean n → applied t.world n = env.copyState t.world n) ∧
        ((∀ n, (s.node n).destroying = false) → ∀ n, t.Clean n) := by
  obtain ⟨hlife, hup, harmed⟩ := h.invariant
    (I := fun s => LifetimeInv s ∧ UpToDate env applied s ∧ Armed s)
    (fun s e hs he => ⟨lifetimeInv_step env hs.1 e, upToDate_step hk hs.1 hs.2.1 he,
      armed_step env hs.1 hs.2.2 e⟩)
    ⟨lifetimeInv_start w noatomic txnWait, fun n _ => hw n, ⟨by simp [Server.start], fun _ => rfl⟩⟩
  have hlife₁ := lifetimeInv_transactionCommitDirty env true hlife
  have hup₁ := upToDate_transactionCommitDirty hk true hlife hup
  have harmed₁ := armed_transactionCommitDirty env true hlife harmed
  have hlife₂ := lifetimeInv_handleTimeout env hlife₁
  have hup₂ := hup₁.carries (carries_handleTimeout hk hlife₁)
  obtain ⟨harmed₂, hpending₂, -⟩ := handleTimeout_armed env hlife₁ harmed₁
  have hup₃ := hup₂.carries (carries_handleTimeout hk hlife₂)
  obtain ⟨-, hpending₃, hqueued₃⟩ := handleTimeout_armed env hlife₂ harmed₂
  have hqueued := hqueued₃ hpending₂
  refine ⟨hup, hqueued, hpending₃, fun n hn => ?_, fun hlive => ?_⟩
  · have hshow := hup₃ n hn
    unfold Server.willShow at hshow
    rw [hpending₃, hqueued] at hshow
    exact hshow
  · have hclean := clean_transactionCommitDirty env true hlife hlive
    exact clean_handleTimeout env (clean_handleTimeout env hclean)

/-- A compositor of numbers: the pending and the current number of each node. -/
def numberEnv : Env ((NodeId → Nat) × (NodeId → Nat)) Nat where
  copyState w n := w.1 n
  isView _ n := n = 0
  isVisible _ _ := true
  boxChanged w n st := w.2 n ≠ st
  viewConfigure w _ _ := (w, 1)
  applyState w n st := (w.1, Function.update w.2 n st)
  arrangeRoot w := w
  destroy w _ := (w, [])
  contentBox _ := ⟨0, 0, 0, 0⟩
  timerCreated _ := true

theorem numberEnv_shows : numberEnv.Shows Prod.snd :=
  ⟨fun _ _ _ _ => ⟨rfl, rfl⟩, fun _ _ _ _ => rfl, fun _ _ _ => rfl, fun _ _ => ⟨rfl, rfl⟩,
    fun _ _ _ _ _ _ => ⟨rfl, rfl⟩⟩

open Lib in
/-- A view is edited, committed, and edited again before it acknowledges the first number. -/
theorem transactions_lose_nothing_edited :
    ∃ s : Server ((NodeId → Nat) × (NodeId → Nat)) Nat, s.queuedTransaction.isSome = true ∧
      UpToDate numberEnv Prod.snd s ∧
      let t := handleTimeout numberEnv (handleTimeout numberEnv
        (transactionCommitDirty numberEnv true s))
      t.Clean 0 ∧ t.world.2 0 = 2 := by
  have hzero : ∀ n, n ≠ 0 → ∀ v, Function.update (fun _ => 0 : NodeId → Nat) 0 v n = 0 := by
    intro n hn v
    simp [hn]
  have hmarked : Allowed (txnStep numberEnv) (TxnEvent.Marked numberEnv Prod.snd)
      (Server.start (fun _ => 0, fun _ => 0) false false)
      [.setDirty 0, .edit (Function.update (fun _ => 0) 0 1, fun _ => 0), .commitDirty,
        .setDirty 0, .edit (Function.update (fun _ => 0) 0 2, fun _ => 0)] := by
    refine ⟨trivial, fun n hn => ⟨?_, rfl⟩, trivial, trivial, fun n hn => ⟨?_, rfl⟩, trivial⟩
    · exact hzero n (fun h0 => absurd (h0 ▸ hn).1 (by decide)) 1
    · have hne : n ≠ 0 := fun h0 => absurd (h0 ▸ hn).1 (by decide)
      exact (hzero n hne 2).trans (hzero n hne 1).symm
  obtain ⟨hup, hdone, -, hshows, hclean⟩ :=
    transactions_lose_nothing numberEnv_shows (fun _ => rfl) (Run.foldl hmarked)
  have hlive := hclean fun n => by
    cases n with
    | zero => rfl
    | succ n => rfl
  exact ⟨_, rfl, hup, hlive 0, hshows 0 (hlive 0)⟩

end Swirl
