import Swirl.Ipc.Server
import Swirl.Lib.Runs

set_option autoImplicit false

/-! # When a message is handled for a client that is gone

An event reaches every subscribed client once, whoever is disconnected by it. The handling of a
message uses the client of the message to the end, though: it uses memory that was freed exactly
when the queue reaches the limit with what is sent to the client before the last use.
-/

namespace Swirl

open Lib

/-! ## Messages for one client -/

/-- The room that some messages take in a queue. -/
def queueLength (fs : List Frame) : Nat := (fs.map fun f => ipcHeaderSize + f.payload.length).sum

@[simp] theorem queueLength_nil : queueLength [] = 0 := rfl

@[simp] theorem queueLength_cons (f : Frame) (fs : List Frame) :
    queueLength (f :: fs) = ipcHeaderSize + f.payload.length + queueLength fs := rfl

theorem queueLength_append (fs gs : List Frame) :
    queueLength (fs ++ gs) = queueLength fs + queueLength gs := by
  unfold queueLength
  rw [List.map_append, List.sum_append]

/-- The messages that some actions address to the client they use, subscribed to `mask`. -/
def addressed : BitVec 32 → List IpcAction → List Frame
  | _, [] => []
  | mask, .event f :: actions =>
      if mask &&& eventMask f.kind ≠ 0 then f :: addressed mask actions else addressed mask actions
  | mask, .reply f :: actions => f :: addressed mask actions
  | mask, .subscribe more :: actions => addressed (mask ||| more) actions

/-- The event among the messages, if the client is subscribed to it. -/
theorem addressed_event (c : IpcClient) (f : Frame) (actions : List IpcAction) :
    addressed c.subscribedEvents (.event f :: actions) =
      ([f].filter fun f => c.Subscribed f.kind) ++ addressed c.subscribedEvents actions := by
  by_cases hsub : c.Subscribed f.kind
  · rw [List.filter_cons_of_pos (by simpa using hsub)]
    exact if_pos hsub
  · rw [List.filter_cons_of_neg (by simpa using hsub)]
    exact if_neg hsub

theorem addressed_reply (mask : BitVec 32) (f : Frame) (actions : List IpcAction) :
    addressed mask (.reply f :: actions) = f :: addressed mask actions := rfl

/-- The actions before the last one that uses the client. -/
def beforeLastUse : List IpcAction → List IpcAction
  | [] => []
  | a :: actions => if actions.any IpcAction.isUse then a :: beforeLastUse actions else []

/-- **What the handling of a message relies on**: the queue of the client stays below the limit
with the messages that come before the last use. -/
def IpcClient.Outlives (c : IpcClient) (actions : List IpcAction) : Prop :=
  c.writeBufferLen + queueLength (addressed c.subscribedEvents (beforeLastUse actions)) <
    writeBufferLimit

/-- The events that some actions send. -/
def eventsOf (actions : List IpcAction) : List Frame :=
  actions.filterMap fun a =>
    match a with
    | .event f => some f
    | _ => none

/-- What a client is, after some events: each of those it is subscribed to was queued once and in
order, or there was no room for them. -/
def Received (c : IpcClient) (fs : List Frame) : Option IpcClient → Prop
  | some c' =>
      c'.queue = c.queue ++ (fs.filter fun f => c.Subscribed f.kind).flatMap (Frame.bytes ipcMagic)
  | none =>
      writeBufferLimit ≤ c.writeBufferLen + queueLength (fs.filter fun f => c.Subscribed f.kind)

/-! ## One client -/

theorem IpcClient.Sound.below_limit {c : IpcClient} (h : c.Sound) :
    c.writeBufferLen < writeBufferLimit := by
  obtain ⟨k, hk, hsize⟩ := h.size
  calc c.writeBufferLen < c.writeBufferSize := h.len
    _ = 128 * 2 ^ k := hsize
    _ ≤ writeBufferLimit := Nat.mul_le_mul_left _ (Nat.pow_le_pow_right (by decide) hk)

theorem IpcClient.need_eq (c : IpcClient) (f : Frame) :
    c.need f = c.writeBufferLen + (ipcHeaderSize + f.payload.length) := Nat.add_assoc _ _ _

/-- What is left of a client that gets an event. -/
theorem IpcClient.Sound.receive {c : IpcClient} (h : c.Sound) (f : Frame) :
    match c.receive f with
    | some c' => c'.Sound ∧ c'.subscribedEvents = c.subscribedEvents ∧
        c'.writeBufferLen = c.writeBufferLen +
          queueLength ([f].filter fun f => c.Subscribed f.kind) ∧
        c'.queue = c.queue ++
          ([f].filter fun f => c.Subscribed f.kind).flatMap (Frame.bytes ipcMagic)
    | none => c.Subscribed f.kind ∧ writeBufferLimit ≤ c.need f := by
  unfold IpcClient.receive
  by_cases hsub : c.Subscribed f.kind
  · rw [if_pos hsub]
    obtain ⟨hnone, hsome⟩ := ipcSendReply_spec f h
    cases hreply : ipcSendReply true c f with
    | none => exact ⟨hsub, hnone.1 hreply⟩
    | some c' =>
        obtain ⟨hsound, hqueue, hlen, hevents⟩ := hsome true c' hreply
        have hfilter : [f].filter (fun f => c.Subscribed f.kind) = [f] :=
          List.filter_cons_of_pos (by simpa using hsub)
        dsimp only
        rw [hfilter, List.flatMap_singleton]
        exact ⟨hsound, hevents, hlen.trans (c.need_eq f), hqueue⟩
  · rw [if_neg hsub]
    have hfilter : [f].filter (fun f => c.Subscribed f.kind) = [] :=
      List.filter_cons_of_neg (by simpa using hsub)
    dsimp only
    rw [hfilter]
    exact ⟨h, rfl, rfl, (List.append_nil _).symm⟩

/-- **Each event once**: a sound client that is offered some events. -/
theorem IpcClient.Sound.received {c : IpcClient} (h : c.Sound) (fs : List Frame) :
    Received c fs (fs.foldl (fun v f => v.bind (·.receive f)) (some c)) := by
  induction fs generalizing c with
  | nil => exact (List.append_nil _).symm
  | cons f fs ih =>
      rw [List.foldl_cons]
      show Received c (f :: fs) (fs.foldl _ (c.receive f))
      have hf := h.receive f
      have hsplit : (f :: fs).filter (fun f => c.Subscribed f.kind) =
          [f].filter (fun f => c.Subscribed f.kind) ++ fs.filter fun f => c.Subscribed f.kind := by
        rw [← List.filter_append, List.singleton_append]
      cases hr : c.receive f with
      | none =>
          -- once disconnected, it stays so
          rw [hr] at hf
          have hnone : fs.foldl (fun (v : Option IpcClient) f => v.bind (·.receive f)) none =
              none := by
            clear ih hsplit
            induction fs with
            | nil => rfl
            | cons g fs ih => exact ih
          rw [hnone]
          show writeBufferLimit ≤ c.writeBufferLen +
            queueLength ((f :: fs).filter fun f => c.Subscribed f.kind)
          rw [List.filter_cons_of_pos (by simpa using hf.1), queueLength_cons]
          have hneed := hf.2
          rw [c.need_eq] at hneed
          omega
      | some c' =>
          rw [hr] at hf
          obtain ⟨hsound, hevents, hlen, hqueue⟩ := hf
          have hsub : ∀ g : Frame, c'.Subscribed g.kind ↔ c.Subscribed g.kind := fun g => by
            unfold IpcClient.Subscribed
            rw [hevents]
          have hfilter : fs.filter (fun f => c'.Subscribed f.kind) =
              fs.filter fun f => c.Subscribed f.kind := by
            simp only [hsub]
          have hrest := ih hsound
          cases hfold : fs.foldl (fun v f => v.bind (·.receive f)) (some c') with
          | none =>
              rw [hfold] at hrest
              have hrest' : writeBufferLimit ≤ c'.writeBufferLen +
                  queueLength (fs.filter fun f => c'.Subscribed f.kind) := hrest
              rw [hfilter, hlen] at hrest'
              show writeBufferLimit ≤ c.writeBufferLen +
                queueLength ((f :: fs).filter fun f => c.Subscribed f.kind)
              rw [hsplit, queueLength_append]
              omega
          | some d =>
              rw [hfold] at hrest
              have hrest' : d.queue = c'.queue ++
                  (fs.filter fun f => c'.Subscribed f.kind).flatMap (Frame.bytes ipcMagic) := hrest
              show d.queue = c.queue ++
                ((f :: fs).filter fun f => c.Subscribed f.kind).flatMap (Frame.bytes ipcMagic)
              rw [hrest', hqueue, hfilter, hsplit, List.flatMap_append, List.append_assoc]

/-! ## The handling of a message -/

/-- What an action does to the client it uses. -/
def IpcClient.act (c : IpcClient) : IpcAction → Option IpcClient
  | .event f => c.receive f
  | .reply f => ipcSendReply true c f
  | .subscribe mask => some (c.subscribe mask)

section Perform

variable {s : IpcServer} {id : IpcClientId}

theorem IpcServer.perform_subscribe (s : IpcServer) (id : IpcClientId) (mask : BitVec 32) :
    s.perform id (.subscribe mask) =
      if id ∈ s.clientList then s.setClient id ((s.client id).subscribe mask)
      else s.useStale id := rfl

theorem IpcServer.perform_nodup (hs : s.clientList.Nodup) (a : IpcAction) :
    (s.perform id a).clientList.Nodup := by
  cases a with
  | event f => exact (ipcSendEvent_spec hs f).2.1
  | reply f => exact IpcServer.sendReply_nodup hs id f
  | subscribe mask =>
      rw [perform_subscribe]
      split
      · exact hs
      · exact hs

/-- An action of the handling, for the client of the message while it is connected. -/
theorem IpcServer.perform_connected (hs : s.clientList.Nodup) {c : IpcClient}
    (h : s.view id = some c) (a : IpcAction) :
    (s.perform id a).staleUses = s.staleUses ∧ (s.perform id a).view id = c.act a := by
  cases a with
  | event f =>
      obtain ⟨hstale, -, hviews⟩ := ipcSendEvent_spec hs f
      refine ⟨hstale, ?_⟩
      show (ipcSendEvent s f).view id = c.receive f
      rw [hviews, h]
      rfl
  | reply f =>
      have hsets := IpcServer.sendReply_sets hs h f
      refine ⟨hsets.stale, ?_⟩
      show (s.sendReply id f).1.view id = ipcSendReply true c f
      rw [hsets.view, Function.update_self]
  | subscribe mask =>
      have hm := mem_of_view h
      have hsets := IpcServer.sets_setClient hm ((s.client id).subscribe mask)
      rw [perform_subscribe, if_pos hm]
      refine ⟨hsets.stale, ?_⟩
      rw [hsets.view, Function.update_self, client_of_view h]
      rfl

/-- An action of the handling, when the client of the message is gone. -/
theorem IpcServer.perform_gone (hs : s.clientList.Nodup) (h : s.view id = none) (a : IpcAction) :
    (s.perform id a).staleUses = (if a.isUse then s.staleUses ++ [id] else s.staleUses) ∧
      (s.perform id a).view id = none := by
  have hm := not_mem_of_view h
  cases a with
  | event f =>
      obtain ⟨hstale, -, hviews⟩ := ipcSendEvent_spec hs f
      refine ⟨hstale, ?_⟩
      show (ipcSendEvent s f).view id = none
      rw [hviews, h]
      rfl
  | reply f =>
      show (s.sendReply id f).1.staleUses = _ ∧ (s.sendReply id f).1.view id = none
      rw [sendReply, if_neg hm]
      exact ⟨rfl, h⟩
  | subscribe mask =>
      rw [perform_subscribe, if_neg hm]
      exact ⟨rfl, h⟩

/-- An action of the handling, for another client: it gets the events. -/
theorem IpcServer.perform_other (hs : s.clientList.Nodup) {d : IpcClientId} (hd : d ≠ id)
    (a : IpcAction) :
    (s.perform id a).view d =
      (eventsOf [a]).foldl (fun v f => v.bind (·.receive f)) (s.view d) := by
  cases a with
  | event f => exact (ipcSendEvent_spec hs f).2.2 d
  | reply f =>
      show (s.sendReply id f).1.view d = s.view d
      cases hv : s.view id with
      | some c => rw [(IpcServer.sendReply_sets hs hv f).view, Function.update_of_ne hd]
      | none =>
          rw [sendReply, if_neg (not_mem_of_view hv)]
          rfl
  | subscribe mask =>
      show (s.perform id (.subscribe mask)).view d = s.view d
      rw [perform_subscribe]
      split
      · rename_i hm
        rw [(IpcServer.sets_setClient hm _).view, Function.update_of_ne hd]
      · rfl

/-- The other clients get the events of the handling, each once. -/
theorem IpcServer.foldl_perform_other (hs : s.clientList.Nodup) {d : IpcClientId} (hd : d ≠ id)
    (actions : List IpcAction) :
    (actions.foldl (IpcServer.perform id) s).view d =
      (eventsOf actions).foldl (fun v f => v.bind (·.receive f)) (s.view d) := by
  induction actions generalizing s with
  | nil => rfl
  | cons a actions ih =>
      rw [List.foldl_cons, ih (IpcServer.perform_nodup hs a), IpcServer.perform_other hs hd a,
        ← List.foldl_append]
      congr 1
      exact (List.filterMap_append (l := [a])).symm

/-- A use of the client once it is gone is a stale use, and there are no others. -/
theorem IpcServer.foldl_perform_gone (hs : s.clientList.Nodup) (h : s.view id = none)
    (actions : List IpcAction) :
    (actions.foldl (IpcServer.perform id) s).staleUses =
      s.staleUses ++ List.replicate (actions.countP IpcAction.isUse) id := by
  induction actions generalizing s with
  | nil => exact (List.append_nil _).symm
  | cons a actions ih =>
      obtain ⟨hstale, hview⟩ := IpcServer.perform_gone hs h a
      rw [List.foldl_cons, ih (IpcServer.perform_nodup hs a) hview, hstale]
      by_cases ha : a.isUse = true
      · rw [if_pos ha, List.countP_cons_of_pos ha, List.replicate_succ, List.append_assoc]
        rfl
      · rw [if_neg ha, List.countP_cons_of_neg ha]

/-- What an action leaves of a sound client. -/
theorem IpcClient.Sound.act {c : IpcClient} (h : c.Sound) (a : IpcAction)
    (actions : List IpcAction) :
    match c.act a with
    | some c' => c'.Sound ∧ c'.writeBufferLen +
        queueLength (addressed c'.subscribedEvents actions) =
          c.writeBufferLen + queueLength (addressed c.subscribedEvents (a :: actions))
    | none => writeBufferLimit ≤
        c.writeBufferLen + queueLength (addressed c.subscribedEvents (a :: actions)) := by
  cases a with
  | event f =>
      have hf := h.receive f
      rw [addressed_event, queueLength_append, show c.act (.event f) = c.receive f from rfl]
      cases hr : c.receive f with
      | none =>
          rw [hr] at hf
          have hneed := hf.2
          rw [c.need_eq] at hneed
          dsimp only
          rw [List.filter_cons_of_pos (by simpa using hf.1), queueLength_cons]
          omega
      | some c' =>
          rw [hr] at hf
          obtain ⟨hsound, hevents, hlen, -⟩ := hf
          dsimp only
          refine ⟨hsound, ?_⟩
          rw [hevents, hlen]
          omega
  | reply f =>
      obtain ⟨hnone, hsome⟩ := ipcSendReply_spec f h
      rw [addressed_reply, queueLength_cons,
        show c.act (.reply f) = ipcSendReply true c f from rfl]
      cases hr : ipcSendReply true c f with
      | none =>
          have hneed := hnone.1 hr
          rw [c.need_eq] at hneed
          dsimp only
          omega
      | some c' =>
          obtain ⟨hsound, -, hlen, hevents⟩ := hsome true c' hr
          dsimp only
          refine ⟨hsound, ?_⟩
          rw [hevents, hlen, c.need_eq]
          omega
  | subscribe mask => exact ⟨⟨h.memory, h.len, h.size⟩, rfl⟩

/-- **When the handling of a message uses a client that is gone.** -/
theorem IpcServer.foldl_perform_stale_iff (hs : s.clientList.Nodup) {c : IpcClient}
    (h : s.view id = some c) (hc : c.Sound) (actions : List IpcAction) :
    (actions.foldl (IpcServer.perform id) s).staleUses = s.staleUses ↔ c.Outlives actions := by
  induction actions generalizing s c with
  | nil =>
      unfold IpcClient.Outlives
      exact ⟨fun _ => hc.below_limit, fun _ => rfl⟩
  | cons a actions ih =>
      obtain ⟨hstale, hview⟩ := IpcServer.perform_connected hs h a
      have hnodup : (s.perform id a).clientList.Nodup := IpcServer.perform_nodup hs a
      have hact := hc.act a (beforeLastUse actions)
      rw [List.foldl_cons]
      cases hr : c.act a with
      | some c' =>
          rw [hr] at hact hview
          obtain ⟨hsound, hlen⟩ := hact
          have hih := ih hnodup hview hsound
          rw [hstale] at hih
          rw [hih]
          unfold IpcClient.Outlives
          rw [hlen]
          by_cases huse : actions.any IpcAction.isUse = true
          · rw [beforeLastUse, if_pos huse]
          · -- no use is left: nothing matters any more
            have hnone : beforeLastUse actions = [] := by
              cases actions with
              | nil => rfl
              | cons b actions =>
                  rw [List.any_cons, Bool.or_eq_true, not_or] at huse
                  rw [beforeLastUse, if_neg huse.2]
            rw [beforeLastUse, if_neg huse]
            have hlimit := hsound.below_limit
            rw [hnone] at hlen ⊢
            have hlen' : c'.writeBufferLen + 0 = c.writeBufferLen +
              queueLength (addressed c.subscribedEvents [a]) := hlen
            exact ⟨fun _ => hc.below_limit, fun _ => by omega⟩
      | none =>
          -- the client is gone: every use from here on is stale
          rw [hr] at hact hview
          rw [IpcServer.foldl_perform_gone hnodup hview, hstale, List.append_right_eq_self]
          unfold IpcClient.Outlives
          by_cases huse : actions.any IpcAction.isUse = true
          · rw [beforeLastUse, if_pos huse]
            have hcount : 0 < actions.countP IpcAction.isUse := by
              rw [List.countP_pos_iff]
              exact List.any_eq_true.1 huse
            constructor
            · intro hnil
              rw [List.replicate_eq_nil_iff] at hnil
              omega
            · intro hlt
              exact absurd hact (not_le.2 hlt)
          · rw [beforeLastUse, if_neg huse]
            have hcount : actions.countP IpcAction.isUse = 0 := by
              rw [List.countP_eq_zero]
              intro b hb hbuse
              exact huse (List.any_eq_true.2 ⟨b, hb, hbuse⟩)
            rw [hcount]
            exact ⟨fun _ => hc.below_limit, fun _ => rfl⟩

end Perform

/-! ## The server -/

/-- Nothing uses a client that was removed, and every client but the one of the message received
each event it is subscribed to once. -/
structure IpcServer.SendsOnce (s s' : IpcServer) (message : Option IpcClientId)
    (events : List Frame) : Prop where
  noStale : s'.staleUses = s.staleUses
  once : ∀ d c, some d ≠ message → s.view d = some c → Received c events (s'.view d)

section SendsOnce

variable {s : IpcServer}

theorem IpcServer.Sound.event (h : s.Sound) (f : Frame) :
    s.SendsOnce (ipcSendEvent s f) none [f] := by
  obtain ⟨hstale, -, hviews⟩ := ipcSendEvent_spec h.nodup f
  refine ⟨hstale, fun d c _ hc => ?_⟩
  have hreceived := (h.client d c hc).received [f]
  rw [hviews, hc]
  exact hreceived

theorem IpcServer.Sound.handled (h : s.Sound) (id : IpcClientId) (actions : List IpcAction)
    (d : IpcClientId) (c : IpcClient) (hd : some d ≠ some id) (hc : s.view d = some c) :
    Received c (eventsOf actions) ((actions.foldl (IpcServer.perform id) s).view d) := by
  rw [IpcServer.foldl_perform_other h.nodup (fun he => hd (congrArg some he)) actions, hc]
  exact (h.client d c hc).received _

end SendsOnce

/-- The events that the handling of a message sends. -/
def handlingEvents (k : Compositor) (received : Bool) (type : UInt32) (payload : List UInt8) :
    List Frame :=
  if received then eventsOf (handlingOf k type payload) else []

/-- **No client is used after it was removed, exactly when** the queue of the client whose message
is handled stays below the limit with what is sent to it before the last use. Sending an event
never uses a removed client, and no client misses an event or gets it twice. -/
theorem ipcServer_sendsOnce_iff (k : Compositor) (s : IpcServer) (hs : s.Sound) (id : IpcClientId)
    (hid : id ∈ s.clientList) (received : Bool) (type : UInt32) (payload : List UInt8) :
    (∀ f, s.SendsOnce (ipcSendEvent s f) none [f]) ∧
      (s.SendsOnce (ipcClientHandleCommand k s id received type payload) (some id)
          (handlingEvents k received type payload) ↔
        (received = true → (s.client id).Outlives (handlingOf k type payload))) := by
  refine ⟨hs.event, ?_⟩
  have hview := IpcServer.view_of_mem hid
  cases received with
  | false =>
      -- the client is disconnected, and nothing else happens
      have hsets := IpcServer.sets_disconnect hs.nodup id
      refine ⟨fun _ h => by simp at h, fun _ => ⟨hsets.stale, fun d c hd hc => ?_⟩⟩
      have hsame : (ipcClientDisconnect s id).view d = some c := by
        rw [hsets.view, Function.update_of_ne (fun he => hd (congrArg some he)), hc]
      show Received c [] ((ipcClientDisconnect s id).view d)
      rw [hsame]
      exact (List.append_nil _).symm
  | true =>
      have hiff := IpcServer.foldl_perform_stale_iff hs.nodup hview
        (hs.client id _ hview) (handlingOf k type payload)
      constructor
      · intro h _
        exact hiff.1 h.noStale
      · intro h
        exact ⟨hiff.2 (h rfl), hs.handled id _⟩

/-! ## Runs of the server -/

/-- `ipc_handle_connection`: a client that is not connected yet. -/
def ipcHandleConnection (s : IpcServer) (id : IpcClientId) : IpcServer :=
  if id ∈ s.clientList then s
  else { s.setClient id IpcClient.start with clientList := s.clientList ++ [id] }

/-- What happens to the server. -/
inductive IpcServerEvent
  | connection (id : IpcClientId)
  | message (id : IpcClientId) (received : Bool) (type : UInt32) (payload : List UInt8)
  | event (f : Frame)
  | writable (id : IpcClientId) (mask : EventMask) (result : WriteResult)
  | disconnect (id : IpcClientId)

def IpcServer.step (k : Compositor) (s : IpcServer) : IpcServerEvent → IpcServer
  | .connection id => ipcHandleConnection s id
  | .message id received type payload => ipcClientHandleCommand k s id received type payload
  | .event f => ipcSendEvent s f
  | .writable id mask result =>
      if id ∈ s.clientList then
        match (ipcClientHandleWritable (s.client id) mask result).1 with
        | some c => s.setClient id c
        | none => ipcClientDisconnect s id
      else s
  | .disconnect id => ipcClientDisconnect s id

theorem IpcServer.Sound.sets {s s' : IpcServer} {id : IpcClientId} {c : Option IpcClient}
    (h : s.Sound) (hsets : s.Sets s' id c) (hnodup : s'.clientList.Nodup)
    (hc : ∀ d, c = some d → d.Sound) : s'.Sound where
  nodup := hnodup
  client := by
    intro d e he
    rw [hsets.view] at he
    by_cases hd : d = id
    · subst hd
      rw [Function.update_self] at he
      exact hc e he
    · rw [Function.update_of_ne hd] at he
      exact h.client d e he

theorem IpcServer.Sound.disconnect {s : IpcServer} (h : s.Sound) (id : IpcClientId) :
    (ipcClientDisconnect s id).Sound :=
  h.sets (IpcServer.sets_disconnect h.nodup id) (h.nodup.erase id) (fun d hd => by cases hd)

theorem IpcServer.Sound.sendEvent {s : IpcServer} (h : s.Sound) (f : Frame) :
    (ipcSendEvent s f).Sound where
  nodup := (ipcSendEvent_spec h.nodup f).2.1
  client := by
    intro d c' hc'
    rw [(ipcSendEvent_spec h.nodup f).2.2] at hc'
    obtain ⟨c, hc, hr⟩ := Option.bind_eq_some_iff.1 hc'
    have hf := (h.client d c hc).receive f
    rw [hr] at hf
    exact hf.1

theorem IpcServer.Sound.perform {s : IpcServer} (h : s.Sound) (id : IpcClientId) (a : IpcAction) :
    (s.perform id a).Sound := by
  cases a with
  | event f => exact h.sendEvent f
  | reply f =>
      show (s.sendReply id f).1.Sound
      cases hv : s.view id with
      | some c =>
          refine h.sets (IpcServer.sendReply_sets h.nodup hv f)
            (IpcServer.sendReply_nodup h.nodup id f) (fun d hd => ?_)
          exact ((ipcSendReply_spec f (h.client id c hv)).2 true d hd).1
      | none =>
          rw [IpcServer.sendReply, if_neg (IpcServer.not_mem_of_view hv)]
          exact ⟨h.nodup, h.client⟩
  | subscribe mask =>
      rw [IpcServer.perform_subscribe]
      split
      · rename_i hm
        refine h.sets (IpcServer.sets_setClient hm _) h.nodup (fun d hd => ?_)
        cases hd
        have hc := h.client id _ (IpcServer.view_of_mem hm)
        exact ⟨hc.memory, hc.len, hc.size⟩
      · exact ⟨h.nodup, h.client⟩

/-- **Every server is sound**: whatever happens to it keeps it so. -/
theorem IpcServer.Sound.step {s : IpcServer} (k : Compositor) (h : s.Sound) (e : IpcServerEvent) :
    (s.step k e).Sound := by
  cases e with
  | connection id =>
      show (ipcHandleConnection s id).Sound
      unfold ipcHandleConnection
      split
      · exact h
      · rename_i hid
        constructor
        · exact List.nodup_append.2 ⟨h.nodup, List.nodup_singleton id, fun a ha b hb => by
            rw [List.mem_singleton.1 hb]
            exact fun he => hid (he ▸ ha)⟩
        · intro d c hc
          have hclient := IpcServer.client_of_view hc
          have hmem := IpcServer.mem_of_view hc
          by_cases hd : d = id
          · subst hd
            have hnew : IpcClient.start = c := by
              rw [← hclient]
              exact (Function.update_self d IpcClient.start s.client).symm
            rw [← hnew]
            exact IpcClient.start_sound
          · have hold : s.client d = c := by
              rw [← hclient]
              exact (Function.update_of_ne hd IpcClient.start s.client).symm
            have hm : d ∈ s.clientList := by
              rcases List.mem_append.1 hmem with hm | hm
              · exact hm
              · exact absurd (List.mem_singleton.1 hm) hd
            exact h.client d c (hold ▸ IpcServer.view_of_mem hm)
  | message id received type payload =>
      show (ipcClientHandleCommand k s id received type payload).Sound
      unfold ipcClientHandleCommand
      split
      · exact h.disconnect id
      · exact foldl_invariant (IpcServer.perform id) _ (fun _ a _ hs => hs.perform id a) h
  | event f => exact h.sendEvent f
  | writable id mask result =>
      unfold IpcServer.step
      dsimp only
      split
      · rename_i hm
        split
        · rename_i c hc
          refine h.sets (IpcServer.sets_setClient hm c) h.nodup (fun d hd => ?_)
          cases hd
          exact (ipcClientHandleWritable_spec (h.client id _ (IpcServer.view_of_mem hm)) mask
            result hc).1
        · exact h.disconnect id
      · exact h
  | disconnect id => exact h.disconnect id

/-! ## Two servers -/

/-- A compositor whose texts are short. -/
def terseCompositor : Compositor where
  execute := fun _ => ([], ipcText "[]")
  tick := fun payload => payload
  request := fun _ => none
  describe := fun _ _ => ipcText "[]"

/-- A client that has not written the backlog of a client subscribed to ticks for long. -/
def backloggedClient : IpcClient where
  subscribedEvents := eventMask ipcEventTick
  writeBufferLen := 2097140
  writeBufferSize := 128 * 2 ^ 14
  writeBuffer := List.replicate (128 * 2 ^ 14) 0
  writableEventSource := true
  pendingLength := 0
  pendingType := 0

theorem backloggedClient_sound : backloggedClient.Sound where
  memory := List.length_replicate
  len := by decide
  size := ⟨14, le_refl _, rfl⟩

/-- A server with one client. -/
def loneServer (c : IpcClient) : IpcServer where
  clientList := [0]
  client := fun _ => c
  staleUses := []

theorem loneServer_sound {c : IpcClient} (h : c.Sound) : (loneServer c).Sound where
  nodup := List.nodup_singleton 0
  client := by
    intro id d hd
    rw [← IpcServer.client_of_view hd]
    exact h

theorem ipcServer_sendsOnce_iff_fresh :
    (loneServer IpcClient.start).SendsOnce
        (ipcClientHandleCommand terseCompositor (loneServer IpcClient.start) 0 true 10 [])
        (some 0) (handlingEvents terseCompositor true 10 []) ↔
      (true = true → IpcClient.start.Outlives (handlingOf terseCompositor 10 [])) :=
  (ipcServer_sendsOnce_iff terseCompositor (loneServer IpcClient.start)
    (loneServer_sound IpcClient.start_sound) 0 (List.mem_singleton.2 rfl) true 10 []).2

/-- A tick that is sent to its own sender disconnects it, and the reply to it uses the client
after that. -/
theorem sendTick_stale :
    ¬ (loneServer backloggedClient).SendsOnce
        (ipcClientHandleCommand terseCompositor (loneServer backloggedClient) 0 true 10 [])
        (some 0) (handlingEvents terseCompositor true 10 []) := by
  intro h
  have hsound := loneServer_sound backloggedClient_sound
  have hview : (loneServer backloggedClient).view 0 = some backloggedClient := rfl
  have hiff := IpcServer.foldl_perform_stale_iff hsound.nodup hview backloggedClient_sound
    (handlingOf terseCompositor 10 [])
  have houtlives : backloggedClient.Outlives (handlingOf terseCompositor 10 []) :=
    hiff.1 h.noStale
  -- the header alone brings the queue to the limit
  have hqueue : queueLength (addressed (eventMask ipcEventTick)
      (beforeLastUse (handlingOf terseCompositor 10 []))) = 14 := by decide
  have hlt : 2097140 + queueLength (addressed (eventMask ipcEventTick)
      (beforeLastUse (handlingOf terseCompositor 10 []))) < writeBufferLimit := houtlives
  rw [hqueue] at hlt
  exact absurd hlt (by decide)

end Swirl
