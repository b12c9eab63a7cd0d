import Swirl.Ipc.Client

set_option autoImplicit false

/-! # The clients of the IPC server

`ipc_client_list` holds the connected clients. `ipc_send_event` sends an event to the clients that
subscribed to it, `ipc_client_handle_command` handles a message of one of them. Both go through
`ipc_send_reply`, which disconnects a client whose queue grows past the limit, and
`ipc_client_disconnect` frees it. The handler of a message does not look whether the client is
still there: an event it broadcasts, or a reply it sends before the last one, can have freed it.
-/

namespace Swirl

open Lib

/-- A client, as the address of its `struct ipc_client`. -/
abbrev IpcClientId := Nat

/-- The server, with the uses of a client that had been removed before. -/
structure IpcServer where
  clientList : List IpcClientId
  client : IpcClientId → IpcClient
  staleUses : List IpcClientId

/-- `ipc_client_disconnect` -/
def ipcClientDisconnect (s : IpcServer) (id : IpcClientId) : IpcServer :=
  { s with clientList := s.clientList.erase id }

/-- The server with another record of a client. -/
def IpcServer.setClient (s : IpcServer) (id : IpcClientId) (c : IpcClient) : IpcServer :=
  { s with client := Function.update s.client id c }

/-- A use of memory that was freed. Nothing else about it is modelled. -/
def IpcServer.useStale (s : IpcServer) (id : IpcClientId) : IpcServer :=
  { s with staleUses := s.staleUses ++ [id] }

/-- `ipc_send_reply`, on the server: whether the reply was queued. -/
def IpcServer.sendReply (s : IpcServer) (id : IpcClientId) (f : Frame) : IpcServer × Bool :=
  if id ∈ s.clientList then
    match ipcSendReply true (s.client id) f with
    | some c => (s.setClient id c, true)
    | none => (ipcClientDisconnect s id, false)
  else (s.useStale id, false)

/-- `event_mask` -/
def eventMask (event : UInt32) : BitVec 32 := 1#32 <<< (event &&& 0x7F).toNat

/-- Whether a client gets the events of a kind. -/
def IpcClient.Subscribed (c : IpcClient) (event : UInt32) : Prop :=
  c.subscribedEvents &&& eventMask event ≠ 0

instance (c : IpcClient) (event : UInt32) : Decidable (c.Subscribed event) :=
  inferInstanceAs (Decidable (_ ≠ _))

/-- The loop of `ipc_send_event`, from an index on. -/
def sendEventLoop (f : Frame) : Nat → Nat → IpcServer → IpcServer
  | 0, _, s => s
  | n + 1, i, s =>
      match s.clientList[i]? with
      | none => s
      | some id =>
          if (s.client id).Subscribed f.kind then
            match s.sendReply id f with
            | (s, true) => sendEventLoop f n (i + 1) s
            -- the client is gone from the list: this index again
            | (s, false) => sendEventLoop f n i s
          else sendEventLoop f n (i + 1) s

/-- `ipc_send_event` -/
def ipcSendEvent (s : IpcServer) (f : Frame) : IpcServer :=
  sendEventLoop f s.clientList.length 0 s

/-! ## Commands -/

/-- What the handling of a message does to the clients: it sends an event, replies to the client
of the message, or subscribes it to events. -/
inductive IpcAction
  | event (f : Frame)
  | reply (f : Frame)
  | subscribe (mask : BitVec 32)

/-- The action is a use of the client of the message. -/
def IpcAction.isUse : IpcAction → Bool
  | .event _ => false
  | .reply _ => true
  | .subscribe _ => true

/-- The message for a string, whose length is passed as a `uint32_t`. -/
def ipcFrame (kind : UInt32) (text : List UInt8) : Frame :=
  takeFrame kind (text.length % 2 ^ 32) (Nat.mod_lt _ (by decide)) text

/-- The bytes of a string of the source. -/
def ipcText (text : String) : List UInt8 := text.toList.map fun c => UInt8.ofNat c.toNat

/-- `IPC_EVENT_TICK` -/
def ipcEventTick : UInt32 := 0x80000007

/-- The events of a subscribe request, by name. -/
def ipcEventOf (name : String) : Option UInt32 :=
  if name = "workspace" then some 0x80000000
  else if name = "output" then some 0x80000001
  else if name = "barconfig_update" then some 0x80000004
  else if name = "bar_state_update" then some 0x80000014
  else if name = "mode" then some 0x80000002
  else if name = "shutdown" then some 0x80000006
  else if name = "window" then some 0x80000003
  else if name = "binding" then some 0x80000005
  else if name = "tick" then some ipcEventTick
  else if name = "input" then some 0x80000015
  else if name = "minimize" then some 0x80000016
  else none

/-- The loop of `IPC_SUBSCRIBE` over the requested events, and the replies after it. -/
def subscribeActions (type : UInt32) : List String → Bool → List IpcAction
  | [], isTick =>
      .reply (ipcFrame type (ipcText "\x7b\"success\": true\x7d")) ::
        if isTick then
          [.reply (ipcFrame ipcEventTick (ipcText "\x7b\"first\": true, \"payload\": \"\"\x7d"))]
        else []
  | name :: names, isTick =>
      match ipcEventOf name with
      | some event =>
          .subscribe (eventMask event) :: subscribeActions type names (isTick || name = "tick")
      | none => [.reply (ipcFrame type (ipcText "\x7b\"success\": false\x7d"))]

/-- The rest of the compositor: the events that running a command list sends and the text of its
results, the text of a tick event, the names in a subscribe request if it is an array, and the
texts that answer the other requests. -/
structure Compositor where
  execute : List UInt8 → List Frame × List UInt8
  tick : List UInt8 → List UInt8
  request : List UInt8 → Option (List String)
  describe : UInt32 → List UInt8 → List UInt8

/-- The `switch` of `ipc_client_handle_command`: what the handling of a message does to the
clients, in order. -/
def handlingOf (k : Compositor) (type : UInt32) (payload : List UInt8) : List IpcAction :=
  match type.toNat with
  | 0 => -- IPC_COMMAND
      (k.execute payload).1.map .event ++ [.reply (ipcFrame type (k.execute payload).2)]
  | 10 => -- IPC_SEND_TICK
      [.event (ipcFrame ipcEventTick (k.tick payload)),
        .reply (ipcFrame type (ipcText "\x7b\"success\": true\x7d"))]
  | 2 => -- IPC_SUBSCRIBE
      match k.request payload with
      | none => [.reply (ipcFrame type (ipcText "\x7b\"success\": false\x7d"))]
      | some names => subscribeActions type names false
  | 11 => -- IPC_SYNC
      [.reply (ipcFrame type (ipcText "\x7b\"success\": false\x7d"))]
  | 1 | 3 | 4 | 5 | 6 | 7 | 8 | 9 | 12 | 100 | 101 | 102 =>
      [.reply (ipcFrame type (k.describe type payload))]
  | _ => []

/-- A client that is subscribed to more events. -/
def IpcClient.subscribe (c : IpcClient) (mask : BitVec 32) : IpcClient :=
  { c with subscribedEvents := c.subscribedEvents ||| mask }

/-- One action of the handling of a message from a client. -/
def IpcServer.perform (id : IpcClientId) (s : IpcServer) : IpcAction → IpcServer
  | .event f => ipcSendEvent s f
  | .reply f => (s.sendReply id f).1
  | .subscribe mask =>
      if id ∈ s.clientList then s.setClient id ((s.client id).subscribe mask)
      else s.useStale id

/-- `ipc_client_handle_command`, where `received` says whether there is memory for the payload and
`recv` succeeds. -/
def ipcClientHandleCommand (k : Compositor) (s : IpcServer) (id : IpcClientId) (received : Bool)
    (type : UInt32) (payload : List UInt8) : IpcServer :=
  if received = false then ipcClientDisconnect s id
  else (handlingOf k type payload).foldl (IpcServer.perform id) s

/-! ## The server, client by client -/

/-- A client while it is connected. -/
def IpcServer.view (s : IpcServer) (id : IpcClientId) : Option IpcClient :=
  if id ∈ s.clientList then some (s.client id) else none

/-- No client is listed twice, and the queues of the connected clients are sound. -/
structure IpcServer.Sound (s : IpcServer) : Prop where
  nodup : s.clientList.Nodup
  client : ∀ id c, s.view id = some c → c.Sound

/-- What an event does to a connected client. -/
def IpcClient.receive (c : IpcClient) (f : Frame) : Option IpcClient :=
  if c.Subscribed f.kind then ipcSendReply true c f else some c

section View

variable {s : IpcServer} {id : IpcClientId}

theorem IpcServer.view_of_mem (h : id ∈ s.clientList) : s.view id = some (s.client id) := if_pos h

theorem IpcServer.view_of_not_mem (h : id ∉ s.clientList) : s.view id = none := if_neg h

theorem IpcServer.mem_of_view {c : IpcClient} (h : s.view id = some c) : id ∈ s.clientList := by
  by_contra hn
  rw [view_of_not_mem hn] at h
  cases h

theorem IpcServer.client_of_view {c : IpcClient} (h : s.view id = some c) : s.client id = c := by
  rw [view_of_mem (mem_of_view h)] at h
  exact Option.some.inj h

theorem IpcServer.not_mem_of_view (h : s.view id = none) : id ∉ s.clientList := by
  intro hm
  rw [view_of_mem hm] at h
  cases h

/-- The server with another view of one client. -/
structure IpcServer.Sets (s s' : IpcServer) (id : IpcClientId) (c : Option IpcClient) : Prop where
  stale : s'.staleUses = s.staleUses
  view : s'.view = Function.update s.view id c

theorem IpcServer.sets_setClient (h : id ∈ s.clientList) (c : IpcClient) :
    s.Sets (s.setClient id c) id (some c) where
  stale := rfl
  view := by
    funext d
    by_cases hd : d = id
    · subst hd
      have hd' : d ∈ (s.setClient d c).clientList := h
      rw [Function.update_self, view_of_mem hd']
      exact congrArg some (Function.update_self _ _ _)
    · rw [Function.update_of_ne hd]
      unfold IpcServer.view setClient
      simp only [Function.update_of_ne hd]

theorem IpcServer.sets_disconnect (hs : s.clientList.Nodup) (id : IpcClientId) :
    s.Sets (ipcClientDisconnect s id) id none where
  stale := rfl
  view := by
    funext d
    by_cases hd : d = id
    · subst hd
      rw [Function.update_self]
      exact view_of_not_mem hs.not_mem_erase
    · rw [Function.update_of_ne hd]
      unfold IpcServer.view ipcClientDisconnect
      simp only [List.mem_erase_of_ne hd]

/-- A reply to a connected client. -/
theorem IpcServer.sendReply_sets (hs : s.clientList.Nodup) {c : IpcClient} (h : s.view id = some c)
    (f : Frame) : s.Sets (s.sendReply id f).1 id (ipcSendReply true c f) := by
  have hc := client_of_view h
  rw [sendReply, if_pos (mem_of_view h), hc]
  cases hreply : ipcSendReply true c f with
  | some c' => exact sets_setClient (mem_of_view h) c'
  | none => exact sets_disconnect hs id

theorem IpcServer.sendReply_nodup (hs : s.clientList.Nodup) (id : IpcClientId) (f : Frame) :
    (s.sendReply id f).1.clientList.Nodup := by
  unfold sendReply
  split
  · split
    · exact hs
    · exact hs.erase id
  · exact hs

end View

/-! ## Events -/

/-- **The loop**: the clients from the index on have received the event, the others are as they
were. -/
theorem sendEventLoop_spec (f : Frame) (pre post : List IpcClientId) (n : Nat) (s : IpcServer)
    (hlist : s.clientList = pre ++ post) (hs : s.clientList.Nodup) (hn : post.length ≤ n) :
    (sendEventLoop f n pre.length s).staleUses = s.staleUses ∧
      (sendEventLoop f n pre.length s).clientList.Nodup ∧
        ∀ d, (sendEventLoop f n pre.length s).view d =
          if d ∈ post then (s.view d).bind (·.receive f) else s.view d := by
  induction n generalizing pre post s with
  | zero =>
      cases post with
      | nil => exact ⟨rfl, hs, fun d => (if_neg List.not_mem_nil).symm⟩
      | cons id post => simp at hn
  | succ n ih =>
      cases post with
      | nil =>
          have hget : s.clientList[pre.length]? = none := by
            rw [hlist, List.append_nil, List.getElem?_eq_none_iff]
          rw [sendEventLoop, hget]
          exact ⟨rfl, hs, fun d => (if_neg List.not_mem_nil).symm⟩
      | cons id post =>
          have hget : s.clientList[pre.length]? = some id := by
            rw [hlist, List.getElem?_append_right (le_refl _), Nat.sub_self]
            rfl
          have hview : s.view id = some (s.client id) :=
            IpcServer.view_of_mem (by rw [hlist]; simp)
          have hnext : s.clientList = (pre ++ [id]) ++ post := by rw [hlist]; simp
          have hpre : (pre ++ [id]).length = pre.length + 1 := List.length_append
          have hpost : post.length ≤ n := by
            rw [List.length_cons] at hn
            omega
          have hid : id ∉ post ∧ id ∉ pre := by
            rw [hlist] at hs
            obtain ⟨-, hcons, hdisj⟩ := List.nodup_append.1 hs
            exact ⟨(List.nodup_cons.1 hcons).1, fun hp => hdisj id hp id List.mem_cons_self rfl⟩
          -- the views of the clients after this one
          have hthen : ∀ v : Option IpcClient, ∀ d, v = (s.client id).receive f →
              (if d ∈ post then (Function.update s.view id v d).bind (·.receive f)
                else Function.update s.view id v d) =
              if d ∈ id :: post then (s.view d).bind (·.receive f) else s.view d := by
            intro v d hv
            by_cases hd : d = id
            · subst hd
              rw [if_neg hid.1, if_pos List.mem_cons_self, Function.update_self, hview, hv]
              rfl
            · rw [Function.update_of_ne hd]
              simp only [List.mem_cons, hd, false_or]
          rw [sendEventLoop, hget]
          dsimp only
          by_cases hsub : (s.client id).Subscribed f.kind
          · rw [if_pos hsub]
            have hrec : (s.client id).receive f = ipcSendReply true (s.client id) f := if_pos hsub
            have hsets := IpcServer.sendReply_sets hs hview f
            have hnodup := IpcServer.sendReply_nodup hs id f
            rw [IpcServer.sendReply, if_pos (IpcServer.mem_of_view hview)] at hsets hnodup ⊢
            cases hreply : ipcSendReply true (s.client id) f with
            | some c =>
                rw [hreply] at hsets hnodup
                dsimp only at hsets hnodup ⊢
                obtain ⟨hstale, hnodup', hviews⟩ := ih (pre ++ [id]) post (s.setClient id c)
                  hnext hnodup hpost
                rw [hpre] at hstale hnodup' hviews
                refine ⟨hstale.trans hsets.stale, hnodup', fun d => ?_⟩
                rw [hviews d, hsets.view, hthen _ d (by rw [hrec, hreply])]
            | none =>
                rw [hreply] at hsets hnodup
                dsimp only at hsets hnodup ⊢
                have herase : (ipcClientDisconnect s id).clientList = pre ++ post := by
                  show s.clientList.erase id = pre ++ post
                  rw [hlist, List.erase_append_right _ hid.2, List.erase_cons_head]
                obtain ⟨hstale, hnodup', hviews⟩ := ih pre post (ipcClientDisconnect s id)
                  herase hnodup hpost
                refine ⟨hstale.trans hsets.stale, hnodup', fun d => ?_⟩
                rw [hviews d, hsets.view, hthen _ d (by rw [hrec, hreply])]
          · rw [if_neg hsub]
            have hrec : (s.client id).receive f = some (s.client id) := if_neg hsub
            obtain ⟨hstale, hnodup', hviews⟩ := ih (pre ++ [id]) post s hnext hs hpost
            rw [hpre] at hstale hnodup' hviews
            refine ⟨hstale, hnodup', fun d => ?_⟩
            have hsame : Function.update s.view id (some (s.client id)) = s.view := by
              rw [← hview, Function.update_eq_self]
            rw [hviews d, ← hthen (some (s.client id)) d hrec.symm, hsame]

/-- **An event** is offered once to every connected client. -/
theorem ipcSendEvent_spec {s : IpcServer} (hs : s.clientList.Nodup) (f : Frame) :
    (ipcSendEvent s f).staleUses = s.staleUses ∧ (ipcSendEvent s f).clientList.Nodup ∧
      ∀ d, (ipcSendEvent s f).view d = (s.view d).bind (·.receive f) := by
  obtain ⟨hstale, hnodup, hviews⟩ := sendEventLoop_spec f [] s.clientList
    s.clientList.length s rfl hs (le_refl _)
  refine ⟨hstale, hnodup, fun d => ?_⟩
  have hd := hviews d
  rw [ipcSendEvent]
  rw [List.length_nil] at hd
  rw [hd]
  split
  · rfl
  · rename_i hn
    rw [IpcServer.view_of_not_mem hn]
    rfl

end Swirl
