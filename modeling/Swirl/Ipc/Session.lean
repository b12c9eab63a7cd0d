import Swirl.Ipc.Inbound
import Swirl.Ipc.Response
import Swirl.Ipc.StaleClients

set_option autoImplicit false

/-! # A caller and the server

A program that calls `ipc_single_command` writes a message to its socket and reads until the
response is complete. The server reads the message, handles it for that client among the others,
queues the reply and writes it when the socket takes it. Between the two, bytes arrive in any
chunks, other clients and the event loop come in between, and the client can be disconnected.
-/

namespace Swirl

open Lib

/-- Where a call of `ipc_single_command` is: `ipc_recv_response` has read a part of the header, or
a part of the payload. -/
inductive CallerPhase
  | idle
  | header (buffer : List UInt8)
  | payload (size : Nat) (type : UInt32) (buffer : List UInt8)
  | aborted

/-- A caller, its socket and the server. `flight` is what the caller has written and the server
cannot read yet, `wire` what the server has written and the caller has not read. The last four are
the history: the calls, the messages handled, the replies to them and the responses returned. -/
structure IpcSession where
  server : IpcServer
  unread : Unread
  flight : List UInt8
  wire : List UInt8
  phase : CallerPhase
  calls : List Frame
  handled : List Frame
  replies : List Frame
  answers : List IpcResponse

/-- What happens: the caller calls, bytes arrive at the server, the event loop finds the socket of
the caller readable or writable, something else happens to the server, or the caller's `recv`
returns. -/
inductive IpcSessionEvent
  | call (f : Frame)
  | arrive (n : Nat)
  | readable (k : Compositor)
  | writable (mask : EventMask) (result : WriteResult)
  | other (k : Compositor) (e : IpcServerEvent)
  | recv (n : Nat)

/-! ## The caller -/

/-- How many bytes the next `recv` asks for. -/
def CallerPhase.wanted : CallerPhase → Nat
  | .header buffer => ipcHeaderSize - buffer.length
  | .payload size _ buffer => size - buffer.length
  | .idle | .aborted => 0

/-- `recv` has written some bytes. -/
def CallerPhase.read (l : List UInt8) : CallerPhase → CallerPhase
  | .header buffer =>
      if (buffer ++ l).length < ipcHeaderSize then .header (buffer ++ l)
      else .payload (headLength ipcMagic (buffer ++ l)) (headKind ipcMagic (buffer ++ l)) []
  | .payload size type buffer => .payload size type (buffer ++ l)
  | phase => phase

/-- `ipc_recv_response` returns when the payload is complete. -/
def IpcSession.finish (s : IpcSession) : IpcSession :=
  match s.phase with
  | .payload size type buffer =>
      if size ≤ buffer.length then
        { s with phase := .idle, answers := s.answers ++ [⟨size, type, buffer⟩] }
      else s
  | _ => s

/-- The writes of `ipc_single_command`, which fail on a closed socket. -/
def IpcSession.call (me : IpcClientId) (s : IpcSession) (f : Frame) : IpcSession :=
  match s.phase with
  | .idle =>
      if me ∈ s.server.clientList then
        { s with
          flight := s.flight ++ f.bytes ipcMagic
          phase := .header []
          calls := s.calls ++ [f] }
      else { s with phase := .aborted }
  | _ => s

/-- `recv` of the caller gives `n` bytes at most. At the end of the connection the loop over the
header aborts, and the loop over the payload goes on. -/
def IpcSession.recv (me : IpcClientId) (s : IpcSession) (n : Nat) : IpcSession :=
  if s.wire = [] ∧ me ∉ s.server.clientList then
    match s.phase with
    | .header _ => { s with phase := .aborted }
    | _ => s
  else
    let l := s.wire.take (min n s.phase.wanted)
    IpcSession.finish { s with wire := s.wire.drop l.length, phase := s.phase.read l }

/-! ## The server -/

/-- The replies among the actions of a handling. -/
def repliesOf (actions : List IpcAction) : List Frame :=
  actions.filterMap fun a =>
    match a with
    | .reply f => some f
    | _ => none

/-- `ipc_client_handle_readable` for the caller's client, with the command that it handles. -/
def IpcSession.readable (me : IpcClientId) (s : IpcSession) (k : Compositor) : IpcSession :=
  let i := ipcClientHandleReadable ⟨s.server.client me, true, s.unread, [], []⟩
    ⟨⟨false, false⟩, true, true, true, true, true⟩
  let s := { s with server := s.server.setClient me i.client, unread := i.unread }
  if i.connected = false then { s with server := ipcClientDisconnect s.server me }
  else
    match i.handled with
    | [] => s
    | f :: _ =>
        { s with
          server := ipcClientHandleCommand k s.server me true f.kind f.payload
          handled := s.handled ++ [f]
          replies := s.replies ++ repliesOf (handlingOf k f.kind f.payload) }

/-- One event. -/
def IpcSession.step (me : IpcClientId) (s : IpcSession) : IpcSessionEvent → IpcSession
  | .call f => s.call me f
  | .arrive n =>
      let l := s.unread.room (s.flight.take n)
      { s with unread := s.unread.receive (s.flight.take n), flight := s.flight.drop l.length }
  | .readable k => if me ∈ s.server.clientList then s.readable me k else s
  | .writable mask result =>
      if me ∈ s.server.clientList then
        let r := ipcClientHandleWritable (s.server.client me) mask result
        match r.1 with
        | some c => { s with server := s.server.setClient me c, wire := s.wire ++ r.2 }
        | none => { s with server := ipcClientDisconnect s.server me }
      else s
  | .other k e => { s with server := s.server.step k e }
  | .recv n => s.recv me n

/-- The types of messages that are answered by one reply. -/
def ipcCallTypes : List Nat := [0, 1, 3, 4, 5, 6, 7, 8, 9, 10, 11, 12, 100, 101, 102]

/-- Whether an event of the server is one of another client; a client can always be disconnected. -/
def IpcServerEvent.Foreign (me : IpcClientId) : IpcServerEvent → Prop
  | .connection id | .message id _ _ _ | .writable id _ _ => id ≠ me
  | .event _ | .disconnect _ => True

/-- The caller calls with a type that is answered once and a message that a socket can hold, and
the server does nothing else with its client. -/
def IpcSessionEvent.Fair (me : IpcClientId) : IpcSessionEvent → Prop
  | .call f => f.kind.toNat ∈ ipcCallTypes ∧ (f.bytes ipcMagic).length ≤ unreadMax
  | .other _ e => e.Foreign me
  | _ => True

/-! ## What is read of a message -/

section Message

variable {c : IpcClient} {u : Unread} {f : Frame}

theorem headLength_take {s : List UInt8} (h : ipcHeaderSize ≤ s.length) :
    headLength ipcMagic (s.take ipcHeaderSize) = headLength ipcMagic s ∧
      headKind ipcMagic (s.take ipcHeaderSize) = headKind ipcMagic s := by
  have hlen : ipcMagic.length + 8 ≤ (s.take ipcHeaderSize).length := by
    rw [List.length_take]
    exact le_min (le_refl _) h
  have hsplit := List.take_append_drop ipcHeaderSize s
  constructor
  · rw [← headLength_append (s.drop ipcHeaderSize) hlen, hsplit]
  · rw [← headKind_append (s.drop ipcHeaderSize) hlen, hsplit]

theorem bytes_drop_header (f : Frame) : (f.bytes ipcMagic).drop ipcHeaderSize = f.payload :=
  List.drop_left' (by simp only [List.length_append, leBytes_length]; rfl)

/-- What a server has of a message: the header is not read yet, or the payload is waited for. -/
inductive PartlyRead (c : IpcClient) (f : Frame) (rest : List UInt8) : Prop
  | start (hpending : c.pendingLength = 0) (hrest : rest = f.bytes ipcMagic)
  | announced (hpending : c.pendingLength.toNat = f.payload.length) (htype : c.pendingType = f.kind)
      (hpos : 0 < f.payload.length) (hrest : rest = f.payload)

/-- What a call of `ipc_client_handle_readable` comes to: the message is complete and handed over,
or the rest is waited for. -/
structure Handed (c : IpcClient) (u : Unread) (flight : List UInt8) (f : Frame) (i : Inbound) :
    Prop where
  connected : i.connected = true
  queue : i.client.queue = c.queue ∧ i.client.subscribedEvents = c.subscribedEvents
  sound : c.Sound → i.client.Sound
  done : i.handled = [f] ∧ i.client.pendingLength = 0 ∧ i.unread.bytes = [] ∧ flight = [] ∨
    i.handled = [] ∧ flight ≠ [] ∧ PartlyRead i.client f (i.unread.bytes ++ flight)

/-- Nothing is unread between two messages. -/
theorem handleReadable_nothing (hpending : c.pendingLength = 0) (hu : u.bytes = []) :
    ipcClientHandleReadable ⟨c, true, u, [], []⟩ ⟨⟨false, false⟩, true, true, true, true, true⟩ =
      ⟨c, true, u, [], []⟩ := by
  unfold ipcClientHandleReadable
  simp only [Bool.false_eq_true, Bool.true_eq_false, if_false]
  rw [if_neg (by rw [hpending]; decide), if_pos (by rw [hu]; decide)]

theorem handleReadable_announced {flight : List UInt8}
    (hpending : c.pendingLength.toNat = f.payload.length) (htype : c.pendingType = f.kind)
    (hpos : 0 < f.payload.length) (hrest : u.bytes ++ flight = f.payload) :
    Handed c u flight f (ipcClientHandleReadable ⟨c, true, u, [], []⟩
      ⟨⟨false, false⟩, true, true, true, true, true⟩) := by
  have hlen : u.bytes.length + flight.length = f.payload.length := by
    rw [← hrest, List.length_append]
  unfold ipcClientHandleReadable
  simp only [Bool.false_eq_true, Bool.true_eq_false, if_false]
  rw [if_pos (by omega)]
  split
  · rename_i hroom
    have hnil : flight = [] := List.length_eq_zero_iff.1 (by omega)
    have hbytes : u.bytes = f.payload := by rw [← hrest, hnil, List.append_nil]
    unfold ipcReceivePayload
    simp only [Bool.true_eq_false, and_false, if_false]
    refine ⟨rfl, ⟨rfl, rfl⟩, fun h => ⟨h.memory, h.len, h.size⟩, Or.inl ⟨?_, rfl, ?_, hnil⟩⟩
    · show [Frame.mk c.pendingType (u.bytes.take c.pendingLength.toNat) _] = [f]
      congr 1
      apply Frame.ext
      · exact htype
      · show u.bytes.take _ = f.payload
        rw [hpending, hbytes, List.take_length]
    · show u.bytes.drop c.pendingLength.toNat = []
      rw [hpending, hbytes, List.drop_length]
  · rename_i hwait
    refine ⟨rfl, ⟨rfl, rfl⟩, id, Or.inr ⟨rfl, ?_, PartlyRead.announced hpending htype hpos hrest⟩⟩
    rintro rfl
    rw [List.length_nil] at hlen
    exact hwait (by show c.pendingLength.toNat ≤ u.bytes.length; omega)

theorem handleReadable_start {flight : List UInt8} (hpending : c.pendingLength = 0)
    (hrest : u.bytes ++ flight = f.bytes ipcMagic) :
    Handed c u flight f (ipcClientHandleReadable ⟨c, true, u, [], []⟩
      ⟨⟨false, false⟩, true, true, true, true, true⟩) := by
  have hlen : u.bytes.length + flight.length = ipcHeaderSize + f.payload.length := by
    rw [← List.length_append, hrest, f.bytes_length]
    rfl
  unfold ipcClientHandleReadable
  simp only [Bool.false_eq_true, Bool.true_eq_false, if_false]
  rw [if_neg (by rw [hpending]; decide)]
  by_cases hshort : u.bytes.length < ipcHeaderSize
  · rw [if_pos hshort]
    refine ⟨rfl, ⟨rfl, rfl⟩, id, Or.inr ⟨rfl, ?_, PartlyRead.start hpending hrest⟩⟩
    rintro rfl
    rw [List.length_nil] at hlen
    omega
  · rw [if_neg hshort]
    have htake : u.bytes.take ipcHeaderSize = (f.bytes ipcMagic).take ipcHeaderSize := by
      rw [← hrest, List.take_append_of_le_length (by omega)]
    have hwhole : ipcHeaderSize ≤ (f.bytes ipcMagic).length := by
      rw [f.bytes_length]
      exact Nat.le_add_right _ _
    have hmagic : (u.bytes.take ipcHeaderSize).take ipcMagic.length = ipcMagic := by
      rw [htake, List.take_take]
      exact List.take_left' rfl
    have hlength : headLength ipcMagic (u.bytes.take ipcHeaderSize) = f.payload.length := by
      rw [htake, (headLength_take hwhole).1]
      have h : headLength ipcMagic (f.bytes ipcMagic ++ []) = f.payload.length :=
        headLength_bytes f []
      rwa [List.append_nil] at h
    have hkind : headKind ipcMagic (u.bytes.take ipcHeaderSize) = f.kind := by
      rw [htake, (headLength_take hwhole).2]
      have h : headKind ipcMagic (f.bytes ipcMagic ++ []) = f.kind := headKind_bytes f []
      rwa [List.append_nil] at h
    have hdrop : u.bytes.drop ipcHeaderSize ++ flight = f.payload := by
      rw [← bytes_drop_header f, ← hrest, List.drop_append_of_le_length (by omega)]
    have hfits : (UInt32.ofNat f.payload.length).toNat = f.payload.length :=
      UInt32.toNat_ofNat_of_lt' f.fits
    rw [if_neg (not_not_intro hmagic), hlength, hkind, hfits]
    split
    · rename_i hroom
      have hnil : flight = [] := List.length_eq_zero_iff.1 (by omega)
      rw [hnil, List.append_nil] at hdrop
      unfold ipcReceivePayload
      simp only [Bool.true_eq_false, and_false, if_false]
      refine ⟨rfl, ⟨rfl, rfl⟩, fun h => ⟨h.memory, h.len, h.size⟩, Or.inl ⟨?_, rfl, ?_, hnil⟩⟩
      · show [Frame.mk f.kind ((u.bytes.drop ipcHeaderSize).take f.payload.length) _] = [f]
        congr 1
        apply Frame.ext
        · rfl
        · show (u.bytes.drop ipcHeaderSize).take _ = f.payload
          rw [hdrop, List.take_length]
      · show (u.bytes.drop ipcHeaderSize).drop f.payload.length = []
        rw [hdrop, List.drop_length]
    · rename_i hwait
      have hpos : 0 < f.payload.length := by omega
      refine ⟨rfl, ⟨rfl, rfl⟩, fun h => ⟨h.memory, h.len, h.size⟩, Or.inr ⟨rfl, ?_, ?_⟩⟩
      · rintro rfl
        rw [List.length_nil] at hlen
        omega
      · exact PartlyRead.announced hfits rfl hpos hdrop

theorem handleReadable_reading {flight : List UInt8} (h : PartlyRead c f (u.bytes ++ flight)) :
    Handed c u flight f (ipcClientHandleReadable ⟨c, true, u, [], []⟩
      ⟨⟨false, false⟩, true, true, true, true, true⟩) := by
  rcases h with ⟨hpending, hrest⟩ | ⟨hpending, htype, hpos, hrest⟩
  · exact handleReadable_start hpending hrest
  · exact handleReadable_announced hpending htype hpos hrest

end Message

/-! ## The invariant -/

/-- A reply as `ipc_recv_response` returns it. -/
def Frame.response (f : Frame) : IpcResponse := ⟨f.payload.length, f.kind, f.payload⟩

/-- The caller has read the bytes `l` of a reply, not all of them. -/
inductive CallerPhase.Has (r : Frame) (l : List UInt8) : CallerPhase → Prop
  | header (hlt : l.length < ipcHeaderSize) : Has r l (.header l)
  | payload {buffer : List UInt8} (hl : l = (r.bytes ipcMagic).take ipcHeaderSize ++ buffer)
      (hlt : buffer.length < r.payload.length) : Has r l (.payload r.payload.length r.kind buffer)

/-- The connection is between two messages, with some bytes queued. -/
def IpcSession.Quiet (s : IpcSession) (c : IpcClient) (queue : List UInt8) : Prop :=
  c.queue = queue ∧ c.pendingLength = 0 ∧ s.unread.bytes = [] ∧ s.flight = []

/-- Where an exchange stands: there is none, the message is on its way, or the reply is; or the
connection has ended. -/
inductive IpcSession.Stage (me : IpcClientId) (s : IpcSession) : Prop
  | resting (hphase : s.phase = .idle) (hwire : s.wire = []) (hhandled : s.handled = s.calls)
      (hanswers : s.answers = s.replies.map Frame.response)
      (hclient : ∀ c, s.server.view me = some c → s.Quiet c [])
  | asking (f : Frame) (hphase : s.phase = .header []) (hwire : s.wire = [])
      (hcalls : s.calls = s.handled ++ [f]) (hanswers : s.answers = s.replies.map Frame.response)
      (hclient : ∀ c, s.server.view me = some c →
        c.queue = [] ∧ PartlyRead c f (s.unread.bytes ++ s.flight))
  | answering (r : Frame) (l queue : List UInt8) (rs : List Frame) (hphase : s.phase.Has r l)
      (hwire : l ++ s.wire ++ queue = r.bytes ipcMagic) (hhandled : s.handled = s.calls)
      (hreplies : s.replies = rs ++ [r]) (hanswers : s.answers = rs.map Frame.response)
      (hclient : ∀ c, s.server.view me = some c → s.Quiet c queue)
  | ended (hphase : s.phase = .aborted) (hview : s.server.view me = none)
      (hhandled : s.handled <+: s.calls) (hanswers : s.answers <+: s.replies.map Frame.response)
      (hcalls : s.calls.length ≤ s.answers.length + 1)

/-- **The invariant** of a session. -/
structure IpcSessionInv (me : IpcClientId) (s : IpcSession) : Prop where
  sound : s.server.Sound
  unsubscribed : ∀ c, s.server.view me = some c → c.subscribedEvents = 0
  fair : ∀ f ∈ s.calls, f.kind.toNat ∈ ipcCallTypes ∧ (f.bytes ipcMagic).length ≤ unreadMax
  kinds : s.replies.map Frame.kind = s.handled.map Frame.kind
  stage : s.Stage me

section Steps

variable {me : IpcClientId} {s : IpcSession}

/-- The server changes, and what it has of the caller's client is the same or gone. -/
theorem IpcSession.Stage.server (h : s.Stage me) {server : IpcServer}
    (hview : ∀ c, server.view me = some c → s.server.view me = some c) :
    IpcSession.Stage me { s with server := server } := by
  cases h with
  | resting hphase hwire hhandled hanswers hclient =>
      exact .resting hphase hwire hhandled hanswers fun c hc => hclient c (hview c hc)
  | asking f hphase hwire hcalls hanswers hclient =>
      exact .asking f hphase hwire hcalls hanswers fun c hc => hclient c (hview c hc)
  | answering r l queue rs hphase hwire hhandled hreplies hanswers hclient =>
      exact .answering r l queue rs hphase hwire hhandled hreplies hanswers
        fun c hc => hclient c (hview c hc)
  | ended hphase hnone hhandled hanswers hcalls =>
      refine .ended hphase ?_ hhandled hanswers hcalls
      cases hv : server.view me with
      | none => rfl
      | some c =>
          have hold := hview c hv
          rw [hnone] at hold
          cases hold

theorem IpcClient.not_subscribed {c : IpcClient} (h : c.subscribedEvents = 0) (kind : UInt32) :
    ¬ c.Subscribed kind := by
  unfold IpcClient.Subscribed
  rw [h]
  simp

/-- Events pass by a client that is subscribed to none. -/
theorem receive_unsubscribed {c : IpcClient} (h : c.subscribedEvents = 0) (fs : List Frame) :
    fs.foldl (fun v f => v.bind (·.receive f)) (some c) = some c := by
  induction fs with
  | nil => rfl
  | cons f fs ih =>
      rw [List.foldl_cons]
      show fs.foldl _ (c.receive f) = _
      rw [IpcClient.receive, if_neg (IpcClient.not_subscribed h f.kind)]
      exact ih

/-- What the server does for others. -/
theorem view_foreign (h : IpcSessionInv me s) (k : Compositor) {e : IpcServerEvent}
    (he : e.Foreign me) {c : IpcClient} (hc : (s.server.step k e).view me = some c) :
    s.server.view me = some c := by
  have hsets : ∀ {server : IpcServer} {id : IpcClientId} {v : Option IpcClient},
      s.server.Sets server id v → id ≠ me → server.view me = some c →
        s.server.view me = some c := by
    intro server id v hsets hid hv
    rwa [hsets.view, Function.update_of_ne (Ne.symm hid)] at hv
  -- with the events that are sent to everyone
  have hevents : ∀ fs : List Frame,
      fs.foldl (fun v f => v.bind (·.receive f)) (s.server.view me) = some c →
        s.server.view me = some c := by
    intro fs hfs
    cases hv : s.server.view me with
    | none =>
        rw [hv] at hfs
        have hnone : fs.foldl (fun (v : Option IpcClient) f => v.bind (·.receive f)) none =
            none := by
          clear hfs
          induction fs with
          | nil => rfl
          | cons f fs ih => exact ih
        rw [hnone] at hfs
        cases hfs
    | some d =>
        rw [hv, receive_unsubscribed (h.unsubscribed d hv)] at hfs
        exact hfs
  cases e with
  | connection id =>
      have hid : id ≠ me := he
      unfold IpcServer.step ipcHandleConnection at hc
      dsimp only at hc
      split at hc
      · exact hc
      · have hmem := IpcServer.mem_of_view hc
        have hold : me ∈ s.server.clientList := by
          rcases List.mem_append.1 hmem with hm | hm
          · exact hm
          · exact absurd (List.mem_singleton.1 hm) (Ne.symm hid)
        rw [IpcServer.view_of_mem hold, ← IpcServer.client_of_view hc]
        exact congrArg some (Function.update_of_ne (Ne.symm hid) _ _).symm
  | message id received type payload =>
      have hid : me ≠ id := Ne.symm he
      unfold IpcServer.step ipcClientHandleCommand at hc
      dsimp only at hc
      split at hc
      · exact hsets (IpcServer.sets_disconnect h.sound.nodup id) he hc
      · rw [IpcServer.foldl_perform_other h.sound.nodup hid] at hc
        exact hevents _ hc
  | event f =>
      have hview : (ipcSendEvent s.server f).view me = some c := hc
      rw [(ipcSendEvent_spec h.sound.nodup f).2.2] at hview
      exact hevents [f] hview
  | writable id mask result =>
      unfold IpcServer.step at hc
      dsimp only at hc
      split at hc
      · rename_i hm
        split at hc
        · exact hsets (IpcServer.sets_setClient hm _) he hc
        · exact hsets (IpcServer.sets_disconnect h.sound.nodup id) he hc
      · exact hc
  | disconnect id =>
      by_cases hid : id = me
      · subst hid
        have hview : (ipcClientDisconnect s.server id).view id = some c := hc
        rw [(IpcServer.sets_disconnect h.sound.nodup id).view, Function.update_self] at hview
        cases hview
      · exact hsets (IpcServer.sets_disconnect h.sound.nodup id) hid hc

theorem IpcSessionInv.other (h : IpcSessionInv me s) (k : Compositor) {e : IpcServerEvent}
    (he : e.Foreign me) : IpcSessionInv me { s with server := s.server.step k e } where
  sound := h.sound.step k e
  unsubscribed c hc := h.unsubscribed c (view_foreign h k he hc)
  fair := h.fair
  kinds := h.kinds
  stage := h.stage.server fun _ hc => view_foreign h k he hc

/-- The client is disconnected. -/
theorem IpcSessionInv.disconnect (h : IpcSessionInv me s) :
    IpcSessionInv me { s with server := ipcClientDisconnect s.server me } :=
  h.other ⟨fun _ => ([], []), fun _ => [], fun _ => none, fun _ _ => []⟩
    (e := .disconnect me) trivial

/-- **A call** starts an exchange when there is none. -/
theorem IpcSessionInv.call (h : IpcSessionInv me s) {f : Frame}
    (hf : f.kind.toNat ∈ ipcCallTypes ∧ (f.bytes ipcMagic).length ≤ unreadMax) :
    IpcSessionInv me (s.call me f) := by
  unfold IpcSession.call
  cases h.stage with
  | asking f' hphase => rw [hphase]; exact h
  | answering r l queue rs hphase =>
      generalize hp : s.phase = phase at hphase
      cases hphase <;> exact h
  | ended hphase => rw [hphase]; exact h
  | resting hphase hwire hhandled hanswers hclient =>
      rw [hphase]
      dsimp only
      by_cases hme : me ∈ s.server.clientList
      · rw [if_pos hme]
        refine ⟨h.sound, h.unsubscribed, ?_, h.kinds, ?_⟩
        · intro g hg
          rcases List.mem_append.1 hg with hg | hg
          · exact h.fair g hg
          · exact List.mem_singleton.1 hg ▸ hf
        · refine .asking f rfl hwire ?_ hanswers fun c hc => ?_
          · show s.calls ++ [f] = s.handled ++ [f]
            rw [hhandled]
          · obtain ⟨hqueue, hpending, hunread, hflight⟩ := hclient c hc
            refine ⟨hqueue, PartlyRead.start hpending ?_⟩
            show s.unread.bytes ++ (s.flight ++ f.bytes ipcMagic) = _
            rw [hunread, hflight]
            rfl
      · rw [if_neg hme]
        refine ⟨h.sound, h.unsubscribed, h.fair, h.kinds, .ended rfl ?_ ?_ ?_ ?_⟩
        · exact IpcServer.view_of_not_mem hme
        · exact hhandled ▸ List.prefix_refl _
        · exact hanswers ▸ List.prefix_refl _
        · have hlen := congrArg List.length h.kinds
          show s.calls.length ≤ s.answers.length + 1
          rw [hanswers, ← hhandled]
          simp only [List.length_map] at hlen ⊢
          omega

/-- Bytes that arrive stay in order. -/
theorem IpcSessionInv.arrive (h : IpcSessionInv me s) (n : Nat) :
    IpcSessionInv me (s.step me (.arrive n)) := by
  have hbytes : (s.unread.receive (s.flight.take n)).bytes ++
      s.flight.drop (s.unread.room (s.flight.take n)).length = s.unread.bytes ++ s.flight := by
    show s.unread.bytes ++ s.unread.room (s.flight.take n) ++ _ = _
    unfold Unread.room
    rw [List.take_take, List.append_assoc, List.length_take]
    congr 1
    rw [List.take_eq_take_min, List.take_append_drop]
  have hempty : s.flight = [] → s.unread.bytes = [] →
      (s.unread.receive (s.flight.take n)).bytes = [] ∧
        s.flight.drop (s.unread.room (s.flight.take n)).length = [] := by
    intro hflight hunread
    refine List.append_eq_nil_iff.1 (hbytes.trans ?_)
    rw [hunread, hflight]
    rfl
  refine ⟨h.sound, h.unsubscribed, h.fair, h.kinds, ?_⟩
  cases h.stage with
  | resting hphase hwire hhandled hanswers hclient =>
      refine .resting hphase hwire hhandled hanswers fun c hc => ?_
      obtain ⟨hqueue, hpending, hunread, hflight⟩ := hclient c hc
      exact ⟨hqueue, hpending, hempty hflight hunread⟩
  | asking f hphase hwire hcalls hanswers hclient =>
      refine .asking f hphase hwire hcalls hanswers fun c hc => ⟨(hclient c hc).1, ?_⟩
      show PartlyRead c f ((s.unread.receive (s.flight.take n)).bytes ++ s.flight.drop _)
      rw [hbytes]
      exact (hclient c hc).2
  | answering r l queue rs hphase hwire hhandled hreplies hanswers hclient =>
      refine .answering r l queue rs hphase hwire hhandled hreplies hanswers fun c hc => ?_
      obtain ⟨hqueue, hpending, hunread, hflight⟩ := hclient c hc
      exact ⟨hqueue, hpending, hempty hflight hunread⟩
  | ended hphase hview hhandled hanswers hcalls =>
      exact .ended hphase hview hhandled hanswers hcalls

/-- A write takes bytes of the queue, and changes nothing else of a client. -/
theorem ipcClientHandleWritable_keeps {c c' : IpcClient} (mask : EventMask) (result : WriteResult)
    (hc : (ipcClientHandleWritable c mask result).1 = some c') :
    c'.pendingLength = c.pendingLength ∧ c'.pendingType = c.pendingType ∧
      c'.subscribedEvents = c.subscribedEvents := by
  unfold ipcClientHandleWritable at hc
  split at hc
  · cases hc
  split at hc
  · cases hc
  split at hc
  · cases hc
    exact ⟨rfl, rfl, rfl⟩
  cases result with
  | again =>
      cases hc
      exact ⟨rfl, rfl, rfl⟩
  | error => cases hc
  | written n =>
      dsimp only at hc
      split at hc <;> cases hc <;> exact ⟨rfl, rfl, rfl⟩

theorem PartlyRead.congr {c c' : IpcClient} {f : Frame} {rest : List UInt8} (h : PartlyRead c f rest)
    (hlength : c'.pendingLength = c.pendingLength) (htype : c'.pendingType = c.pendingType) :
    PartlyRead c' f rest := by
  rcases h with ⟨hpending, hrest⟩ | ⟨hpending, hkind, hpos, hrest⟩
  · exact .start (hlength.trans hpending) hrest
  · exact .announced (hlength ▸ hpending) (htype.trans hkind) hpos hrest

/-- **A write of the server** moves bytes of the queue to the wire. -/
theorem IpcSessionInv.writable (h : IpcSessionInv me s) (mask : EventMask) (result : WriteResult) :
    IpcSessionInv me (s.step me (.writable mask result)) := by
  unfold IpcSession.step
  dsimp only
  by_cases hme : me ∈ s.server.clientList
  · rw [if_pos hme]
    have hview := IpcServer.view_of_mem hme
    have hsound := h.sound.client me _ hview
    cases hr : (ipcClientHandleWritable (s.server.client me) mask result).1 with
    | none => exact h.disconnect
    | some c =>
        obtain ⟨hsound', hbytes⟩ := ipcClientHandleWritable_spec hsound mask result hr
        obtain ⟨hlength, htype, hevents⟩ := ipcClientHandleWritable_keeps mask result hr
        have hsets := IpcServer.sets_setClient hme c
        have hnew : ∀ d, (s.server.setClient me c).view me = some d → d = c := by
          intro d hd
          rw [hsets.view, Function.update_self] at hd
          exact (Option.some.inj hd).symm
        dsimp only
        refine ⟨?_, ?_, h.fair, h.kinds, ?_⟩
        · exact h.sound.sets hsets h.sound.nodup fun d hd => Option.some.inj hd ▸ hsound'
        · intro d hd
          rw [hnew d hd]
          exact hevents.trans (h.unsubscribed _ hview)
        · cases h.stage with
          | resting hphase hwire hhandled hanswers hclient =>
              obtain ⟨hqueue, hpending, hrest⟩ := hclient _ hview
              rw [hqueue] at hbytes
              obtain ⟨hwritten, hqueue'⟩ := List.append_eq_nil_iff.1 hbytes
              refine .resting hphase ?_ hhandled hanswers fun d hd => ?_
              · show s.wire ++ _ = []
                rw [hwire, hwritten]
                rfl
              · rw [hnew d hd]
                exact ⟨hqueue', hlength.trans hpending, hrest⟩
          | asking f hphase hwire hcalls hanswers hclient =>
              obtain ⟨hqueue, hreading⟩ := hclient _ hview
              rw [hqueue] at hbytes
              obtain ⟨hwritten, hqueue'⟩ := List.append_eq_nil_iff.1 hbytes
              refine .asking f hphase ?_ hcalls hanswers fun d hd => ?_
              · show s.wire ++ _ = []
                rw [hwire, hwritten]
                rfl
              · rw [hnew d hd]
                exact ⟨hqueue', hreading.congr hlength htype⟩
          | answering r l queue rs hphase hwire hhandled hreplies hanswers hclient =>
              obtain ⟨hqueue, hpending, hrest⟩ := hclient _ hview
              refine .answering r l c.queue rs hphase ?_ hhandled hreplies hanswers fun d hd => ?_
              · show l ++ (s.wire ++ _) ++ c.queue = _
                rw [← hwire, ← hqueue, ← hbytes]
                simp only [List.append_assoc]
              · rw [hnew d hd]
                exact ⟨rfl, hlength.trans hpending, hrest⟩
          | ended hphase hnone hhandled hanswers hcalls =>
              rw [hview] at hnone
              cases hnone
  · rw [if_neg hme]
    exact h

/-! ### A message is handled -/

theorem ipcSendReply_keeps {memory : Bool} {c c' : IpcClient} {f : Frame}
    (h : ipcSendReply memory c f = some c') :
    c'.pendingLength = c.pendingLength := by
  unfold ipcSendReply at h
  dsimp only at h
  split at h
  · cases h
  split at h
  · cases h
  · cases h
    rfl

/-- The handling of a call: some events, and one reply of the same type. -/
theorem handlingOf_call (k : Compositor) {type : UInt32} (h : type.toNat ∈ ipcCallTypes)
    (payload : List UInt8) :
    ∃ (events : List Frame) (r : Frame),
      handlingOf k type payload = events.map .event ++ [.reply r] ∧ r.kind = type := by
  unfold handlingOf
  simp only [ipcCallTypes, List.mem_cons, List.not_mem_nil, or_false] at h
  rcases h with h | h | h | h | h | h | h | h | h | h | h | h | h | h | h <;> rw [h]
  case inl => exact ⟨(k.execute payload).1, _, rfl, rfl⟩
  case inr.inr.inr.inr.inr.inr.inr.inr.inr.inl =>
    exact ⟨[ipcFrame ipcEventTick (k.tick payload)], _, rfl, rfl⟩
  all_goals exact ⟨[], _, rfl, rfl⟩

theorem repliesOf_call (events : List Frame) (r : Frame) :
    repliesOf (events.map .event ++ [.reply r]) = [r] := by
  induction events with
  | nil => rfl
  | cons f events ih => exact ih

/-- What the handling of a call leaves of a client that is subscribed to nothing. -/
theorem view_call {server : IpcServer} (hs : server.Sound) {c : IpcClient}
    (hview : server.view me = some c) (hevents : c.subscribedEvents = 0) (events : List Frame)
    (r : Frame) :
    ((events.map IpcAction.event ++ [IpcAction.reply r]).foldl (IpcServer.perform me) server).view
        me =
      ipcSendReply true c r := by
  induction events generalizing server with
  | nil => exact (IpcServer.perform_connected hs.nodup hview (.reply r)).2
  | cons f events ih =>
      rw [List.map_cons, List.cons_append, List.foldl_cons]
      apply ih (hs.perform me (.event f))
      have hpassed : c.receive f = some c := by
        rw [IpcClient.receive, if_neg (IpcClient.not_subscribed hevents f.kind)]
      exact (IpcServer.perform_connected hs.nodup hview (.event f)).2.trans hpassed

/-- Between two messages a call of the server changes nothing. -/
theorem readable_quiet (k : Compositor) {queue : List UInt8}
    (h : s.Quiet (s.server.client me) queue) : s.readable me k = s := by
  obtain ⟨-, hpending, hunread, -⟩ := h
  unfold IpcSession.readable
  rw [handleReadable_nothing hpending hunread]
  dsimp only
  rw [if_neg (by decide), IpcServer.setClient, Function.update_eq_self]

/-- What a call of the server comes to while a message is on its way to it: the message is complete
and handled, with one reply, or the rest is waited for. -/
inductive Asked (me : IpcClientId) (s : IpcSession) (k : Compositor) (f : Frame) : Prop
  | handled (server : IpcServer) (unread : Unread) (r : Frame) (d : IpcClient)
      (hstep : s.readable me k = { s with
        server := server, unread := unread, handled := s.handled ++ [f]
        replies := s.replies ++ [r] })
      (hunread : unread.bytes = []) (hflight : s.flight = []) (hkind : r.kind = f.kind)
      (hreply : .reply r ∈ handlingOf k f.kind f.payload) (hsound : server.Sound)
      (hd : d.Sound ∧ d.queue = [] ∧ d.pendingLength = 0 ∧ d.subscribedEvents = 0)
      (hview : server.view me = ipcSendReply true d r)
  | waits (server : IpcServer) (unread : Unread) (d : IpcClient)
      (hstep : s.readable me k = { s with server := server, unread := unread })
      (hflight : s.flight ≠ []) (hsound : server.Sound)
      (hd : d.queue = [] ∧ d.subscribedEvents = 0) (hview : server.view me = some d)
      (hreading : PartlyRead d f (unread.bytes ++ s.flight))

theorem readable_asked (h : IpcSessionInv me s) (hme : me ∈ s.server.clientList) {f : Frame}
    (hf : f ∈ s.calls) (hqueue : (s.server.client me).queue = [])
    (hreading : PartlyRead (s.server.client me) f (s.unread.bytes ++ s.flight)) (k : Compositor) :
    Asked me s k f := by
  have hview := IpcServer.view_of_mem hme
  have hhanded := handleReadable_reading hreading
  generalize hi : ipcClientHandleReadable ⟨s.server.client me, true, s.unread, [], []⟩
    ⟨⟨false, false⟩, true, true, true, true, true⟩ = i at hhanded
  obtain ⟨hconnected, ⟨hqueue', hevents'⟩, hsound', hdone⟩ := hhanded
  have hsets := IpcServer.sets_setClient hme i.client
  have hsound := hsound' (h.sound.client me _ hview)
  have hevents : i.client.subscribedEvents = 0 := hevents'.trans (h.unsubscribed _ hview)
  have hserver : (s.server.setClient me i.client).Sound :=
    h.sound.sets hsets h.sound.nodup fun d hd => Option.some.inj hd ▸ hsound
  have hnew : (s.server.setClient me i.client).view me = some i.client := by
    rw [hsets.view, Function.update_self]
  rcases hdone with ⟨hhandled, hpending, hunread, hflight⟩ | ⟨hhandled, hflight, hreading'⟩
  · obtain ⟨events, r, hactions, hkind⟩ := handlingOf_call k (h.fair f hf).1 f.payload
    have hcommand : ipcClientHandleCommand k (s.server.setClient me i.client) me true f.kind
        f.payload = (events.map IpcAction.event ++ [IpcAction.reply r]).foldl
          (IpcServer.perform me) (s.server.setClient me i.client) := by
      rw [ipcClientHandleCommand, if_neg (by decide), hactions]
    refine .handled _ i.unread r i.client ?_ hunread hflight hkind ?_
      (hserver.step k (.message me true f.kind f.payload))
      ⟨hsound, hqueue'.trans hqueue, hpending, hevents⟩ ?_
    · unfold IpcSession.readable
      rw [hi]
      dsimp only
      rw [if_neg (by rw [hconnected]; decide), hhandled]
      dsimp only
      rw [hactions, repliesOf_call]
      rfl
    · rw [hactions]
      exact List.mem_append_right _ List.mem_cons_self
    · show (ipcClientHandleCommand k (s.server.setClient me i.client) me true f.kind
        f.payload).view me = _
      rw [hcommand]
      exact view_call hserver hnew hevents events r
  · refine .waits _ i.unread i.client ?_ hflight hserver ⟨hqueue'.trans hqueue, hevents⟩ hnew
      hreading'
    unfold IpcSession.readable
    rw [hi]
    dsimp only
    rw [if_neg (by rw [hconnected]; decide), hhandled]

/-- **The server reads**: a message that is complete is handled, and its reply is queued. -/
theorem IpcSessionInv.readable (h : IpcSessionInv me s) (k : Compositor) :
    IpcSessionInv me (s.step me (.readable k)) := by
  unfold IpcSession.step
  dsimp only
  by_cases hme : me ∈ s.server.clientList
  · rw [if_pos hme]
    have hview := IpcServer.view_of_mem hme
    cases h.stage with
    | resting hphase hwire hhandled hanswers hclient =>
        rw [readable_quiet k (hclient _ hview)]
        exact h
    | answering r l queue rs hphase hwire hhandled hreplies hanswers hclient =>
        rw [readable_quiet k (hclient _ hview)]
        exact h
    | ended hphase hnone hhandled hanswers hcalls =>
        rw [hview] at hnone
        cases hnone
    | asking f hphase hwire hcalls hanswers hclient =>
        obtain ⟨hqueue, hreading⟩ := hclient _ hview
        cases readable_asked h hme (hcalls ▸ List.mem_append_right _ List.mem_cons_self) hqueue
          hreading k with
        | handled server unread r d hstep hunread hflight hkind hreply hsound hd hview' =>
            obtain ⟨hdsound, hdqueue, hpending, hevents⟩ := hd
            have hspec := (ipcSendReply_spec r hdsound).2 true
            rw [hstep]
            refine ⟨hsound, fun c hc => ?_, h.fair, ?_, ?_⟩
            · rw [hview'] at hc
              exact (hspec c hc).2.2.2.trans hevents
            · show (s.replies ++ [r]).map Frame.kind = (s.handled ++ [f]).map Frame.kind
              rw [List.map_append, List.map_append, h.kinds, List.map_singleton, hkind]
              rfl
            · refine .answering r [] (r.bytes ipcMagic) s.replies ?_ ?_ hcalls.symm rfl hanswers
                fun c hc => ?_
              · show CallerPhase.Has r [] s.phase
                rw [hphase]
                exact .header (by decide)
              · show [] ++ s.wire ++ _ = _
                rw [hwire]
                rfl
              · rw [hview'] at hc
                refine ⟨?_, (ipcSendReply_keeps hc).trans hpending, hunread, hflight⟩
                rw [(hspec c hc).2.1, hdqueue]
                rfl
        | waits server unread d hstep hflight hsound hd hview' hreading' =>
            rw [hstep]
            refine ⟨hsound, fun c hc => ?_, h.fair, h.kinds, ?_⟩
            · obtain rfl := Option.some.inj (hview'.symm.trans hc)
              exact hd.2
            · refine .asking f hphase hwire hcalls hanswers fun c hc => ?_
              obtain rfl := Option.some.inj (hview'.symm.trans hc)
              exact ⟨hd.1, hreading'⟩
  · rw [if_neg hme]
    exact h

/-! ### The caller reads -/

/-- `recv` gives the caller `n` bytes at most. -/
def IpcSession.taken (s : IpcSession) (n : Nat) : List UInt8 := s.wire.take (min n s.phase.wanted)

theorem taken_append (s : IpcSession) (n : Nat) :
    s.taken n ++ s.wire.drop (s.taken n).length = s.wire := by
  unfold IpcSession.taken
  rw [List.length_take]
  rw [List.take_eq_take_min, List.take_append_drop]

theorem finish_frame (s : IpcSession) :
    s.finish.server = s.server ∧ s.finish.calls = s.calls ∧ s.finish.handled = s.handled ∧
      s.finish.replies = s.replies := by
  unfold IpcSession.finish
  split
  · split <;> exact ⟨rfl, rfl, rfl, rfl⟩
  · exact ⟨rfl, rfl, rfl, rfl⟩

theorem header_split (r : Frame) :
    (r.bytes ipcMagic).take ipcHeaderSize ++ r.payload = r.bytes ipcMagic := by
  rw [← bytes_drop_header r, List.take_append_drop]

/-- Some of the payload has been read. -/
theorem stage_finish {r : Frame} {buffer queue : List UInt8} {rs : List Frame}
    (hphase : s.phase = .payload r.payload.length r.kind buffer)
    (hbytes : buffer ++ s.wire ++ queue = r.payload) (hhandled : s.handled = s.calls)
    (hreplies : s.replies = rs ++ [r]) (hanswers : s.answers = rs.map Frame.response)
    (hclient : ∀ c, s.server.view me = some c → s.Quiet c queue) : s.finish.Stage me := by
  have hlen : buffer.length + s.wire.length + queue.length = r.payload.length := by
    rw [← hbytes, List.length_append, List.length_append]
  unfold IpcSession.finish
  rw [hphase]
  dsimp only
  by_cases hdone : r.payload.length ≤ buffer.length
  · rw [if_pos hdone]
    have hwire : s.wire = [] := List.length_eq_zero_iff.1 (by omega)
    have hqueue : queue = [] := List.length_eq_zero_iff.1 (by omega)
    subst hqueue
    rw [hwire, List.append_nil, List.append_nil] at hbytes
    refine .resting rfl hwire hhandled ?_ hclient
    show s.answers ++ [_] = s.replies.map Frame.response
    rw [hanswers, hreplies, List.map_append, hbytes]
    rfl
  · rw [if_neg hdone]
    refine .answering r ((r.bytes ipcMagic).take ipcHeaderSize ++ buffer) queue rs ?_ ?_ hhandled
      hreplies hanswers hclient
    · rw [hphase]
      exact .payload rfl (by omega)
    rw [List.append_assoc, List.append_assoc, ← List.append_assoc buffer, hbytes]
    exact header_split r

/-- **A read of the caller** takes the next bytes of the reply. -/
theorem stage_read {r : Frame} {l queue : List UInt8} {rs : List Frame} (n : Nat)
    (hphase : s.phase.Has r l) (hwire : l ++ s.wire ++ queue = r.bytes ipcMagic)
    (hhandled : s.handled = s.calls) (hreplies : s.replies = rs ++ [r])
    (hanswers : s.answers = rs.map Frame.response)
    (hclient : ∀ c, s.server.view me = some c → s.Quiet c queue) :
    (IpcSession.finish { s with
      wire := s.wire.drop (s.taken n).length, phase := s.phase.read (s.taken n) }).Stage me := by
  have hsplit := taken_append s n
  have hmore : (s.taken n).length ≤ s.phase.wanted := by
    unfold IpcSession.taken
    rw [List.length_take]
    omega
  generalize hp : s.phase = phase at hphase hmore ⊢
  cases hphase with
  | payload hl hlt =>
      rename_i buffer
      refine stage_finish (r := r) (s := { s with
        wire := s.wire.drop (s.taken n).length
        phase := .payload r.payload.length r.kind (buffer ++ s.taken n) }) rfl ?_ hhandled hreplies
        hanswers hclient
      show buffer ++ s.taken n ++ s.wire.drop _ ++ queue = _
      rw [List.append_assoc buffer, hsplit]
      rw [hl, List.append_assoc, List.append_assoc, ← header_split r] at hwire
      have hrest := List.append_cancel_left hwire
      rwa [List.append_assoc]
  | header hlt =>
      have hbytes : l ++ s.taken n ++ (s.wire.drop (s.taken n).length ++ queue) =
          r.bytes ipcMagic := by
        rw [List.append_assoc, ← List.append_assoc (s.taken n), hsplit, ← List.append_assoc]
        exact hwire
      have hwanted : (s.taken n).length ≤ ipcHeaderSize - l.length := hmore
      show (IpcSession.finish { s with
        wire := s.wire.drop (s.taken n).length
        phase := if (l ++ s.taken n).length < ipcHeaderSize then .header (l ++ s.taken n)
          else .payload (headLength ipcMagic (l ++ s.taken n)) (headKind ipcMagic (l ++ s.taken n))
            [] }).Stage me
      by_cases hshort : (l ++ s.taken n).length < ipcHeaderSize
      · rw [if_pos hshort]
        refine .answering r (l ++ s.taken n) queue rs (.header hshort) ?_ hhandled hreplies hanswers
          hclient
        rw [List.append_assoc]
        exact hbytes
      · -- the header is complete
        rw [if_neg hshort]
        have hlen : (l ++ s.taken n).length = ipcHeaderSize := by
          rw [List.length_append] at hshort ⊢
          omega
        have hhead : l ++ s.taken n = (r.bytes ipcMagic).take ipcHeaderSize := by
          rw [← hbytes, List.take_left' hlen]
        have hwhole : ipcHeaderSize ≤ (r.bytes ipcMagic).length := by
          rw [r.bytes_length]
          exact Nat.le_add_right _ _
        have hlength : headLength ipcMagic (l ++ s.taken n) = r.payload.length := by
          rw [hhead, (headLength_take hwhole).1]
          have h : headLength ipcMagic (r.bytes ipcMagic ++ []) = _ := headLength_bytes r []
          rwa [List.append_nil] at h
        have hkind : headKind ipcMagic (l ++ s.taken n) = r.kind := by
          rw [hhead, (headLength_take hwhole).2]
          have h : headKind ipcMagic (r.bytes ipcMagic ++ []) = _ := headKind_bytes r []
          rwa [List.append_nil] at h
        rw [hlength, hkind]
        refine stage_finish (r := r) (s := { s with
          wire := s.wire.drop (s.taken n).length
          phase := .payload r.payload.length r.kind [] }) rfl ?_ hhandled hreplies hanswers hclient
        rw [hhead] at hbytes
        exact List.append_cancel_left (hbytes.trans (header_split r).symm)

theorem recv_still (s : IpcSession) (n : Nat) (hphase : s.phase.wanted = 0 ∨ s.wire = [])
    (hread : s.phase.read [] = s.phase) (hfinish : s.finish = s) :
    IpcSession.finish { s with
      wire := s.wire.drop (s.taken n).length, phase := s.phase.read (s.taken n) } = s := by
  have hnone : s.taken n = [] := by
    unfold IpcSession.taken
    rcases hphase with hphase | hphase
    · rw [hphase, Nat.min_zero, List.take_zero]
    · rw [hphase, List.take_nil]
  rw [hnone, hread]
  exact hfinish

theorem IpcSessionInv.recv (h : IpcSessionInv me s) (n : Nat) : IpcSessionInv me (s.recv me n) := by
  unfold IpcSession.recv
  by_cases hclosed : s.wire = [] ∧ me ∉ s.server.clientList
  · rw [if_pos hclosed]
    have hview := IpcServer.view_of_not_mem hclosed.2
    have habort : ∀ (hhandled : s.handled <+: s.calls)
        (hanswers : s.answers <+: s.replies.map Frame.response)
        (hcalls : s.calls.length ≤ s.answers.length + 1),
        IpcSessionInv me { s with phase := .aborted } :=
      fun hhandled hanswers hcalls =>
        ⟨h.sound, h.unsubscribed, h.fair, h.kinds, .ended rfl hview hhandled hanswers hcalls⟩
    have hlen := congrArg List.length h.kinds
    simp only [List.length_map] at hlen
    cases h.stage with
    | resting hphase hwire hhandled hanswers hclient => rw [hphase]; exact h
    | asking f hphase hwire hcalls hanswers hclient =>
        rw [hphase]
        apply habort
        · exact ⟨[f], hcalls.symm⟩
        · exact hanswers ▸ List.prefix_refl _
        · rw [hcalls, hanswers]
          simp [hlen]
    | answering r l queue rs hphase hwire hhandled hreplies hanswers hclient =>
        generalize hp : s.phase = phase at hphase ⊢
        cases hphase with
        | payload => exact h
        | header =>
            apply habort
            · exact hhandled ▸ List.prefix_refl _
            · rw [hanswers, hreplies, List.map_append]
              exact List.prefix_append _ _
            · rw [← hhandled, ← hlen, hreplies, hanswers]
              simp
    | ended hphase hnone hhandled hanswers hcalls => rw [hphase]; exact h
  · rw [if_neg hclosed]
    show IpcSessionInv me (IpcSession.finish { s with
      wire := s.wire.drop (s.taken n).length, phase := s.phase.read (s.taken n) })
    cases h.stage with
    | resting hphase hwire hhandled hanswers hclient =>
        rw [recv_still s n (Or.inr hwire) (by rw [hphase]; rfl)
          (by rw [IpcSession.finish, hphase])]
        exact h
    | asking f hphase hwire hcalls hanswers hclient =>
        rw [recv_still s n (Or.inr hwire) (by rw [hphase]; rfl)
          (by rw [IpcSession.finish, hphase])]
        exact h
    | ended hphase hnone hhandled hanswers hcalls =>
        rw [recv_still s n (Or.inl (by rw [hphase]; rfl)) (by rw [hphase]; rfl)
          (by rw [IpcSession.finish, hphase])]
        exact h
    | answering r l queue rs hphase hwire hhandled hreplies hanswers hclient =>
        have hstage := stage_read n hphase hwire hhandled hreplies hanswers hclient
        obtain ⟨hserver, hcalls, hhandled', hreplies'⟩ := finish_frame { s with
          wire := s.wire.drop (s.taken n).length, phase := s.phase.read (s.taken n) }
        refine ⟨?_, fun c hc => ?_, ?_, ?_, hstage⟩
        · rw [hserver]
          exact h.sound
        · rw [hserver] at hc
          exact h.unsubscribed c hc
        · rw [hcalls]
          exact h.fair
        · rw [hreplies', hhandled']
          exact h.kinds

/-- **The step**: every fair event keeps the invariant. -/
theorem IpcSessionInv.step (h : IpcSessionInv me s) {e : IpcSessionEvent} (he : e.Fair me) :
    IpcSessionInv me (s.step me e) := by
  cases e with
  | call f => exact h.call he
  | arrive n => exact h.arrive n
  | readable k => exact h.readable k
  | writable mask result => exact h.writable mask result
  | other k e => exact h.other k he
  | recv n => exact h.recv n

end Steps

/-! ## Runs -/

/-- A caller that has just connected. -/
def IpcSession.start (server : IpcServer) (me : IpcClientId) : IpcSession where
  server := ipcHandleConnection server me
  unread := ⟨[], Nat.zero_le _⟩
  flight := []
  wire := []
  phase := .idle
  calls := []
  handled := []
  replies := []
  answers := []

theorem view_start {server : IpcServer} {me : IpcClientId} (h : me ∉ server.clientList) :
    (IpcSession.start server me).server.view me = some IpcClient.start := by
  unfold IpcSession.start ipcHandleConnection
  dsimp only
  rw [if_neg h, IpcServer.view_of_mem (List.mem_append_right _ List.mem_cons_self)]
  exact congrArg some (Function.update_self _ _ _)

theorem ipcSessionInv_start {server : IpcServer} {me : IpcClientId} (hs : server.Sound)
    (h : me ∉ server.clientList) : IpcSessionInv me (IpcSession.start server me) := by
  have hclient : ∀ c, (IpcSession.start server me).server.view me = some c →
      c = IpcClient.start := by
    intro c hc
    rw [view_start h] at hc
    exact (Option.some.inj hc).symm
  refine ⟨?_, fun c hc => ?_, by simp [IpcSession.start], rfl, ?_⟩
  · exact hs.step ⟨fun _ => ([], []), fun _ => [], fun _ => none, fun _ _ => []⟩ (.connection me)
  · rw [hclient c hc]
    rfl
  · refine .resting rfl rfl rfl rfl fun c hc => ?_
    rw [hclient c hc]
    exact ⟨rfl, rfl, rfl, rfl⟩

/-! ## Nobody waits for the other -/

/-- The replies of a compositor are short enough for an empty queue. -/
def Compositor.Short (k : Compositor) : Prop :=
  ∀ type payload r, .reply r ∈ handlingOf k type payload →
    ipcHeaderSize + r.payload.length < writeBufferLimit

/-- What is under way is delivered: the bytes of the caller arrive, the server reads them and writes
what it has queued, and the caller reads it. -/
def IpcSession.deliver (me : IpcClientId) (k : Compositor) (s : IpcSession) : IpcSession :=
  let s := s.step me (.arrive s.flight.length)
  let s := s.step me (.readable k)
  let s := s.step me (.writable ⟨false, false⟩ (.written (s.server.client me).writeBufferLen))
  let s := s.step me (.recv ipcHeaderSize)
  s.step me (.recv s.wire.length)

section Delivery

variable {me : IpcClientId} {s : IpcSession} {c : IpcClient}

theorem arrive_all (h : IpcSessionInv me s) (hc : s.server.view me = some c) :
    (s.step me (.arrive s.flight.length)).flight = [] := by
  have hroom : s.unread.bytes.length + s.flight.length ≤ unreadMax := by
    rw [← List.length_append]
    have hmax := s.unread.fits
    cases h.stage with
    | resting hphase hwire hhandled hanswers hclient =>
        obtain ⟨-, -, hunread, hflight⟩ := hclient c hc
        rw [hunread, hflight]
        exact Nat.zero_le _
    | answering r l queue rs hphase hwire hhandled hreplies hanswers hclient =>
        obtain ⟨-, -, hunread, hflight⟩ := hclient c hc
        rw [hunread, hflight]
        exact Nat.zero_le _
    | ended hphase hview hhandled hanswers hcalls =>
        rw [hc] at hview
        cases hview
    | asking f hphase hwire hcalls hanswers hclient =>
        obtain ⟨-, hlong⟩ := h.fair f (hcalls ▸ List.mem_append_right _ List.mem_cons_self)
        rcases (hclient c hc).2 with ⟨-, hrest⟩ | ⟨-, -, -, hrest⟩
        · rw [hrest]
          exact hlong
        · rw [hrest]
          rw [f.bytes_length] at hlong
          omega
  show s.flight.drop ((s.flight.take s.flight.length).take _).length = []
  rw [List.take_length, List.length_take, List.drop_eq_nil_iff]
  exact le_min (by omega) (le_refl _)

theorem writeBufferLen_of_queue (h : c.Sound) (hqueue : c.queue = []) : c.writeBufferLen = 0 := by
  have hlen := congrArg List.length hqueue
  rw [IpcClient.queue, List.length_take, h.memory, List.length_nil] at hlen
  have := h.len
  omega

/-- A message that has arrived is answered, and the client stays connected. -/
theorem readable_answers (h : IpcSessionInv me s) (hc : s.server.view me = some c)
    (hflight : s.flight = []) {k : Compositor} (hk : k.Short) :
    (s.step me (.readable k)).handled = (s.step me (.readable k)).calls ∧
      (s.step me (.readable k)).calls = s.calls ∧
      ∃ d, (s.step me (.readable k)).server.view me = some d := by
  have hme := IpcServer.mem_of_view hc
  have hview := IpcServer.view_of_mem hme
  unfold IpcSession.step
  dsimp only
  rw [if_pos hme]
  cases h.stage with
  | resting hphase hwire hhandled hanswers hclient =>
      rw [readable_quiet k (hclient _ hview)]
      exact ⟨hhandled, rfl, c, hc⟩
  | answering r l queue rs hphase hwire hhandled hreplies hanswers hclient =>
      rw [readable_quiet k (hclient _ hview)]
      exact ⟨hhandled, rfl, c, hc⟩
  | ended hphase hnone hhandled hanswers hcalls =>
      rw [hc] at hnone
      cases hnone
  | asking f hphase hwire hcalls hanswers hclient =>
      obtain ⟨hqueue, hreading⟩ := hclient _ hview
      cases readable_asked h hme (hcalls ▸ List.mem_append_right _ List.mem_cons_self) hqueue
        hreading k with
      | waits server unread d hstep hwaits => exact absurd hflight hwaits
      | handled server unread r d hstep hunread hflight hkind hreply hsound hd hview' =>
          rw [hstep]
          refine ⟨hcalls.symm, rfl, ?_⟩
          dsimp only
          rw [hview']
          have hlen := writeBufferLen_of_queue hd.1 hd.2.1
          have hshort := hk f.kind f.payload r hreply
          cases hsent : ipcSendReply true d r with
          | some d' => exact ⟨d', rfl⟩
          | none =>
              have hneed := (ipcSendReply_spec r hd.1).1.1 hsent
              unfold IpcClient.need at hneed
              omega

/-- The whole queue is written. -/
theorem writable_all (h : c.Sound) :
    ∃ d, ipcClientHandleWritable c ⟨false, false⟩ (.written c.writeBufferLen) = (some d, c.queue) ∧
      d.queue = [] := by
  unfold ipcClientHandleWritable
  rw [if_neg (by decide), if_neg (by decide)]
  by_cases hempty : c.writeBufferLen = 0
  · rw [if_pos hempty]
    have hqueue : c.queue = [] := by rw [IpcClient.queue, hempty, List.take_zero]
    exact ⟨c, by rw [hqueue], hqueue⟩
  · rw [if_neg hempty]
    have hlen : c.queue.length = c.writeBufferLen := by
      rw [IpcClient.queue, List.length_take, h.memory]
      exact Nat.min_eq_left h.len.le
    have hall : c.queue.take c.writeBufferLen = c.queue := by rw [← hlen, List.take_length]
    dsimp only
    rw [hall, hlen, Nat.sub_self, if_pos rfl]
    exact ⟨_, rfl, by simp [IpcClient.queue]⟩

theorem writable_flushes (h : IpcSessionInv me s) (hc : s.server.view me = some c) :
    let t := s.step me (.writable ⟨false, false⟩ (.written (s.server.client me).writeBufferLen))
    t.handled = s.handled ∧ t.calls = s.calls ∧ ∃ d, t.server.view me = some d ∧ d.queue = [] := by
  have hme := IpcServer.mem_of_view hc
  obtain ⟨d, hd, hqueue⟩ := writable_all (h.sound.client me _ (IpcServer.view_of_mem hme))
  unfold IpcSession.step
  dsimp only
  rw [if_pos hme, hd]
  refine ⟨rfl, rfl, d, ?_, hqueue⟩
  dsimp only
  rw [(IpcServer.sets_setClient hme d).view, Function.update_self]

theorem recv_frame (me : IpcClientId) (s : IpcSession) (n : Nat) :
    (s.recv me n).server = s.server ∧ (s.recv me n).handled = s.handled ∧
      (s.recv me n).calls = s.calls := by
  unfold IpcSession.recv
  split
  · split <;> exact ⟨rfl, rfl, rfl⟩
  · obtain ⟨hserver, hcalls, hhandled, -⟩ := finish_frame { s with
      wire := s.wire.drop (s.taken n).length, phase := s.phase.read (s.taken n) }
    exact ⟨hserver, hhandled, hcalls⟩

theorem recv_idle (h : s.phase = .idle) (n : Nat) : (s.recv me n).phase = .idle := by
  unfold IpcSession.recv
  split
  · rw [h]
    exact h
  · unfold IpcSession.finish
    rw [h]
    rfl

/-- The caller reads from a server that is there. -/
theorem recv_connected (hc : s.server.view me = some c) (n : Nat) :
    s.recv me n = IpcSession.finish { s with
      wire := s.wire.drop (s.taken n).length, phase := s.phase.read (s.taken n) } :=
  if_neg fun h => h.2 (IpcServer.mem_of_view hc)

/-- The rest of a header is read at once when it is there. -/
theorem recv_header {r : Frame} {l : List UInt8} (hc : s.server.view me = some c)
    (hphase : s.phase.Has r l) (hwire : l ++ s.wire = r.bytes ipcMagic) (buffer : List UInt8) :
    (s.recv me ipcHeaderSize).phase ≠ .header buffer := by
  have hlen := congrArg List.length hwire
  rw [List.length_append, r.bytes_length] at hlen
  have hhead : ipcMagic.length + 8 = ipcHeaderSize := rfl
  rw [recv_connected hc]
  have hread : ∃ size type buffer,
      s.phase.read (s.taken ipcHeaderSize) = .payload size type buffer := by
    generalize hp : s.phase = phase at hphase
    cases hphase with
    | payload hl hlt => exact ⟨_, _, _, rfl⟩
    | header hlt =>
        refine ⟨_, _, _, if_neg ?_⟩
        unfold IpcSession.taken
        rw [hp]
        show ¬ (l ++ s.wire.take (min ipcHeaderSize (ipcHeaderSize - l.length))).length < _
        rw [List.length_append, List.length_take]
        omega
  obtain ⟨size, type, rest, hread⟩ := hread
  rw [hread]
  unfold IpcSession.finish
  dsimp only
  split <;> simp

/-- The rest of a payload is read at once when it is there. -/
theorem recv_payload {r : Frame} {buffer : List UInt8} (hc : s.server.view me = some c)
    (hphase : s.phase = .payload r.payload.length r.kind buffer)
    (hwire : buffer ++ s.wire = r.payload) : (s.recv me s.wire.length).phase = .idle := by
  have hlen := congrArg List.length hwire
  rw [List.length_append] at hlen
  rw [recv_connected hc]
  unfold IpcSession.taken
  rw [hphase]
  show (IpcSession.finish { s with
    wire := _
    phase := .payload r.payload.length r.kind (buffer ++ s.wire.take
      (min s.wire.length (r.payload.length - buffer.length))) }).phase = .idle
  have hall : min s.wire.length (r.payload.length - buffer.length) = s.wire.length := by omega
  unfold IpcSession.finish
  dsimp only
  rw [hall, List.take_length, hwire, if_pos (le_refl _)]

/-- Everything that is left of a reply is on the wire. -/
theorem recv_delivers (h : IpcSessionInv me s) (hc : s.server.view me = some c) (hqueue : c.queue = [])
    (hhandled : s.handled = s.calls) :
    (IpcSession.recv me (s.recv me ipcHeaderSize) (s.recv me ipcHeaderSize).wire.length).phase =
      .idle := by
  have hnot : ∀ (t : IpcSession) (f : Frame), t.handled = t.calls → t.calls ≠ t.handled ++ [f] := by
    intro t f ht hf
    have hlen := congrArg List.length hf
    rw [ht, List.length_append] at hlen
    simp at hlen
  cases h.stage with
  | resting hphase => exact recv_idle (recv_idle hphase _) _
  | asking f hphase hwire hcalls => exact absurd hcalls (hnot s f hhandled)
  | ended hphase hview => rw [hc] at hview; cases hview
  | answering r l queue rs hphase hwire hhandled' hreplies hanswers hclient =>
      have hnil : queue = [] := (hclient c hc).1.symm.trans hqueue
      rw [hnil, List.append_nil] at hwire
      have hheader := recv_header hc hphase hwire
      obtain ⟨hserver, hhandled₁, hcalls₁⟩ := recv_frame me s ipcHeaderSize
      have hc₁ : (s.recv me ipcHeaderSize).server.view me = some c := by rw [hserver]; exact hc
      cases (h.recv ipcHeaderSize).stage with
      | resting hphase => exact recv_idle hphase _
      | asking f hphase hwire hcalls =>
          exact absurd hcalls (hnot _ f (hhandled₁.trans (hhandled.trans hcalls₁.symm)))
      | ended hphase hview => rw [hc₁] at hview; cases hview
      | answering r₁ l₁ queue₁ rs₁ hphase₁ hwire₁ hhandled₂ hreplies₁ hanswers₁ hclient₁ =>
          have hnil₁ : queue₁ = [] := (hclient₁ c hc₁).1.symm.trans hqueue
          generalize hp : (s.recv me ipcHeaderSize).phase = phase at hphase₁
          cases hphase₁ with
          | header hlt => exact absurd hp (hheader l₁)
          | payload hl hlt =>
              refine recv_payload hc₁ hp ?_
              rw [hnil₁, List.append_nil, hl, List.append_assoc] at hwire₁
              exact List.append_cancel_left (hwire₁.trans (header_split r₁).symm)

/-- **Delivery** ends the exchange that is under way. -/
theorem deliver_idle (h : IpcSessionInv me s) (hc : s.server.view me = some c) {k : Compositor}
    (hk : k.Short) :
    (s.deliver me k).phase = .idle ∧ (s.deliver me k).calls = s.calls ∧
      IpcSessionInv me (s.deliver me k) ∧ ∃ d, (s.deliver me k).server.view me = some d := by
  have h₁ := h.arrive s.flight.length
  have hflight := arrive_all h hc
  obtain ⟨hhandled₂, hcalls₂, c₂, hc₂⟩ :=
    readable_answers (c := c) h₁ hc hflight hk
  have h₂ := h₁.readable k
  obtain ⟨hhandled₃, hcalls₃, c₃, hc₃, hqueue₃⟩ := writable_flushes h₂ hc₂
  have h₃ := h₂.writable ⟨false, false⟩ (.written
    (((s.step me (.arrive s.flight.length)).step me (.readable k)).server.client me).writeBufferLen)
  have hidle := recv_delivers h₃ hc₃ hqueue₃ (hhandled₃.trans (hhandled₂.trans hcalls₃.symm))
  obtain ⟨hserver₄, -, hcalls₄⟩ := recv_frame me _ ipcHeaderSize
  obtain ⟨hserver₅, -, hcalls₅⟩ := recv_frame me _ _
  refine ⟨hidle, ?_, (h₃.recv _).recv _, c₃, ?_⟩
  · exact hcalls₅.trans (hcalls₄.trans (hcalls₃.trans hcalls₂))
  · exact (congrArg (fun server => IpcServer.view server me) (hserver₅.trans hserver₄)).trans hc₃

end Delivery

/-- **A session**: in every run of a caller with the server, whatever else the server does, however
the bytes arrive and wherever the connection ends, the messages are handled in the order of the
calls, each is answered once and with its type, and the responses returned are the replies in that
order; a call at most is under way. While the client is connected nobody waits for the other for
ever: with the bytes delivered, every call has returned. -/
theorem ipc_session {server : IpcServer} {me : IpcClientId} (hs : server.Sound)
    (hme : me ∉ server.clientList) {s : IpcSession}
    (h : Run (IpcSession.step me) (fun _ e => e.Fair me) (IpcSession.start server me) s) :
    s.handled <+: s.calls ∧ s.replies.map Frame.kind = s.handled.map Frame.kind ∧
      s.answers <+: s.replies.map Frame.response ∧ s.calls.length ≤ s.answers.length + 1 ∧
      (me ∈ s.server.clientList → ∀ k : Compositor, k.Short →
        let t := s.deliver me k
        t.phase = .idle ∧ t.calls = s.calls ∧ t.handled = t.calls ∧
          t.answers = t.replies.map Frame.response) := by
  have hinv : IpcSessionInv me s :=
    h.invariant (fun _ _ hs he => hs.step he) (ipcSessionInv_start hs hme)
  have hlen := congrArg List.length hinv.kinds
  simp only [List.length_map] at hlen
  refine ⟨?_, hinv.kinds, ?_, ?_, fun hconnected k hk => ?_⟩
  · cases hinv.stage with
    | resting hphase hwire hhandled => exact hhandled ▸ List.prefix_refl _
    | asking f hphase hwire hcalls => exact ⟨[f], hcalls.symm⟩
    | answering r l queue rs hphase hwire hhandled => exact hhandled ▸ List.prefix_refl _
    | ended hphase hview hhandled => exact hhandled
  · cases hinv.stage with
    | resting hphase hwire hhandled hanswers => exact hanswers ▸ List.prefix_refl _
    | asking f hphase hwire hcalls hanswers => exact hanswers ▸ List.prefix_refl _
    | answering r l queue rs hphase hwire hhandled hreplies hanswers =>
        rw [hanswers, hreplies, List.map_append]
        exact List.prefix_append _ _
    | ended hphase hview hhandled hanswers => exact hanswers
  · cases hinv.stage with
    | resting hphase hwire hhandled hanswers => rw [← hhandled, hanswers]; simp [hlen]
    | asking f hphase hwire hcalls hanswers => rw [hcalls, hanswers]; simp [hlen]
    | answering r l queue rs hphase hwire hhandled hreplies hanswers =>
        rw [← hhandled, ← hlen, hreplies, hanswers]
        simp
    | ended hphase hview hhandled hanswers hcalls => exact hcalls
  · obtain ⟨hidle, hcalls, hinv', -⟩ := deliver_idle hinv (IpcServer.view_of_mem hconnected) hk
    refine ⟨hidle, hcalls, ?_⟩
    cases hinv'.stage with
    | resting hphase hwire hhandled hanswers => exact ⟨hhandled, hanswers⟩
    | asking f hphase => rw [hidle] at hphase; cases hphase
    | ended hphase => rw [hidle] at hphase; cases hphase
    | answering r l queue rs hphase => rw [hidle] at hphase; cases hphase

theorem terseCompositor_short : terseCompositor.Short := by
  have hframe : ∀ type text, (ipcFrame type text).payload.length ≤ text.length := by
    intro type text
    show (text.take _).length ≤ text.length
    rw [List.length_take]
    exact Nat.min_le_right _ _
  intro type payload r hr
  have htext : ∃ text, r = ipcFrame type text ∧ text.length ≤ 20 := by
    unfold handlingOf at hr
    split at hr
    · exact ⟨ipcText "[]", by simpa [terseCompositor] using hr, by decide⟩
    · exact ⟨_, by simpa using hr, by decide⟩
    · exact ⟨_, by simpa [terseCompositor] using hr, by decide⟩
    · exact ⟨_, by simpa using hr, by decide⟩
    all_goals
      first
        | (simp at hr; done)
        | exact ⟨ipcText "[]", by simpa [terseCompositor] using hr, by decide⟩
  obtain ⟨text, rfl, htext⟩ := htext
  have hle := hframe type text
  show ipcHeaderSize + _ < writeBufferLimit
  have hhead : ipcHeaderSize = 14 := rfl
  have hlimit : writeBufferLimit = 2097152 := rfl
  omega

/-- A call of which three bytes have arrived is answered. -/
theorem ipc_session_version :
    ∃ s : IpcSession, s.calls.length = 1 ∧ s.answers.length = 0 ∧ s.unread.bytes.length = 3 ∧
      (s.deliver 0 terseCompositor).phase = .idle := by
  have hs : IpcServer.Sound ⟨[], fun _ => IpcClient.start, []⟩ :=
    ⟨List.nodup_nil, fun id c hc => by cases hc⟩
  have hfair : Allowed (IpcSession.step 0) (fun _ e => e.Fair 0)
      (IpcSession.start ⟨[], fun _ => IpcClient.start, []⟩ 0)
      [.call ⟨7, [], by decide⟩, .arrive 3, .readable terseCompositor] :=
    ⟨⟨by decide, by decide⟩, trivial, trivial, trivial⟩
  obtain ⟨-, -, -, -, hdeliver⟩ := ipc_session hs List.not_mem_nil (Run.foldl hfair)
  exact ⟨_, rfl, rfl, rfl, (hdeliver (by decide) terseCompositor terseCompositor_short).1⟩

end Swirl
